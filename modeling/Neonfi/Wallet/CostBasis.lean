import Neonfi.Lib.Run
import Neonfi.Wallet.Holdings

/-!
# Cost basis of a connected portfolio

A sync with a cost map writes balance and cost of a row together; every other pass writes
balances and preserves the cost columns.
-/

namespace Neonfi.Wallet

open Lib
open Ledger (Db Portfolio Asset Env sampleEnv)

/-! ## Passes over one portfolio -/

/-- One pass: what the provider holds, the transfers it imports first, and its cost map. -/
structure Pass where
  tokens : List WalletToken
  transfers : List WalletTransfer
  cost : Option CostMap
  nftStored : WalletTransfer → Bool
  env : Env

/-- A pass whose holdings do not all resolve leaves the rows alone. -/
def Pass.apply (text : Text) (portfolio : Portfolio) (pass : Pass) (db : Db) : Db :=
  let (held, db) := resolveHeldTokens text pass.tokens db
  if held.length ≠ pass.tokens.length then db
  else
    setConnectedBalancesFromSummary portfolio.id held pass.cost
      (importTransfers text pass.env portfolio pass.nftStored pass.transfers db).2

def PassStep (text : Text) (portfolio : Portfolio) (db : Db) (pass : Pass) (db' : Db) : Prop :=
  db' = pass.apply text portfolio db

section Instances

variable {text : Text} {portfolio : Portfolio} {db : Db}

/-- A sync that answers without an error is a pass with the cost map it resolves. -/
theorem syncHoldings_eq_pass {answers : Answers} (hanswered : answers.summary ≠ .error) :
    (syncHoldings text portfolio answers db).2 =
      Pass.apply text portfolio
        ⟨answers.summary.tokens, answers.transfers, syncCost text portfolio answers db,
          answers.nftStored, answers.env⟩ db := by
  unfold syncHoldings Pass.apply syncCost
  split
  · next herror => exact absurd herror hanswered
  · dsimp only
    split
    · rfl
    · rfl

/-- A webhook refresh is a pass without transfers and without a cost map. -/
theorem refresh_eq_pass {summary : SummaryResult} {nftStored : WalletTransfer → Bool} {env : Env}
    (hanswered : summary ≠ .error) :
    refreshConnectedBalancesFromProvider text portfolio summary db = db ∨
      refreshConnectedBalancesFromProvider text portfolio summary db =
        Pass.apply text portfolio ⟨summary.tokens, [], none, nftStored, env⟩ db := by
  unfold refreshConnectedBalancesFromProvider Pass.apply
  split
  · exact .inl rfl
  · split
    · next herror => exact absurd rfl hanswered
    · right
      dsimp only
      split
      · rfl
      · rfl

end Instances

/-! ## Coherent cost columns -/

def costsOf (a : Asset) : CostColumns := ⟨a.avgCost, a.costBasis, a.realizedPnl⟩

/-- Unit cost, balance and cost basis are the stored forms of a unit cost, a quantity and
their product. -/
def Coheres (a : Asset) : Prop :=
  ∀ c, a.avgCost = some c → ∃ unit quantity, c = toDecimalString unit ∧
    a.balance = toDecimalString quantity ∧ a.costBasis = toDecimalString (unit * quantity)

/-- A row describes the units it holds, and a row of balance 0 has no cost. -/
def CostCoherent (a : Asset) : Prop :=
  Coheres a ∧ (a.balance = 0 → a.avgCost = none ∧ a.costBasis = 0)

theorem coheres_of_write (held : List HeldToken) (cost : CostMap) (tokenId : ℕ) (a : Asset) :
    Coheres ((balanceWrite held (some cost) tokenId).apply a) := by
  intro c hc
  let balance := ((heldById held tokenId).map HeldToken.balance).getD 0
  have hcolumns : ((((lastSet cost tokenId).bind TokenCost.avgCost).filter
      fun _ => decide (0 < balance)).map toDecimalString) = some c := hc
  cases hunit : ((lastSet cost tokenId).bind TokenCost.avgCost).filter
      fun _ => decide (0 < balance) with
  | none =>
      rw [hunit] at hcolumns
      cases hcolumns
  | some unit =>
      rw [hunit] at hcolumns
      cases hcolumns
      refine ⟨unit, balance, rfl, rfl, ?_⟩
      show toDecimalString (((((lastSet cost tokenId).bind TokenCost.avgCost).filter
        fun _ => decide (0 < balance)).map fun avgCost => avgCost * balance).getD 0) = _
      rw [hunit]
      rfl

/-- A token that is not held is written with balance 0 and without cost. -/
theorem write_of_not_held {held : List HeldToken} {cost : CostMap} {tokenId : ℕ} {a : Asset}
    (h : heldById held tokenId = none) :
    ((balanceWrite held (some cost) tokenId).apply a).balance = 0 ∧
      ((balanceWrite held (some cost) tokenId).apply a).avgCost = none ∧
      ((balanceWrite held (some cost) tokenId).apply a).costBasis = 0 := by
  have hzero : toDecimalString 0 = 0 := by decide +kernel
  unfold balanceWrite costColumns BalanceWrite.apply
  simp [h, hzero]

/-! ## What one pass does to the cost columns -/

section Step

variable {text : Text} {portfolio : Portfolio} {pass : Pass} {db : Db} {tokenId : ℕ} {a : Asset}

/-- The state in which a pass that resolves its holdings sets the balances. -/
theorem Pass.apply_cases (text : Text) (portfolio : Portfolio) (pass : Pass) (db : Db)
    (hconnected : (db.findPortfolioById portfolio.id).map Portfolio.type = some .connected) :
    ∃ mid, FeedFrame portfolio.id db mid ∧
      (pass.apply text portfolio db = mid ∨
        pass.apply text portfolio db = setConnectedBalancesFromSummary portfolio.id
          (heldTokens text (resolution text pass.tokens db)) pass.cost mid) := by
  unfold Pass.apply heldTokens
  rw [← held_eq_resolution]
  obtain ⟨tokens, hcatalog⟩ := @catalog_resolveHeldTokens text pass.tokens db
  have hframe : FeedFrame portfolio.id db (resolveHeldTokens text pass.tokens db).2 := by
    rw [hcatalog]
    exact .of_tables rfl rfl
  dsimp only
  split
  · exact ⟨_, hframe, .inl rfl⟩
  · exact ⟨_, hframe.trans (.importTransfers (hframe.type.trans hconnected)), .inr rfl⟩

/-- A row with a unit cost is not one that the feed created. -/
theorem FeedFrame.of_avgCost {p : ℕ} {db mid : Db} (h : FeedFrame p db mid)
    (ha : mid.findAsset p tokenId = some a) (havg : a.avgCost ≠ none) :
    db.findAsset p tokenId = some a := by
  cases hfound : db.findAsset p tokenId with
  | none =>
      have hfresh := (h.fresh p tokenId a hfound ha).2
      rw [hfresh] at havg
      exact absurd rfl havg
  | some b =>
      have hkept := h.kept p tokenId b hfound
      rw [ha] at hkept
      exact hkept.symm

/-- The cost columns of a row with a unit cost are either what this pass wrote together with
the balance, from a cost map, or what they were. -/
theorem costs_of_apply
    (hconnected : (db.findPortfolioById portfolio.id).map Portfolio.type = some .connected)
    (ha : (pass.apply text portfolio db).findAsset portfolio.id tokenId = some a)
    (havg : a.avgCost ≠ none) :
    (pass.cost.isSome ∧ Coheres a) ∨
      ∃ b, db.findAsset portfolio.id tokenId = some b ∧ costsOf b = costsOf a := by
  obtain ⟨mid, hframe, hpass | hpass⟩ := Pass.apply_cases text portfolio pass db hconnected
  · rw [hpass] at ha
    exact .inr ⟨a, hframe.of_avgCost ha havg, rfl⟩
  · rw [hpass, findAsset_setConnectedBalances, if_neg (by simp)] at ha
    split at ha
    · -- the row is zeroed
      obtain ⟨b, hb, hzeroed⟩ := Option.map_eq_some_iff.mp ha
      unfold zeroed at hzeroed
      split at hzeroed
      · have hcosts : costsOf b = costsOf a := by
          rw [← hzeroed]
          rfl
        have hbavg : b.avgCost ≠ none := by
          rw [← hzeroed] at havg
          exact havg
        exact .inr ⟨b, hframe.of_avgCost hb hbavg, hcosts⟩
      · rw [← hzeroed] at havg
        exact absurd rfl havg
    · split at ha
      · cases hcost : pass.cost with
        | some cost =>
            rw [hcost] at ha
            cases ha
            exact .inl ⟨rfl, coheres_of_write _ _ _ _⟩
        | none =>
            rw [hcost] at ha
            cases hb : mid.findAsset portfolio.id tokenId with
            | none =>
                rw [hb] at ha
                cases ha
                exact absurd rfl havg
            | some b =>
                rw [hb] at ha
                cases ha
                exact .inr ⟨b, hframe.of_avgCost hb havg, rfl⟩
      · exact .inr ⟨a, hframe.of_avgCost ha havg, rfl⟩

theorem type_apply
    (hconnected : (db.findPortfolioById portfolio.id).map Portfolio.type = some .connected) :
    ((pass.apply text portfolio db).findPortfolioById portfolio.id).map Portfolio.type =
      some .connected := by
  obtain ⟨mid, hframe, hpass | hpass⟩ := Pass.apply_cases text portfolio pass db hconnected
  · rw [hpass, hframe.type, hconnected]
  · rw [hpass, portfolios_setConnectedBalances, hframe.type, hconnected]

end Step

/-! ## Runs of passes -/

section Runs

variable {text : Text} {portfolio : Portfolio} {passes : List Pass} {db db' : Db}
variable {tokenId : ℕ} {a : Asset}

/-- The cost columns of the row are those it had right after a sync with a cost map, and
there they described its balance. -/
def Traced (text : Text) (portfolio : Portfolio) (db : Db) (passes : List Pass) (tokenId : ℕ)
    (a : Asset) : Prop :=
  ∃ before pass after mid b, passes = before ++ pass :: after ∧
    Run (PassStep text portfolio) db before mid ∧ pass.cost.isSome ∧
    (pass.apply text portfolio mid).findAsset portfolio.id tokenId = some b ∧
    costsOf b = costsOf a ∧ Coheres b

theorem avgCost_of_costs {b : Asset} (h : costsOf b = costsOf a) : b.avgCost = a.avgCost :=
  congrArg CostColumns.avgCost h

theorem costs_of_run (hrun : Run (PassStep text portfolio) db passes db')
    (hconnected : (db.findPortfolioById portfolio.id).map Portfolio.type = some .connected)
    (ha : db'.findAsset portfolio.id tokenId = some a) (havg : a.avgCost ≠ none) :
    Traced text portfolio db passes tokenId a ∨
      ∃ b, db.findAsset portfolio.id tokenId = some b ∧ costsOf b = costsOf a := by
  induction hrun with
  | nil s => exact .inr ⟨a, ha, rfl⟩
  | @cons s m t pass rest hstep _ ih =>
      have hm : m = pass.apply text portfolio s := hstep
      subst hm
      rcases ih (type_apply hconnected) ha with htraced | hrow
      · -- the sync that wrote the columns is a later one
        left
        obtain ⟨before, p, after, mid, b, hsplit, hbefore, hrest⟩ := htraced
        refine ⟨pass :: before, p, after, mid, b, ?_, .cons rfl hbefore, hrest⟩
        rw [hsplit, List.cons_append]
      · obtain ⟨b, hb, hcosts⟩ := hrow
        have hbavg : b.avgCost ≠ none := by
          rw [avgCost_of_costs hcosts]
          exact havg
        rcases costs_of_apply hconnected hb hbavg with hwritten | hkept
        · left
          exact ⟨[], pass, rest, s, b, rfl, .nil s, hwritten.1, hb, hcosts, hwritten.2⟩
        · obtain ⟨b', hb', hcosts'⟩ := hkept
          exact .inr ⟨b', hb', hcosts'.trans hcosts⟩

/-- A sync with a cost map that resolves its holdings leaves a token that is not held with
balance 0 and without cost. -/
theorem cleared_of_not_held {pass : Pass} (hcost : pass.cost.isSome)
    (hresolved : (resolveHeldTokens text pass.tokens db).1.length = pass.tokens.length)
    (ha : (pass.apply text portfolio db).findAsset portfolio.id tokenId = some a)
    (hheld : heldById (resolveHeldTokens text pass.tokens db).1 tokenId = none)
    (hfits : (balanceWrite (resolveHeldTokens text pass.tokens db).1 pass.cost tokenId).fits) :
    a.balance = 0 ∧ a.avgCost = none ∧ a.costBasis = 0 := by
  unfold Pass.apply at ha
  dsimp only at ha
  rw [if_neg (by simp [hresolved]), findAsset_setConnectedBalances, if_neg (by simp)] at ha
  obtain ⟨cost, hsome⟩ := Option.isSome_iff_exists.mp hcost
  rw [hsome] at ha hfits
  split at ha
  · obtain ⟨b, -, hzeroed⟩ := Option.map_eq_some_iff.mp ha
    rw [← hzeroed]
    exact ⟨rfl, rfl, rfl⟩
  · cases ha
    exact write_of_not_held hheld

/-- A pass without a cost map keeps the cost columns of every row. -/
theorem costs_preserved {pass : Pass} (hcost : pass.cost = none)
    (hconnected : (db.findPortfolioById portfolio.id).map Portfolio.type = some .connected)
    (ha : db.findAsset portfolio.id tokenId = some a) :
    ∃ b, (pass.apply text portfolio db).findAsset portfolio.id tokenId = some b ∧
      costsOf b = costsOf a := by
  obtain ⟨mid, hframe, hpass | hpass⟩ := Pass.apply_cases text portfolio pass db hconnected
  · rw [hpass]
    exact ⟨a, hframe.kept _ _ _ ha, rfl⟩
  · rw [hpass, findAsset_setConnectedBalances, if_neg (by simp), hframe.kept _ _ _ ha, hcost]
    split
    · exact ⟨_, rfl, rfl⟩
    · split
      · exact ⟨_, rfl, rfl⟩
      · exact ⟨a, rfl, rfl⟩

end Runs

/-! ## A sample run -/

/-- A sync that finds 500 units bought at 1 dollar each. -/
def costSync : Pass where
  tokens := [usdt "0xaa" 500 (some 500)]
  transfers := []
  cost := some [(1, ⟨some 1, 0⟩)]
  nftStored _ := true
  env := sampleEnv

/-- A webhook refresh with other holdings. -/
def refresh (tokens : List WalletToken) : Pass where
  tokens := tokens
  transfers := []
  cost := none
  nftStored _ := true
  env := sampleEnv

def afterSync : Db := costSync.apply sampleText walletPortfolio walletDb

def afterSale : Db :=
  (refresh [usdt "0xaa" 200 (some 200)]).apply sampleText walletPortfolio afterSync

def afterExit : Db := (refresh []).apply sampleText walletPortfolio afterSale

theorem afterExit_run : Run (PassStep sampleText walletPortfolio) walletDb
    [costSync, refresh [usdt "0xaa" 200 (some 200)], refresh []] afterExit :=
  .cons rfl (.cons rfl (.cons rfl (.nil _)))

theorem walletDb_noAssets (u : ℕ) : walletDb.findAsset walletPortfolio.id u = none := rfl

end Neonfi.Wallet

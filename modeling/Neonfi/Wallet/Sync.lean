import Neonfi.Wallet.Feed

/-!
# Connected balances

The passes that write the asset rows of a connected portfolio: a sync or resync sets every
balance from the provider summary, together with the provider's cost basis when there is
one, and a webhook refresh sets the balances alone.
-/

namespace Neonfi.Wallet

open Lib
open Ledger (Db Token Portfolio Asset Env emptyAsset)

/-! ## Provider cost basis -/

/-- An entry of the cost map. -/
structure TokenCost where
  avgCost : Option ℚ
  realized : ℚ
  deriving DecidableEq, Repr

/-- `ConnectedCostMap` as the list of its `set` calls. -/
abbrev CostMap := List (ℕ × TokenCost)

/-- The value that the last `set` of a key left. -/
def lastSet {κ α : Type} [DecidableEq κ] (entries : List (κ × α)) (key : κ) : Option α :=
  (entries.reverse.find? fun entry => entry.1 = key).map Prod.snd

/-- An item of the provider's PnL list. -/
structure PnlToken where
  contractAddress : Option String
  avgCost : Option ℚ
  realizedPnlUsd : Option ℚ
  deriving DecidableEq, Repr

/-- An item with neither a unit cost nor a realized profit tells nothing. -/
def PnlToken.hasInfo (t : PnlToken) : Bool :=
  t.avgCost.isSome || t.realizedPnlUsd.any fun realized => 1 / 10 ^ 9 < |realized|

def PnlToken.cost (t : PnlToken) : TokenCost where
  avgCost := t.avgCost
  realized := t.realizedPnlUsd.getD 0

section CostMap

variable (text : Text)

/-- The contracts of the held tokens, then those of the portfolio's rows. -/
def knownContract (portfolioId : ℕ) (held : List HeldToken) (db : Db) (contract : String) :
    Option ℕ :=
  let heldByContract := held.filterMap fun h =>
    (h.contractAddress.filter (· ≠ "")).map fun contract => (contract, h.tokenId)
  let existingByContract := db.assets.rows.filterMap fun a =>
    if a.portfolioId = portfolioId then
      ((db.findTokenById a.tokenId).bind Token.contractAddress).map fun contract =>
        (text.toLowerCase contract, a.tokenId)
    else none
  (lastSet heldByContract contract).or (lastSet existingByContract contract)

/-- The catalog by contract, for the items that are neither held nor in the portfolio.  The
stored text is compared as it is with the lower-cased contract. -/
def catalogContract (db : Db) (contract : String) : Option ℕ :=
  lastSet
    (db.tokens.rows.filterMap fun t => t.contractAddress.map fun contract => (contract, t.id))
    (text.toLowerCase contract)

/-- Items that resolve through the catalog are set last. -/
def buildConnectedCostMap (portfolioId : ℕ) (held : List HeldToken) (pnl : List PnlToken)
    (db : Db) : Option CostMap :=
  let items := pnl.filterMap fun t =>
    (t.contractAddress.filter fun contract => contract ≠ "" ∧ t.hasInfo).map fun contract =>
      (contract, t.cost)
  let known := knownContract text portfolioId held db
  let map :=
    (items.filterMap fun item => (known item.1).map fun tokenId => (tokenId, item.2)) ++
      (items.filter fun item => known item.1 = none).filterMap fun item =>
        (catalogContract text db item.1).map fun tokenId => (tokenId, item.2)
  if map = [] then none else some map

/-- Without provider PnL there is no cost map. -/
def resolveConnectedCostMap (portfolioId : ℕ) (held : List HeldToken)
    (pnl : Option (List PnlToken)) (db : Db) : Option CostMap :=
  pnl.bind fun pnl => buildConnectedCostMap text portfolioId held pnl db

end CostMap

/-! ## Writing the rows -/

/-- The cost columns of a row. -/
structure CostColumns where
  avgCost : Option ℚ
  costBasis : ℚ
  realizedPnl : ℚ
  deriving DecidableEq, Repr

/-- A unit cost values units that are held; a row of balance 0 keeps none. -/
def costColumns (cost : Option TokenCost) (balance : ℚ) : CostColumns :=
  let avgCost := (cost.bind TokenCost.avgCost).filter fun _ => 0 < balance
  { avgCost := avgCost.map toDecimalString
    costBasis := toDecimalString ((avgCost.map fun avgCost => avgCost * balance).getD 0)
    realizedPnl := signedDec8 ((cost.map TokenCost.realized).getD 0) }

/-- The columns an upsert writes; without cost columns they are preserved. -/
structure BalanceWrite where
  balance : ℚ
  cost : Option CostColumns
  deriving DecidableEq, Repr

namespace BalanceWrite

def apply (w : BalanceWrite) (a : Asset) : Asset :=
  match w.cost with
  | none => { a with balance := w.balance }
  | some cost =>
      { a with
        balance := w.balance
        avgCost := cost.avgCost
        costBasis := cost.costBasis
        realizedPnl := cost.realizedPnl
        netDeposit := 0 }

def decimals (w : BalanceWrite) : List ℚ :=
  match w.cost with
  | none => [w.balance]
  | some cost => [w.balance, cost.costBasis, cost.realizedPnl] ++ cost.avgCost.toList

def fits (w : BalanceWrite) : Bool := w.decimals.all column.fits

@[simp] theorem key_apply (w : BalanceWrite) (a : Asset) : (w.apply a).key = a.key := by
  unfold apply
  cases w.cost <;> rfl

@[simp] theorem balance_apply (w : BalanceWrite) (a : Asset) :
    (w.apply a).balance = w.balance := by
  unfold apply
  cases w.cost <;> rfl

@[simp] theorem apply_apply (w : BalanceWrite) (a : Asset) :
    w.apply (w.apply a) = w.apply a := by
  unfold apply
  cases w.cost <;> rfl

end BalanceWrite

/-- `asset.upsert`; a row that leaves the range of its columns is logged and stays as it
was. -/
def upsertAsset (portfolioId tokenId : ℕ) (w : BalanceWrite) (db : Db) : Db :=
  if ¬ w.fits then db
  else if (db.findAsset portfolioId tokenId).isSome then
    db.updateAssetRow portfolioId tokenId w.apply fun a => w.key_apply a
  else
    match db.createAsset (w.apply (emptyAsset portfolioId tokenId)) with
    | .ok db => db
    | .error _ => db

/-- `heldById.get`: the last holding of a row. -/
def heldById (held : List HeldToken) (tokenId : ℕ) : Option HeldToken :=
  held.reverse.find? fun h => h.tokenId = tokenId

/-- The rows that the pass sets. -/
def setIds (held : List HeldToken) (cost : Option CostMap) : List ℕ :=
  (held.map HeldToken.tokenId ++ (cost.getD []).map Prod.fst).eraseDups

def balanceWrite (held : List HeldToken) (cost : Option CostMap) (tokenId : ℕ) : BalanceWrite :=
  let balance := ((heldById held tokenId).map HeldToken.balance).getD 0
  { balance := toDecimalString balance
    cost := cost.map fun cost => costColumns (lastSet cost tokenId) balance }

/-- What the zero pass writes into a row that is not set. -/
def zeroed (cost : Option CostMap) (a : Asset) : Asset :=
  match cost with
  | none => { a with balance := 0 }
  | some _ =>
      { a with balance := 0, avgCost := none, costBasis := 0, realizedPnl := 0, netDeposit := 0 }

@[simp] theorem key_zeroed (cost : Option CostMap) (a : Asset) : (zeroed cost a).key = a.key := by
  cases cost <;> rfl

/-- `updateMany` over the portfolio's rows outside `ids`. -/
def zeroAbsent (portfolioId : ℕ) (ids : List ℕ) (cost : Option CostMap) (db : Db) : Db :=
  { db with
    assets := db.assets.modify
      (fun a => if a.portfolioId = portfolioId ∧ a.tokenId ∉ ids then zeroed cost a else a)
      fun a => by split <;> simp }

def setConnectedBalancesFromSummary (portfolioId : ℕ) (held : List HeldToken)
    (cost : Option CostMap) (db : Db) : Db :=
  let ids := setIds held cost
  zeroAbsent portfolioId ids cost
    (ids.foldl (fun db tokenId => upsertAsset portfolioId tokenId (balanceWrite held cost tokenId)
      db) db)

/-! ## The passes -/

/-- What `fetchWalletSummaryForSync` answers. -/
inductive SummaryResult
  | ok (summary : WalletSummary)
  | empty
  | error

def SummaryResult.tokens : SummaryResult → List WalletToken
  | .ok summary => summary.tokens
  | _ => []

/-- What the providers and the environment answer while a sync runs. -/
structure Answers where
  summary : SummaryResult
  transfers : List WalletTransfer
  pnl : Option (List PnlToken)
  nftStored : WalletTransfer → Bool
  env : Env

inductive SyncError
  | unverified
  | incomplete
  deriving DecidableEq, Repr

def SyncError.message : SyncError → String
  | .unverified => "No wallet balance provider could verify holdings"
  | .incomplete => "Wallet token resolution incomplete; existing balances preserved"

structure ResyncResult where
  importedTransfers : ℕ
  reconciled : ℕ
  deriving DecidableEq, Repr

section Passes

variable (text : Text)

/-- The catalog rows that resolving the holdings created stay when the pass fails. -/
def syncHoldings (portfolio : Portfolio) (answers : Answers) (db : Db) :
    Except SyncError ResyncResult × Db :=
  match answers.summary with
  | .error => (.error .unverified, db)
  | summary =>
      let (held, db) := resolveHeldTokens text summary.tokens db
      if held.length ≠ summary.tokens.length then (.error .incomplete, db)
      else
        let (imported, db) := importTransfers text answers.env portfolio answers.nftStored
          answers.transfers db
        let cost := resolveConnectedCostMap text portfolio.id held answers.pnl db
        (.ok ⟨imported, held.length⟩,
          setConnectedBalancesFromSummary portfolio.id held cost db)

def syncConnectedHoldings (portfolioId : ℕ) (answers : Answers) (db : Db) :
    Except SyncError Unit × Db :=
  match db.findPortfolioById portfolioId with
  | none => (.ok (), db)
  | some portfolio =>
      let (result, db) := syncHoldings text portfolio answers db
      (result.map fun _ => (), db)

/-- Without a portfolio, an address or a chain there is nothing to do. -/
def resyncConnectedHoldings (portfolioId : ℕ) (address : Option String) (chain : Option ℕ)
    (answers : Answers) (db : Db) : Except SyncError ResyncResult × Db :=
  match db.findPortfolioById portfolioId, address.filter (· ≠ ""), chain with
  | some portfolio, some _, some _ => syncHoldings text portfolio answers db
  | _, _, _ => (.ok ⟨0, 0⟩, db)

def refreshConnectedBalancesFromProvider (portfolio : Portfolio) (summary : SummaryResult)
    (db : Db) : Db :=
  if portfolio.type ≠ .connected ∨ portfolio.walletAddress.filter (· ≠ "") = none ∨
      portfolio.chainId = none then db
  else
    match summary with
    | .error => db
    | summary =>
        let (held, db) := resolveHeldTokens text summary.tokens db
        if held.length ≠ summary.tokens.length then db
        else setConnectedBalancesFromSummary portfolio.id held none db

end Passes

/-! ## What a pass leaves in each row -/

theorem findAsset_updateAssetRow (db : Db) (p t q u : ℕ) (f : Asset → Asset)
    (hf : ∀ a, (f a).key = a.key) :
    (db.updateAssetRow p t f hf).findAsset q u =
      if q = p ∧ u = t then (db.findAsset q u).map f else db.findAsset q u := by
  unfold Db.findAsset Db.updateAssetRow
  rw [Table.find?_modify]
  cases hfound : db.assets.find? (q, u) with
  | none => simp
  | some a =>
      have hkey := (Table.find?_eq_some_iff.mp hfound).2
      by_cases hqu : q = p ∧ u = t
      · simp [hkey, hqu]
      · have hne : ¬ (q, u) = (p, t) := by simpa using hqu
        simp [hkey, hqu]

theorem findAsset_upsertAsset (db : Db) (p t q u : ℕ) (w : BalanceWrite) :
    (upsertAsset p t w db).findAsset q u =
      if (q = p ∧ u = t) ∧ w.fits then some (w.apply ((db.findAsset q u).getD (emptyAsset p t)))
      else db.findAsset q u := by
  unfold upsertAsset
  by_cases hfits : w.fits
  · rw [if_neg (by simpa using hfits)]
    cases hfound : db.findAsset p t with
    | some a =>
        rw [if_pos (by simp), findAsset_updateAssetRow]
        by_cases hqu : q = p ∧ u = t
        · rw [if_pos hqu, if_pos ⟨hqu, hfits⟩, hqu.1, hqu.2, hfound]
          rfl
        · rw [if_neg hqu, if_neg (by simp [hqu])]
    | none =>
        rw [if_neg (by simp)]
        have hkey : (w.apply (emptyAsset p t)).key = (p, t) := by
          rw [BalanceWrite.key_apply]
          rfl
        have hfree : db.assets.find? (w.apply (emptyAsset p t)).key = none := hkey ▸ hfound
        obtain ⟨assets, hinsert, hrows⟩ := Table.insert?_of_find?_eq_none hfree
        have hcreate : db.createAsset (w.apply (emptyAsset p t)) = .ok { db with assets } := by
          unfold Db.createAsset
          rw [hinsert]
        rw [hcreate]
        show assets.find? (q, u) = _
        rw [Table.find?, hrows, List.find?_append]
        by_cases hqu : q = p ∧ u = t
        · have hold : db.assets.rows.find? (fun a => a.key = (q, u)) = none := by
            rw [hqu.1, hqu.2]
            exact hfound
          rw [if_pos ⟨hqu, hfits⟩, hold, hqu.1, hqu.2, hfound]
          simp [hkey]
        · have hne : ¬ (p, t) = (q, u) := by
            intro heq
            exact hqu ⟨(congrArg Prod.fst heq).symm, (congrArg Prod.snd heq).symm⟩
          rw [if_neg (by simp [hqu])]
          simp [hkey, hne, Db.findAsset, Table.find?]
  · rw [if_pos (by simpa using hfits), if_neg (by simp [hfits])]

/-- Every row that is set gets its own write, whatever the order. -/
theorem findAsset_foldl_upsertAsset (p q u : ℕ) (write : ℕ → BalanceWrite) (ids : List ℕ)
    (db : Db) :
    (ids.foldl (fun db t => upsertAsset p t (write t) db) db).findAsset q u =
      if (q = p ∧ u ∈ ids) ∧ (write u).fits then
        some ((write u).apply ((db.findAsset q u).getD (emptyAsset p u)))
      else db.findAsset q u := by
  induction ids generalizing db with
  | nil => simp
  | cons t ids ih =>
      rw [List.foldl_cons, ih, findAsset_upsertAsset]
      by_cases hq : q = p
      · by_cases hfits : (write u).fits
        · by_cases hut : u = t
          · subst hut
            by_cases hmem : u ∈ ids
            · simp [hq, hfits, hmem]
            · simp [hq, hfits, hmem]
          · by_cases hmem : u ∈ ids
            · simp [hq, hfits, hmem, hut]
            · simp [hq, hfits, hmem, hut]
        · by_cases hut : u = t
          · subst hut
            simp [hfits]
          · simp [hfits, hut]
      · simp [hq]

theorem findAsset_zeroAbsent (p q u : ℕ) (ids : List ℕ) (cost : Option CostMap) (db : Db) :
    (zeroAbsent p ids cost db).findAsset q u =
      if q = p ∧ u ∉ ids then (db.findAsset q u).map (zeroed cost) else db.findAsset q u := by
  unfold zeroAbsent Db.findAsset
  rw [Table.find?_modify]
  cases hfound : db.assets.find? (q, u) with
  | none => simp
  | some a =>
      have hkey : (a.portfolioId, a.tokenId) = (q, u) := (Table.find?_eq_some_iff.mp hfound).2
      have hp : a.portfolioId = q := congrArg Prod.fst hkey
      have ht : a.tokenId = u := congrArg Prod.snd hkey
      rw [Option.map_some, hp, ht]
      split
      · rfl
      · rfl

/-- The whole pass, row by row. -/
theorem findAsset_setConnectedBalances (p q u : ℕ) (held : List HeldToken)
    (cost : Option CostMap) (db : Db) :
    (setConnectedBalancesFromSummary p held cost db).findAsset q u =
      if q ≠ p then db.findAsset q u
      else if u ∉ setIds held cost then (db.findAsset q u).map (zeroed cost)
      else if (balanceWrite held cost u).fits then
        some ((balanceWrite held cost u).apply ((db.findAsset q u).getD (emptyAsset p u)))
      else db.findAsset q u := by
  unfold setConnectedBalancesFromSummary
  dsimp only
  rw [findAsset_zeroAbsent, findAsset_foldl_upsertAsset p q u (balanceWrite held cost)]
  by_cases hq : q = p
  · by_cases hmem : u ∈ setIds held cost
    · simp [hq, hmem]
    · simp [hq, hmem]
  · simp [hq]

theorem exists_upsertAsset (p t : ℕ) (w : BalanceWrite) (db : Db) :
    ∃ assets, upsertAsset p t w db = { db with assets } := by
  unfold upsertAsset
  split
  · exact ⟨db.assets, rfl⟩
  · split
    · exact ⟨_, rfl⟩
    · split
      · next db' hcreate =>
          obtain ⟨assets, rfl, -⟩ := Ledger.createAsset_ok hcreate
          exact ⟨assets, rfl⟩
      · exact ⟨db.assets, rfl⟩

/-- The pass only touches the asset rows. -/
theorem exists_setConnectedBalances (p : ℕ) (held : List HeldToken) (cost : Option CostMap)
    (db : Db) : ∃ assets, setConnectedBalancesFromSummary p held cost db = { db with assets } := by
  have hfold : ∀ (ids : List ℕ) (db : Db), ∃ assets,
      ids.foldl (fun db t => upsertAsset p t (balanceWrite held cost t) db) db =
        { db with assets } := by
    intro ids
    induction ids with
    | nil => intro db; exact ⟨db.assets, rfl⟩
    | cons t ids ih =>
        intro db
        obtain ⟨assets, hfirst⟩ := exists_upsertAsset p t (balanceWrite held cost t) db
        obtain ⟨assets', hrest⟩ := ih { db with assets }
        exact ⟨assets', by rw [List.foldl_cons, hfirst, hrest]⟩
  obtain ⟨assets, hset⟩ := hfold (setIds held cost) db
  unfold setConnectedBalancesFromSummary zeroAbsent
  dsimp only
  rw [hset]
  exact ⟨_, rfl⟩

/-- The pass touches no portfolio row. -/
theorem portfolios_setConnectedBalances (p q : ℕ) (held : List HeldToken)
    (cost : Option CostMap) (db : Db) :
    (setConnectedBalancesFromSummary p held cost db).findPortfolioById q =
      db.findPortfolioById q := by
  obtain ⟨assets, hset⟩ := exists_setConnectedBalances p held cost db
  rw [hset]
  rfl

end Neonfi.Wallet

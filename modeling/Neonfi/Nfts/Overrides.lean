import Neonfi.Nfts.Order
import Neonfi.Nfts.Resync
import Neonfi.Wallet.LoadMore

/-!
# The user's word on a collectible

`spamOverride` is the choice of the user against the spam verdict of a row.  Upserts leave it
alone, but a sending of an imported page deletes the row, and what is received or
reported afterwards creates it anew, without the choice.
-/

namespace Neonfi.Nfts

open Lib
open Ledger (Portfolio Env)
open Wallet (Text storable LoadResult loadTarget)
open Webhooks (NftKey)

/-- `effectiveNftSpam`. -/
def NftRecord.effectiveNftSpam (r : NftRecord) : Bool := r.spamOverride.getD r.spam

/-! ## Resync and load more -/

/-- A page of the history as `fetchTransferPage` answers it. -/
structure HistoryPage where
  transfers : List HistoryTransfer
  nextCursor : Option String

/-- The holdings and the `syncCursor` column. -/
structure Synced where
  holdings : Holdings
  syncCursor : ℕ → Option String

/-- A resync, or a load of the next page, with what the providers answer. -/
inductive Pull
  | resync (portfolioId : ℕ) (address chain : Option String) (answers : Provided)
  | loadMore (portfolioId : ℕ) (env : Env)
      (fetchTransferPage : String → String → String → Option HistoryPage)

/-- What a pull writes to the collectibles of a portfolio. -/
structure Imported where
  portfolio : Portfolio
  chainSlug : String
  transfers : List HistoryTransfer
  holdings : List WalletNftHolding := []
  spamContracts : List String := []

section Pulls

variable (text : Text) (insertsFirst : Bool) (classifyNftSpam : SpamSignals → Bool)
  (chainSlug : String) (slugOf : ℕ → Option String)

def importMoreTransfers (portfolioId : ℕ) (env : Env)
    (fetchTransferPage : String → String → String → Option HistoryPage) (s : Synced) :
    LoadResult × Synced :=
  match loadTarget slugOf portfolioId ⟨s.holdings.db, s.syncCursor⟩ with
  | none => ({}, s)
  | some (portfolio, address, slug, cursor) =>
      match fetchTransferPage address slug cursor with
      | none => ({}, { s with syncCursor := Function.update s.syncCursor portfolioId none })
      | some page =>
          let (imported, holdings) :=
            importTransfers text insertsFirst env portfolio slug page.transfers s.holdings
          (⟨imported, page.nextCursor⟩,
            { holdings, syncCursor := Function.update s.syncCursor portfolioId page.nextCursor })

def Pull.run (s : Synced) : Pull → Synced
  | .resync portfolioId address chain answers =>
      { s with
        holdings := (resyncConnectedHoldings text insertsFirst classifyNftSpam chainSlug portfolioId
          address chain answers s.holdings).2 }
  | .loadMore portfolioId env fetchTransferPage =>
      (importMoreTransfers text insertsFirst slugOf portfolioId env fetchTransferPage s).2

/-- What the pull imports; nothing if it ends before. -/
def Pull.imports (s : Synced) : Pull → Option Imported
  | .resync portfolioId address chain answers =>
      match s.holdings.db.findPortfolioById portfolioId, address.filter (· ≠ ""), chain with
      | some portfolio, some _, some _ =>
          if completes text answers s.holdings.db then
            some ⟨portfolio, chainSlug, answers.transfers, answers.holdings, answers.spamContracts⟩
          else none
      | _, _, _ => none
  | .loadMore portfolioId _ fetchTransferPage =>
      (loadTarget slugOf portfolioId ⟨s.holdings.db, s.syncCursor⟩).bind
        fun (portfolio, address, slug, cursor) =>
          (fetchTransferPage address slug cursor).map fun page =>
            { portfolio, chainSlug := slug, transfers := page.transfers }

end Pulls

/-! ## Rows that are deleted and created again -/

/-- The choices of the user are the same for all collectibles held before and after. -/
def OverridesSurvive (nfts nfts' : NftRecords) : Prop :=
  ∀ k r r', nfts.find? k = some r → nfts'.find? k = some r' → r.spamOverride ≠ none →
    r'.spamOverride = r.spamOverride

/-- A choice that survives decides what is shown, whatever the new verdict is. -/
theorem OverridesSurvive.effectiveNftSpam_eq {nfts nfts' : NftRecords}
    (h : OverridesSurvive nfts nfts') {k : NftKey} {r r' : NftRecord} (hr : nfts.find? k = some r)
    (hr' : nfts'.find? k = some r') (hset : r.spamOverride ≠ none) :
    r'.effectiveNftSpam = r.effectiveNftSpam := by
  obtain ⟨choice, hchoice⟩ := Option.ne_none_iff_exists'.mp hset
  unfold NftRecord.effectiveNftSpam
  rw [h k r r' hr hr' hset, hchoice]
  rfl

/-- The upsert of the row creates the row of this key, if it is missing. -/
def NftRecord.createdAs (row : NftRecord) (k : NftKey) : Bool :=
  decide (row.key = k ∧ storable row.contractAddress ∧ storable row.tokenId) && row.createFits

/-- The transfer deletes the row of this key. -/
def HistoryTransfer.deletes (text : Text) (p : ℕ) (k : NftKey) (tr : HistoryTransfer) : Bool :=
  !tr.incoming && decide (tr.nftKey text p = k ∧ storable k.2.1 ∧ storable k.2.2)

/-- After the last sending of the collectible in the page, by time, it is received again, or it is
among the reported holdings. -/
def Imported.Recreates (text : Text) (i : Imported) (k : NftKey) : Prop :=
  ∃ rest,
    sinceLast (HistoryTransfer.deletes text i.portfolio.id k)
        ((ordered i.transfers).filter fun tr => tr.namesNft text) = some rest ∧
      ((∃ tr ∈ rest, tr.incoming ∧ (tr.nftRow text i.portfolio.id i.chainSlug).createdAs k) ∨
        ∃ h ∈ i.holdings, (h.nftRow i.portfolio.id i.chainSlug false).createdAs k)

section Rows

variable {text : Text} {insertsFirst : Bool} {classifyNftSpam : SpamSignals → Bool}
  {chainSlug : String} {slugOf : ℕ → Option String} {spamContracts : List String}
  {row : NftRecord} {texts : NftTexts} {update : NftRecord → NftRecord} {k : NftKey} {p : ℕ}

theorem keeps_pass :
    (RowOp.put (none : Option NftRecord) id).Keeps NftRecord.spamOverride none := by
  refine ⟨fun _ => rfl, fun r hr => ?_⟩
  cases hr

theorem keeps_putOp (hrow : row.spamOverride = none)
    (hupdate : ∀ r, (update r).spamOverride = r.spamOverride) :
    (putOp insertsFirst row texts update k).Keeps NftRecord.spamOverride none := by
  unfold putOp
  split
  · constructor
    · intro r
      split
      · exact hupdate _
      · rfl
    · intro r hr
      split at hr
      · cases hr
        exact hrow
      · cases hr
  · exact keeps_pass

theorem creates_putOp :
    (putOp insertsFirst row texts update k).creates = row.createdAs k := by
  unfold putOp NftRecord.createdAs
  by_cases hkey : row.key = k ∧ storable row.contractAddress ∧ storable row.tokenId
  · rw [if_pos hkey, decide_eq_true hkey]
    cases row.createFits <;> rfl
  · rw [if_neg hkey, decide_eq_false hkey]
    rfl

theorem isDrop_putOp : (putOp insertsFirst row texts update k).isDrop = false := by
  unfold putOp
  split <;> rfl

theorem keeps_transferOp (tr : HistoryTransfer) :
    (transferOp text insertsFirst p chainSlug k tr).Keeps NftRecord.spamOverride none := by
  unfold transferOp
  split
  · exact keeps_putOp rfl fun _ => rfl
  · unfold dropOp
    split
    · trivial
    · exact keeps_pass

theorem isDrop_transferOp (tr : HistoryTransfer) :
    (transferOp text insertsFirst p chainSlug k tr).isDrop = tr.deletes text p k := by
  unfold transferOp HistoryTransfer.deletes
  cases tr.incoming with
  | true => exact isDrop_putOp
  | false =>
      rw [if_neg Bool.false_ne_true, Bool.not_false, Bool.true_and]
      unfold dropOp
      have hiff : (tr.nftKey text p = k ∧ storable (tr.nftKey text p).2.1 ∧
          storable (tr.nftKey text p).2.2) ↔
          (tr.nftKey text p = k ∧ storable k.2.1 ∧ storable k.2.2) := by
        constructor
        · rintro ⟨rfl, h⟩
          exact ⟨rfl, h⟩
        · rintro ⟨rfl, h⟩
          exact ⟨rfl, h⟩
      by_cases hkey : tr.nftKey text p = k ∧ storable k.2.1 ∧ storable k.2.2
      · rw [if_pos (hiff.mpr hkey), decide_eq_true hkey]
        rfl
      · rw [if_neg (hiff.not.mpr hkey), decide_eq_false hkey]
        rfl

theorem creates_transferOp (tr : HistoryTransfer) :
    (transferOp text insertsFirst p chainSlug k tr).creates =
      (tr.incoming && (tr.nftRow text p chainSlug).createdAs k) := by
  unfold transferOp
  cases tr.incoming with
  | true => exact creates_putOp
  | false =>
      rw [if_neg Bool.false_ne_true, Bool.false_and]
      unfold dropOp
      split <;> rfl

theorem creates_holdingOp (holdings : List WalletNftHolding) (h : WalletNftHolding) :
    (holdingOp text insertsFirst p chainSlug classifyNftSpam spamContracts holdings k h).creates =
      (h.nftRow p chainSlug false).createdAs k := by
  unfold holdingOp
  exact creates_putOp

/-- The row of one collectible keeps the choice exactly when it is not created again. -/
theorem survives_iff {transfers : List HistoryTransfer} {holdings : List WalletNftHolding}
    {portfolio : Portfolio} {r : NftRecord} (hset : r.spamOverride ≠ none) :
    (∀ r', (rewriteOps text insertsFirst portfolio.id chainSlug classifyNftSpam spamContracts
        transfers holdings k).foldl (fun r op => op.run r) (some r) = some r' →
        r'.spamOverride = r.spamOverride) ↔
      ¬ Imported.Recreates text ⟨portfolio, chainSlug, transfers, holdings, spamContracts⟩ k := by
  have hkeeps : ∀ op ∈ rewriteOps text insertsFirst portfolio.id chainSlug classifyNftSpam
      spamContracts transfers holdings k, op.Keeps NftRecord.spamOverride none := by
    intro op hop
    obtain hop | hop := List.mem_append.mp hop
    · obtain ⟨tr, -, rfl⟩ := List.mem_map.mp hop
      exact keeps_transferOp tr
    · obtain ⟨h, -, rfl⟩ := List.mem_map.mp hop
      unfold holdingOp
      exact keeps_putOp rfl fun _ => rfl
  have hholdings : ∀ op ∈ holdings.map (holdingOp text insertsFirst portfolio.id chainSlug
      classifyNftSpam spamContracts holdings k), op.isDrop = false := by
    intro op hop
    obtain ⟨h, -, rfl⟩ := List.mem_map.mp hop
    unfold holdingOp
    exact isDrop_putOp
  rw [RowOp.kept_iff hkeeps hset]
  unfold rewriteOps Imported.Recreates
  rw [sinceLast_append_of_none hholdings, sinceLast_map]
  simp only [isDrop_transferOp]
  cases sinceLast (HistoryTransfer.deletes text portfolio.id k)
      ((ordered transfers).filter fun tr => tr.namesNft text) with
  | none => simp
  | some rest =>
      simp only [Option.map_some, Option.some.injEq, forall_eq', exists_eq_left',
        List.forall_mem_append, List.forall_mem_map, creates_transferOp, creates_holdingOp,
        not_or, not_exists, not_and, Bool.and_eq_false_imp, Bool.not_eq_true]

/-- What a pull imports is all it does to the collectibles. -/
theorem nfts_run (pull : Pull) (s : Synced) :
    (pull.run text insertsFirst classifyNftSpam chainSlug slugOf s).holdings.nfts =
      match pull.imports text chainSlug slugOf s with
      | none => s.holdings.nfts
      | some i =>
          importNftHoldings text insertsFirst i.portfolio i.chainSlug classifyNftSpam
            i.spamContracts i.holdings
            (storedTransfers text insertsFirst i.portfolio i.chainSlug i.transfers
              s.holdings.nfts).2 := by
  cases pull with
  | resync portfolioId address chain answers =>
      unfold Pull.run Pull.imports resyncConnectedHoldings
      dsimp only
      cases s.holdings.db.findPortfolioById portfolioId with
      | none => rfl
      | some portfolio =>
          cases address.filter (· ≠ "") with
          | none => rfl
          | some address =>
              cases chain with
              | none => rfl
              | some chain =>
                  dsimp only
                  cases hcompletes : completes text answers s.holdings.db with
                  | false =>
                      rw [resyncHoldings_of_not_completes hcompletes]
                      rfl
                  | true =>
                      rw [resyncHoldings_of_completes hcompletes]
                      dsimp only
                      rw [nfts_pageTaken]
                      rfl
  | loadMore portfolioId env fetchTransferPage =>
      unfold Pull.run Pull.imports importMoreTransfers
      dsimp only
      cases loadTarget slugOf portfolioId ⟨s.holdings.db, s.syncCursor⟩ with
      | none => rfl
      | some target =>
          obtain ⟨portfolio, address, slug, cursor⟩ := target
          dsimp only [Option.bind_some]
          cases fetchTransferPage address slug cursor with
          | none => rfl
          | some page => exact importTransfers_nfts page.transfers s.holdings

/-- The choices of the user survive a pull exactly when no collectible with a choice is sent and,
after its last sending, received or reported again. -/
theorem overridesSurvive_iff (pull : Pull) (s : Synced) :
    OverridesSurvive s.holdings.nfts
        (pull.run text insertsFirst classifyNftSpam chainSlug slugOf s).holdings.nfts ↔
      ∀ i ∈ pull.imports text chainSlug slugOf s, ∀ k r, s.holdings.nfts.find? k = some r →
        r.spamOverride ≠ none → ¬ i.Recreates text k := by
  rw [nfts_run]
  cases pull.imports text chainSlug slugOf s with
  | none =>
      refine ⟨fun _ => nofun, fun _ k r r' hr hr' _ => ?_⟩
      rw [hr] at hr'
      cases hr'
      rfl
  | some i =>
      obtain ⟨portfolio, slug, transfers, holdings, spams⟩ := i
      have hrow : ∀ k r, s.holdings.nfts.find? k = some r → r.spamOverride ≠ none →
          ((∀ r', (importNftHoldings text insertsFirst portfolio slug classifyNftSpam spams holdings
              (storedTransfers text insertsFirst portfolio slug transfers
                s.holdings.nfts).2).find? k = some r' → r'.spamOverride = r.spamOverride) ↔
            ¬ Imported.Recreates text ⟨portfolio, slug, transfers, holdings, spams⟩ k) := by
        intro k r hr hset
        rw [find?_rewritten, hr]
        exact survives_iff hset
      constructor
      · rintro hsurvive _ ⟨⟩ k r hr hset
        exact (hrow k r hr hset).mp fun r' hr' => hsurvive k r r' hr hr' hset
      · intro hall k r r' hr hr' hset
        exact (hrow k r hr hset).mpr (hall _ rfl k r hr hset) r' hr'

end Rows

/-! ## An item that comes back -/

/-- Whatever is imported, the choices of the user survive. -/
def OverridesAlwaysSurvive : Prop :=
  ∀ (text : Text) (insertsFirst : Bool) (classifyNftSpam : SpamSignals → Bool) (chainSlug : String)
    (slugOf : ℕ → Option String) (pull : Pull) (s : Synced),
    OverridesSurvive s.holdings.nfts
      (pull.run text insertsFirst classifyNftSpam chainSlug slugOf s).holdings.nfts

/-- The user has put the item away. -/
def hiddenItem : NftRecord :=
  { (itemTransfer true 1).nftRow Webhooks.swapRuntime.toText 1 "ethereum" with
    spamOverride := some true }

def hiddenStore : Synced where
  holdings := ⟨Wallet.walletDb, ⟨[hiddenItem], List.nodup_singleton _⟩⟩
  syncCursor := fun _ => none

/-- The item is sent away and comes back within a page. -/
def roundTrip : Pull :=
  .resync 1 (some "0xcc") (some "ethereum")
    { summary := .empty
      transfers := [itemTransfer false 2, itemTransfer true 3]
      pnl := none
      holdings := []
      spamContracts := []
      env := Ledger.sampleEnv }

theorem not_overridesAlwaysSurvive : ¬ OverridesAlwaysSurvive := by
  intro hsurvive
  have hlost := hsurvive Webhooks.swapRuntime.toText false (fun _ => false) "ethereum"
    (fun _ => none) roundTrip hiddenStore
  have hrows : (roundTrip.run Webhooks.swapRuntime.toText false (fun _ => false) "ethereum"
      (fun _ => none) hiddenStore).holdings.nfts.rows.map (fun r => (r.key, r.spamOverride)) =
      [(itemKey, none)] := by
    decide +kernel
  obtain ⟨r', hr', hrow⟩ := List.map_eq_singleton_iff.mp hrows
  obtain ⟨hkey, hoverride⟩ := Prod.mk.inj hrow
  have hbefore : hiddenStore.holdings.nfts.find? itemKey = some hiddenItem :=
    Table.find?_eq_some_iff.mpr ⟨List.mem_singleton_self _, by decide +kernel⟩
  have hafter : (roundTrip.run Webhooks.swapRuntime.toText false (fun _ => false) "ethereum"
      (fun _ => none) hiddenStore).holdings.nfts.find? itemKey = some r' :=
    Table.find?_eq_some_iff.mpr
      ⟨by rw [hr']; exact List.mem_singleton_self _, hkey⟩
  have hsame : r'.spamOverride = hiddenItem.spamOverride :=
    hlost itemKey hiddenItem r' hbefore hafter (Option.some_ne_none true)
  rw [hoverride] at hsame
  cases hsame

end Neonfi.Nfts

import Neonfi.Ledger.Lots
import Neonfi.Ledger.Transfers

/-!
# Costs stay on known units

In a history whose steps bring in sound lots only, every lot a portfolio holds is sound.
So the stored cost of each asset is never negative and is the average cost of its known
units.
-/

namespace Neonfi.Ledger

open Lib

/-! ## Lots of a portfolio -/

def Asset.OpensSound (a : Asset) : Prop :=
  0 ≤ a.openingBalance ∧ ∀ lot ∈ a.openingLots, lot.Sound

/-- Every lot of portfolio `p` is sound. -/
structure LotsSound (p : ℕ) (db : Db) : Prop where
  buys : ∀ t ∈ db.transactions.rows, t.portfolioId = p → ∀ lot ∈ t.lots, lot.Sound
  openings : ∀ a ∈ db.assets.rows, a.portfolioId = p → a.OpensSound

theorem opensSound_congr {a b : Asset} (h : a.lot = b.lot) : a.OpensSound ↔ b.OpensSound := by
  obtain ⟨hbalance, hbasis⟩ := Prod.ext_iff.mp h
  unfold Asset.OpensSound Asset.openingLots
  rw [show a.openingBalance = b.openingBalance from hbalance,
    show a.openingCostBasis = b.openingCostBasis from hbasis]

theorem opensSound_emptyAsset (p tokenId : ℕ) : (emptyAsset p tokenId).OpensSound :=
  ⟨le_rfl, fun _ hlot => absurd hlot List.not_mem_nil⟩

namespace LotsSound

variable {N : Numeric} {p : ℕ} {db db' : Db} {env : Env} {portfolio : Portfolio}

/-! ## Statements -/

theorem of_tables (h : LotsSound p db) (hrows : db'.transactions.rows = db.transactions.rows)
    (hassets : db'.assets.rows = db.assets.rows) : LotsSound p db' where
  buys := by
    rw [hrows]
    exact h.buys
  openings := by
    rw [hassets]
    exact h.openings

theorem insertRow {data : TransactionData} (h : LotsSound p db)
    (hrow : db.createTransactionRow data = .ok db')
    (hlots : data.portfolioId = p → ∀ lot ∈ data.lots, lot.Sound) : LotsSound p db' := by
  obtain ⟨transactions, rfl, hrows⟩ := createTransactionRow_ok hrow
  refine ⟨fun t ht hp => ?_, h.openings⟩
  change t ∈ transactions.rows at ht
  rw [hrows] at ht
  rcases List.mem_append.mp ht with ht | ht
  · exact h.buys t ht hp
  · rw [List.mem_singleton.mp ht] at hp ⊢
    exact hlots hp

theorem deleteRow {txId : ℕ} (h : LotsSound p db) : LotsSound p (db.deleteTransactionRow txId) :=
  ⟨fun t ht => h.buys t (List.mem_of_mem_filter ht), h.openings⟩

theorem deleteRows {legs : List Transaction} (h : LotsSound p db) :
    LotsSound p (legs.foldl (fun db leg => db.deleteTransactionRow leg.id) db) := by
  induction legs generalizing db with
  | nil => exact h
  | cons leg legs ih => exact ih h.deleteRow

theorem patchRow {txId : ℕ} {f : Transaction → Transaction} {hid : ∀ t, (f t).id = t.id}
    {hkey : ∀ t, (f t).hashKey = t.hashKey} (h : LotsSound p db)
    (hlots : ∀ t ∈ db.transactions.rows, t.id = txId → (f t).portfolioId = p →
      ∀ lot ∈ (f t).lots, lot.Sound) :
    LotsSound p (db.updateTransactionRow txId f hid hkey) := by
  refine ⟨fun t ht hp => ?_, h.openings⟩
  obtain ⟨s, hs, rfl⟩ := List.mem_map.mp ht
  by_cases hs' : s.id = txId
  · simp only [hs', if_true] at hp ⊢
    exact hlots s hs hs' hp
  · simp only [hs', if_false] at hp ⊢
    exact h.buys s hs hp

theorem createAsset {a : Asset} (h : LotsSound p db) (hcreate : db.createAsset a = .ok db')
    (hopens : a.portfolioId = p → a.OpensSound) : LotsSound p db' := by
  obtain ⟨assets, rfl, hrows, -⟩ := createAsset_ok hcreate
  refine ⟨h.buys, fun b hb hp => ?_⟩
  change b ∈ assets.rows at hb
  rw [hrows] at hb
  rcases List.mem_append.mp hb with hb | hb
  · exact h.openings b hb hp
  · rw [List.mem_singleton.mp hb] at hp ⊢
    exact hopens hp

theorem createIfNeeded {needed : Bool} {portfolioId tokenId : ℕ} (h : LotsSound p db)
    (hcreate : Ledger.createIfNeeded needed portfolioId tokenId db = .ok db') :
    LotsSound p db' := by
  rcases createIfNeeded_ok hcreate with rfl | hcreate
  · exact h
  · exact h.createAsset hcreate fun _ => opensSound_emptyAsset _ _

theorem updateAssetRow {portfolioId tokenId : ℕ} {f : Asset → Asset}
    {hf : ∀ a, (f a).key = a.key} (h : LotsSound p db)
    (hopens : ∀ a ∈ db.assets.rows, a.key = (portfolioId, tokenId) → a.portfolioId = p →
      (f a).OpensSound) : LotsSound p (db.updateAssetRow portfolioId tokenId f hf) := by
  refine ⟨h.buys, fun b hb hp => ?_⟩
  obtain ⟨a, ha, rfl⟩ := List.mem_map.mp hb
  by_cases hkey : a.key = (portfolioId, tokenId)
  · simp only [hkey, if_true] at hp ⊢
    exact hopens a ha hkey ((congrArg Prod.fst (hf a)).symm.trans hp)
  · simp only [hkey, if_false] at hp ⊢
    exact h.openings a ha hp

/-- Writes to other columns than the opening lot. -/
theorem updateColumns {portfolioId tokenId : ℕ} {f : Asset → Asset}
    {hf : ∀ a, (f a).key = a.key} (h : LotsSound p db) (hlot : ∀ a, (f a).lot = a.lot) :
    LotsSound p (db.updateAssetRow portfolioId tokenId f hf) :=
  h.updateAssetRow fun a ha _ hp => (opensSound_congr (hlot a)).mpr (h.openings a ha hp)

theorem deleteAsset {key : ℕ × ℕ} (h : LotsSound p db) : LotsSound p (db.deleteAsset key) :=
  ⟨h.buys, fun a ha => h.openings a (List.mem_of_mem_filter ha)⟩

theorem recalcAsset {portfolioId tokenId : ℕ} (h : LotsSound p db) :
    LotsSound p (recalcAssetBalance N portfolioId tokenId db) := by
  unfold recalcAssetBalance
  split
  · exact h
  · split
    · exact h
    · exact h.updateColumns fun _ => rfl

theorem recalcTotal {portfolioId : ℕ} (h : LotsSound p db) :
    LotsSound p (recalcPortfolioNetDeposit N portfolioId db) := h.of_tables rfl rfl

theorem recalcList {targets : List (ℕ × ℕ)} (h : LotsSound p db) :
    LotsSound p
      (targets.foldl (fun db target => recalcAssetBalance N target.1 target.2 db) db) := by
  induction targets generalizing db with
  | nil => exact h
  | cons target targets ih => exact ih h.recalcAsset

theorem totalsList {portfolioIds : List ℕ} (h : LotsSound p db) :
    LotsSound p
      (portfolioIds.foldl (fun db portfolioId => recalcPortfolioNetDeposit N portfolioId db)
        db) := by
  induction portfolioIds generalizing db with
  | nil => exact h
  | cons portfolioId portfolioIds ih => exact ih h.recalcTotal

theorem recalcPatched {portfolioId : ℕ} {old new : Option ℕ} (h : LotsSound p db) :
    LotsSound p (Ledger.recalcPatched N portfolioId old new db) := by
  apply LotsSound.recalcTotal
  cases old with
  | none =>
      cases new with
      | none => exact h
      | some n => exact h.recalcAsset
  | some o =>
      cases new with
      | none => exact h.recalcAsset
      | some n =>
          dsimp only
          split
          · exact h.recalcAsset
          · exact h.recalcAsset.recalcAsset

theorem commit (h : LotsSound p db) (hcommit : db.commit N = .ok db') : LotsSound p db' := by
  rw [(commit_ok hcommit).1]
  exact h

/-! ## Operations -/

theorem createTransaction {body : CreateTransactionBody} (h : LotsSound p db)
    (hlots : portfolio.id = p → ∀ lot ∈ (body.bookedRow N db env portfolio.id).lots, lot.Sound)
    (hrun : Ledger.createTransaction N env portfolio body db = .ok db') : LotsSound p db' := by
  have htrade : ∀ trade, body.payload.trade? = some trade →
      Ledger.createTrade N env portfolio body trade db = .ok db' → LotsSound p db' := by
    intro trade hpayload hrun
    unfold Ledger.createTrade at hrun
    obtain ⟨token, -, hrun⟩ := bind_eq_ok hrun
    obtain ⟨auto, -, hrun⟩ := bind_eq_ok hrun
    obtain ⟨-, -, hrun⟩ := bind_eq_ok hrun
    obtain ⟨opening, hcreate, hrun⟩ := bind_eq_ok hrun
    obtain ⟨inserted, hinsert, hrun⟩ := bind_eq_ok hrun
    unfold CreateTransactionBody.bookedRow at hlots
    rw [hpayload] at hlots
    have hinserted := (h.createIfNeeded hcreate).insertRow (insertTransaction_ok hinsert) hlots
    exact hinserted.recalcAsset.recalcTotal.commit hrun
  unfold Ledger.createTransaction at hrun
  obtain ⟨-, -, hrun⟩ := bind_eq_ok hrun
  cases hpayload : body.payload with
  | native trade =>
      rw [hpayload] at hrun
      exact htrade trade (by rw [hpayload]; rfl) hrun
  | erc20 trade info =>
      rw [hpayload] at hrun
      exact htrade trade (by rw [hpayload]; rfl) hrun
  | nft nft =>
      rw [hpayload] at hrun
      obtain ⟨inserted, hinsert, hrun⟩ := bind_eq_ok hrun
      unfold CreateTransactionBody.bookedRow at hlots
      rw [hpayload] at hlots
      exact (h.insertRow (insertTransaction_ok hinsert) hlots).commit hrun

theorem updateTransaction {txId : ℕ} {body : UpdateTransactionBody} (h : LotsSound p db)
    (hlots : portfolio.id = p → ∀ t ∈ db.transactions.rows, t.id = txId →
      ∀ lot ∈ (body.apply N env db t).lots, lot.Sound)
    (hrun : Ledger.updateTransaction N env portfolio txId body db = .ok db') :
    LotsSound p db' := by
  unfold Ledger.updateTransaction at hrun
  obtain ⟨-, -, hrun⟩ := bind_eq_ok hrun
  obtain ⟨existing, hown, hrun⟩ := bind_eq_ok hrun
  obtain ⟨-, -, hrun⟩ := bind_eq_ok hrun
  obtain ⟨⟨old, new⟩, -, hrun⟩ := bind_eq_ok hrun
  obtain ⟨hmem, hid, hportfolio⟩ := SoundExcept.findOwnTransaction_ok hown
  have hpatched := @LotsSound.patchRow p db txId (body.apply N env db) (fun _ => rfl)
    (fun _ => rfl) h fun t ht htx hp => by
      have hsame : t = existing := SerialTable.eq_of_id_eq ht hmem (htx.trans hid.symm)
      exact hlots ((hsame ▸ hportfolio).symm.trans hp) t ht htx
  dsimp only at hrun
  split at hrun
  · exact hpatched.recalcPatched.commit hrun
  · exact hpatched.commit hrun

theorem deleteTransaction {txId : ℕ} (h : LotsSound p db)
    (hrun : Ledger.deleteTransaction N portfolio txId db = .ok db') : LotsSound p db' := by
  unfold Ledger.deleteTransaction at hrun
  obtain ⟨-, -, hrun⟩ := bind_eq_ok hrun
  obtain ⟨existing, -, hrun⟩ := bind_eq_ok hrun
  split at hrun
  · unfold Ledger.deleteTransfer Ledger.recalcTargets at hrun
    exact h.deleteRows.recalcList.totalsList.commit hrun
  · split at hrun
    · exact h.deleteRow.commit hrun
    · exact h.deleteRow.recalcAsset.recalcTotal.commit hrun

theorem createCrossPortfolioTransfer {body : TransferBody} (h : LotsSound p db)
    (hlots : body.destPortfolioId = p →
      ∀ lot ∈ body.incomingLots N db portfolio.id, lot.Sound)
    (hrun : Ledger.createCrossPortfolioTransfer N env portfolio body db = .ok db') :
    LotsSound p db' := by
  unfold Ledger.createCrossPortfolioTransfer at hrun
  obtain ⟨-, -, hrun⟩ := bind_eq_ok hrun
  obtain ⟨dest, hdest, hrun⟩ := bind_eq_ok hrun
  obtain ⟨token, htoken, hrun⟩ := bind_eq_ok hrun
  obtain ⟨sourceAsset, hlock, hrun⟩ := bind_eq_ok hrun
  obtain ⟨opening, hcreate, hrun⟩ := bind_eq_ok hrun
  obtain ⟨sold, hsell, hrun⟩ := bind_eq_ok hrun
  obtain ⟨bought, hbuy, hrun⟩ := bind_eq_ok hrun
  obtain ⟨hdestId, -⟩ := resolveDest_ok hdest
  obtain ⟨hfind, -⟩ := lockTransferSource_ok hlock
  have htoken := require_ok htoken
  -- The outgoing leg is a sell row: it brings nothing in.
  have hout := (h.createIfNeeded hcreate).insertRow hsell fun _ lot hlot =>
    absurd hlot List.not_mem_nil
  have hin := hout.insertRow hbuy fun hp lot hlot => by
    refine hlots (hdestId.symm.trans hp) lot ?_
    unfold TransferBody.incomingLots
    rw [htoken, Option.bind_some, hfind]
    exact hlot
  exact hin.recalcAsset.recalcTotal.recalcAsset.recalcTotal.commit hrun

/-! ### Openings -/

theorem opens_of_lots {a : Asset} {balance : ℚ} {opening : Option ℚ × Option Millis}
    (hbalance : 0 ≤ balance) (hlot : a.lot = (N.fix balance, opening.1))
    (hlots : ∀ lot ∈ openingLots N balance (some opening), lot.Sound) : a.OpensSound := by
  obtain ⟨hfix, hbasis⟩ := Prod.ext_iff.mp hlot
  have hfix : a.openingBalance = N.fix balance := hfix
  have hbasis : a.openingCostBasis = opening.1 := hbasis
  unfold Asset.OpensSound Asset.openingLots
  rw [hfix, hbasis]
  exact ⟨Numeric.fix_nonneg hbalance, hlots⟩

theorem addAsset {userId : ℕ} {body : CreateAssetBody} (h : LotsSound p db)
    (hlots : portfolio.id = p → ∀ lot ∈ openingLots N body.balance
      (resolveOpeningCost N env db body.tokenId body.balance body.cost), lot.Sound)
    (hrun : Ledger.addAsset N userId env portfolio body db = .ok db') : LotsSound p db' := by
  unfold Ledger.addAsset at hrun
  obtain ⟨-, -, hrun⟩ := bind_eq_ok hrun
  obtain ⟨_, hbalance, hrun⟩ := bind_eq_ok hrun
  obtain ⟨token, -, hrun⟩ := bind_eq_ok hrun
  obtain ⟨-, -, hrun⟩ := bind_eq_ok hrun
  obtain ⟨-, -, hrun⟩ := bind_eq_ok hrun
  obtain ⟨opening, hopening, hrun⟩ := bind_eq_ok hrun
  obtain ⟨opened, hcreate, hrun⟩ := bind_eq_ok hrun
  rw [require_ok hopening] at hlots
  have hcreated := h.createAsset hcreate fun hp =>
    opens_of_lots (ensure_ok hbalance).le rfl (hlots hp)
  exact hcreated.recalcAsset.recalcTotal.commit hrun

theorem removeAsset {assetId : ℕ × ℕ} (h : LotsSound p db)
    (hrun : Ledger.removeAsset N portfolio assetId db = .ok db') : LotsSound p db' := by
  unfold Ledger.removeAsset at hrun
  obtain ⟨-, -, hrun⟩ := bind_eq_ok hrun
  obtain ⟨existing, -, hrun⟩ := bind_eq_ok hrun
  exact h.deleteAsset.recalcTotal.commit hrun

theorem updateAsset {assetId : ℕ × ℕ} {body : UpdateAssetBody} (h : LotsSound p db)
    (hlots : portfolio.id = p → ∀ lot ∈
      (match body.isOpeningEdit, db.assets.find? assetId with
        | true, some existing =>
            openingLots N ((body.balance.map Subtype.val).getD existing.openingBalance)
              (editedOpening N env db existing
                ((body.balance.map Subtype.val).getD existing.openingBalance) body.cost)
        | _, _ => []), lot.Sound)
    (hrun : Ledger.updateAsset N env portfolio assetId body db = .ok db') : LotsSound p db' := by
  unfold Ledger.updateAsset at hrun
  obtain ⟨-, -, hrun⟩ := bind_eq_ok hrun
  obtain ⟨existing, hown, hrun⟩ := bind_eq_ok hrun
  obtain ⟨hmem, hkey, hpid⟩ := SoundExcept.findOwnAsset_ok hown
  have hfind : db.assets.find? assetId = some existing := Table.find?_eq_some_iff.mpr ⟨hmem, hkey⟩
  split at hrun
  · next hopening =>
      rw [hopening, hfind] at hlots
      unfold Ledger.editOpening at hrun
      obtain ⟨_, hbalance, hrun⟩ := bind_eq_ok hrun
      obtain ⟨opening, hedited, hrun⟩ := bind_eq_ok hrun
      have hedit : portfolio.id = p → ∀ lot ∈ openingLots N
          ((body.balance.map Subtype.val).getD existing.openingBalance)
          (editedOpening N env db existing
            ((body.balance.map Subtype.val).getD existing.openingBalance) body.cost),
          lot.Sound := hlots
      rw [require_ok hedited] at hedit
      have hset := @LotsSound.updateAssetRow p db existing.portfolioId existing.tokenId
        (setOpening N ((body.balance.map Subtype.val).getD existing.openingBalance) opening)
        (fun _ => rfl) h fun a _ hkeyA hp =>
          opens_of_lots (ensure_ok hbalance).le rfl
            (hedit (hpid.symm.trans ((congrArg Prod.fst hkeyA).symm.trans hp)))
      exact hset.recalcAsset.recalcTotal.commit hrun
  · split at hrun
    · next netDeposit _ =>
        have hset := @LotsSound.updateColumns p db existing.portfolioId existing.tokenId
          (fun a => { a with netDeposit := N.fix netDeposit }) (fun _ => rfl) h fun _ => rfl
        exact hset.commit hrun
    · cases hrun
      exact h

/-! ### Bulk imports -/

theorem writePrepared {rows : List PreparedTxRow} {portfolioId : ℕ} (h : LotsSound p db)
    (hlots : portfolioId = p → ∀ r ∈ rows, ∀ lot ∈ (r.body.row N portfolioId r.usdValue).lots,
      lot.Sound)
    (hrun : Ledger.writePrepared N portfolioId rows db = .ok db') : LotsSound p db' := by
  unfold Ledger.writePrepared at hrun
  obtain ⟨inserted, hinsert, hrun⟩ := bind_eq_ok hrun
  have hinserted : LotsSound p inserted := by
    refine foldlM_ok_invariant (fun r hr db₁ db₂ h₁ hfirst => ?_) h hinsert
    unfold Ledger.insertPrepared at hfirst
    obtain ⟨opened, hcreate, hfirst⟩ := bind_eq_ok hfirst
    exact (h₁.createIfNeeded hcreate).insertRow hfirst fun hp => hlots hp r hr
  have hsettled := @LotsSound.recalcList N p inserted
    ((rows.map PreparedTxRow.tokenId).dedup.map fun tokenId => (portfolioId, tokenId)) hinserted
  rw [List.foldl_map] at hsettled
  exact hsettled.recalcTotal.commit hrun

theorem writeOpenings {prepared : List PreparedAssetRow} {portfolioId : ℕ} (h : LotsSound p db)
    (hbalance : ∀ r ∈ prepared, 0 ≤ r.balance)
    (hlots : portfolioId = p → ∀ r ∈ prepared,
      ∀ lot ∈ openingLots N r.balance (some (r.openingCostBasis, r.openingAt)), lot.Sound)
    (hrun : Ledger.writeOpenings N portfolioId prepared db = .ok db') : LotsSound p db' := by
  unfold Ledger.writeOpenings at hrun
  obtain ⟨inserted, hinsert, hrun⟩ := bind_eq_ok hrun
  have hinserted : LotsSound p inserted := by
    refine foldlM_ok_invariant (fun r hr db₁ db₂ h₁ hfirst => ?_) h hinsert
    unfold insertOpening at hfirst
    obtain ⟨opened, hcreate, hfirst⟩ := bind_eq_ok hfirst
    cases hfirst
    exact (h₁.createAsset hcreate fun hp =>
      opens_of_lots (hbalance r hr) rfl (hlots hp r hr)).recalcAsset
  exact hinserted.recalcTotal.commit hrun

end LotsSound

section Imports

variable {N : Numeric} {js : Js} {env : Env} {userId : ℕ} {portfolio : Portfolio} {db : Db}

theorem bulkCreateTransactions_writes {body : BulkBody} {result : Db × BulkResult}
    (h : bulkCreateTransactions N js env portfolio body db = .ok result) :
    result.1 = db ∨
      writePrepared N portfolio.id (insertedRows N js db env portfolio body) db = .ok result.1 := by
  unfold bulkCreateTransactions at h
  obtain ⟨-, -, h⟩ := bind_eq_ok h
  obtain ⟨-, -, h⟩ := bind_eq_ok h
  obtain ⟨-, -, h⟩ := bind_eq_ok h
  dsimp only at h
  split at h
  · cases h
    exact .inl rfl
  · obtain ⟨db', hwrite, h⟩ := bind_eq_ok h
    cases h
    exact .inr hwrite

/-- A quantity cell parses to a non-negative number. -/
theorem nonneg_prepareAssetRow {row : ℕ} {raw : BulkRow} {b : AssetBatch}
    (h : ∀ r ∈ b.prepared, 0 ≤ r.balance) :
    ∀ r ∈ (prepareAssetRow N js env userId portfolio db row raw b).prepared, 0 ≤ r.balance := by
  unfold prepareAssetRow
  split
  · split
    · exact h
    · split
      · exact h
      · split
        · exact h
        · next body _ =>
            split
            · exact h
            · intro r hr
              rcases List.mem_append.mp hr with hr | hr
              · exact h r hr
              · rw [List.mem_singleton.mp hr]
                exact body.balance.property
  · exact h

theorem nonneg_prepareAssetRows {rows : List BulkRow} {row : ℕ} {b : AssetBatch}
    (h : ∀ r ∈ b.prepared, 0 ≤ r.balance) :
    ∀ r ∈ (prepareAssetRows N js env userId portfolio db rows row b).prepared, 0 ≤ r.balance := by
  induction rows generalizing row b with
  | nil => exact h
  | cons raw rows ih => exact ih (nonneg_prepareAssetRow h)

theorem bulkCreateAssets_writes {body : BulkBody} {result : Db × BulkResult}
    (h : bulkCreateAssets N js env userId portfolio body db = .ok result) :
    result.1 = db ∨
      writeOpenings N portfolio.id
        (prepareAssetRows N js env userId portfolio db body.rows 1 {}).prepared db =
          .ok result.1 := by
  unfold bulkCreateAssets at h
  obtain ⟨-, -, h⟩ := bind_eq_ok h
  obtain ⟨-, -, h⟩ := bind_eq_ok h
  obtain ⟨-, -, h⟩ := bind_eq_ok h
  dsimp only at h
  split at h
  · cases h
    exact .inl rfl
  · obtain ⟨db', hwrite, h⟩ := bind_eq_ok h
    cases h
    exact .inr hwrite

end Imports

/-! ## One request -/

/-- The request brings only sound lots into the portfolio. -/
def Request.KeepsLots (N : Numeric) (js : Js) (p : ℕ) (db : Db) (r : Request) : Prop :=
  ∀ lot ∈ r.lotsInto N js db p, lot.Sound

theorem LotsSound.request {N : Numeric} {js : Js} {p : ℕ} {db db' : Db} {r : Request}
    (h : LotsSound p db) (hkeep : r.KeepsLots N js p db) (hstep : Step N js db r db') :
    LotsSound p db' := by
  unfold Step handle at hstep
  obtain ⟨portfolio, hportfolio, hrun⟩ := bind_eq_ok hstep
  obtain ⟨hfind, hid, -⟩ := ownedPortfolio_ok hportfolio
  have hlots : portfolio.id = p →
      ∀ lot ∈ r.action.lots N js db r.userId r.env portfolio, lot.Sound := by
    intro hp lot hlot
    apply hkeep
    unfold Request.lotsInto
    rw [if_pos (hid.symm.trans hp), hfind]
    exact List.mem_append_left _ hlot
  cases haction : r.action with
  | createTransaction body =>
      rw [haction] at hrun hlots
      exact h.createTransaction hlots hrun
  | updateTransaction txId body =>
      rw [haction] at hrun hlots
      refine h.updateTransaction (fun hp t ht htx lot hlot => hlots hp lot ?_) hrun
      exact List.mem_flatMap.mpr ⟨t, List.mem_filter.mpr ⟨ht, by simpa using htx⟩, hlot⟩
  | deleteTransaction txId =>
      rw [haction] at hrun
      exact h.deleteTransaction hrun
  | transfer body =>
      rw [haction] at hrun
      refine h.createCrossPortfolioTransfer (fun hp lot hlot => hkeep lot ?_) hrun
      unfold Request.lotsInto
      rw [haction, ← hid]
      apply List.mem_append_right
      show lot ∈ if body.destPortfolioId = p then _ else []
      rw [if_pos hp]
      exact hlot
  | bulkTransactions body =>
      rw [haction] at hrun hlots
      obtain ⟨result, hbulk⟩ := map_fst_ok hrun
      rcases bulkCreateTransactions_writes hbulk with hsame | hwrite
      · rw [show db' = db from hsame]
        exact h
      · refine h.writePrepared (fun hp row hrow lot hlot => hlots hp lot ?_) hwrite
        exact List.mem_flatMap.mpr ⟨row, hrow, hlot⟩
  | addAsset body =>
      rw [haction] at hrun hlots
      exact h.addAsset hlots hrun
  | updateAsset assetId body =>
      rw [haction] at hrun hlots
      exact h.updateAsset hlots hrun
  | removeAsset assetId =>
      rw [haction] at hrun
      exact h.removeAsset hrun
  | bulkAssets body =>
      rw [haction] at hrun hlots
      obtain ⟨result, hbulk⟩ := map_fst_ok hrun
      rcases bulkCreateAssets_writes hbulk with hsame | hwrite
      · rw [show db' = db from hsame]
        exact h
      · refine h.writeOpenings ?_ (fun hp row hrow lot hlot => hlots hp lot ?_) hwrite
        · exact nonneg_prepareAssetRows fun r hr => by cases hr
        · exact List.mem_flatMap.mpr ⟨row, hrow, hlot⟩

/-! ## Histories -/

theorem computeUsdValue_congr {N : Numeric} {env : Env} {db db' : Db} {symbol : String}
    {amount : ℚ} {price : Option ℚ} (htokens : db'.tokens = db.tokens) :
    computeUsdValue N env db' symbol amount price = computeUsdValue N env db symbol amount price := by
  unfold computeUsdValue livePrice Db.findTokenBySymbol
  rw [htokens]

namespace LotsSound

variable {N : Numeric} {p : ℕ} {db db' : Db} {env : Env}

theorem seedAsset {plan : Plan} {portfolioId : ℕ} {seen : List ℕ} {seed : SeedAsset}
    (h : LotsSound p db)
    (hlots : portfolioId = p → ∀ lot ∈ seedLots N db env [seed], lot.Sound)
    (hrun : Ledger.seedAsset N env plan portfolioId seen seed db = .ok db') :
    LotsSound p db' ∧ db'.tokens = db.tokens := by
  unfold Ledger.seedAsset at hrun
  obtain ⟨-, -, hrun⟩ := bind_eq_ok hrun
  obtain ⟨token, htoken, hrun⟩ := bind_eq_ok hrun
  obtain ⟨-, -, hrun⟩ := bind_eq_ok hrun
  obtain ⟨opened, hcreate, hrun⟩ := bind_eq_ok hrun
  have hcreated := h.createAsset hcreate fun _ => opensSound_emptyAsset _ _
  have htokens : opened.tokens = db.tokens := by
    obtain ⟨_, rfl, -⟩ := createAsset_ok hcreate
    rfl
  unfold seedLots at hlots
  rw [List.flatMap_singleton, require_ok htoken] at hlots
  split at hrun
  · next amount hamount =>
      rw [hamount] at hlots
      split at hrun
      · unfold seedAcquisitionInTx at hrun
        obtain ⟨inserted, hinsert, hrun⟩ := bind_eq_ok hrun
        cases hrun
        have hinserted := hcreated.insertRow hinsert fun hp lot hlot => by
          apply hlots hp lot
          rw [computeUsdValue_congr htokens] at hlot
          exact hlot
        refine ⟨hinserted.recalcAsset.recalcTotal, ?_⟩
        obtain ⟨_, rfl, -⟩ := createTransactionRow_ok hinsert
        unfold recalcPortfolioNetDeposit recalcAssetBalance
        split
        · exact htokens
        · split <;> exact htokens
      · cases hrun
        exact ⟨hcreated, htokens⟩
  · cases hrun
    exact ⟨hcreated, htokens⟩

theorem seedAssets {plan : Plan} {portfolioId : ℕ} {seen : List ℕ} {seeds : List SeedAsset}
    (h : LotsSound p db)
    (hlots : portfolioId = p → ∀ lot ∈ seedLots N db env seeds, lot.Sound)
    (hrun : Ledger.seedAssets N env plan portfolioId seen seeds db = .ok db') :
    LotsSound p db' := by
  induction seeds generalizing seen db with
  | nil =>
      cases hrun
      exact h
  | cons seed seeds ih =>
      obtain ⟨seeded, hseed, hrun⟩ := bind_eq_ok hrun
      have hsplit : seedLots N db env (seed :: seeds) =
          seedLots N db env [seed] ++ seedLots N db env seeds := by
        unfold seedLots
        rw [List.flatMap_cons, List.flatMap_singleton]
      rw [hsplit] at hlots
      obtain ⟨hsound, htokens⟩ := h.seedAsset
        (fun hp lot hlot => hlots hp lot (List.mem_append_left _ hlot)) hseed
      refine ih hsound (fun hp lot hlot => hlots hp lot (List.mem_append_right _ ?_)) hrun
      unfold seedLots Db.findTokenById at hlot ⊢
      rw [htokens] at hlot
      simpa only [computeUsdValue_congr htokens] using hlot

theorem createManualPortfolio {userId p' : ℕ} {startingBalance : Option DecimalStr}
    {seeds : List SeedAsset} (h : LotsSound p db)
    (hlots : p' = p → ∀ lot ∈ seedLots N db env seeds, lot.Sound)
    (hrun : Ledger.createManualPortfolio N env userId startingBalance seeds db = .ok (p', db')) :
    LotsSound p db' := by
  unfold Ledger.createManualPortfolio at hrun
  obtain ⟨⟨p'', created⟩, hcreate, hrun⟩ := bind_eq_ok hrun
  obtain ⟨seeded, hseeds, hrun⟩ := bind_eq_ok hrun
  obtain ⟨committed, hcommit, hrun⟩ := bind_eq_ok hrun
  cases hrun
  obtain ⟨-, portfolios, rfl, -⟩ := createPortfolio_ok hcreate
  have hcreated : LotsSound p { db with portfolios } := h.of_tables rfl rfl
  exact (hcreated.seedAssets hlots hseeds).commit hcommit

end LotsSound

theorem createManualPortfolio_next {N : Numeric} {env : Env} {userId p : ℕ}
    {startingBalance : Option DecimalStr} {seeds : List SeedAsset} {db db' : Db}
    (h : createManualPortfolio N env userId startingBalance seeds db = .ok (p, db')) :
    p = db.portfolios.next := by
  unfold createManualPortfolio at h
  obtain ⟨⟨p', created⟩, hcreate, h⟩ := bind_eq_ok h
  obtain ⟨seeded, -, h⟩ := bind_eq_ok h
  obtain ⟨committed, -, h⟩ := bind_eq_ok h
  cases h
  exact (createPortfolio_ok hcreate).1

/-- A state in a history of the manual portfolio `p` in which no trade is moved past another
without recalculating, and in which only sound lots come into the portfolio. -/
inductive LotHistory (N : Numeric) (js : Js) (p : ℕ) : Db → Prop
  | created {env : Env} {userId : ℕ} {startingBalance : Option DecimalStr}
      {seeds : List SeedAsset} {db db' : Db} :
      ForeignKeys db → NamedTokens db →
      createManualPortfolio N env userId startingBalance seeds db = .ok (p, db') →
      (∀ lot ∈ seedLots N db env seeds, lot.Sound) → LotHistory N js p db'
  | request {r : Request} {db db' : Db} :
      LotHistory N js p db →
      Guarded (Step N js) (fun s r => r.KeepsTradeOrder s ∧ r.KeepsLots N js p s) db r db' →
      LotHistory N js p db'
  | createdOther {env : Env} {userId p' : ℕ} {startingBalance : Option DecimalStr}
      {seeds : List SeedAsset} {db db' : Db} :
      LotHistory N js p db →
      createManualPortfolio N env userId startingBalance seeds db = .ok (p', db') →
      LotHistory N js p db'

/-- The columns that hold an asset's cost. -/
def costView (d : Derived) : Option ℚ × ℚ := (d.avgCost, d.costBasis)

namespace LotHistory

variable {N : Numeric} {js : Js} {p : ℕ} {db : Db}

theorem since (h : LotHistory N js p db) : Since N js p db := by
  induction h with
  | created hforeign hnamed hcreate _ => exact .created hforeign hnamed hcreate
  | request _ hstep ih => exact ih.request ⟨hstep.1, hstep.2.1⟩
  | createdOther _ hcreate ih => exact ih.createdOther hcreate

theorem lots (h : LotHistory N js p db) : LotsSound p db := by
  induction h with
  | @created env userId startingBalance seeds db db' hforeign _ hcreate hlots =>
      have hnew := createManualPortfolio_next hcreate
      refine LotsSound.createManualPortfolio ⟨fun t ht hp => ?_, fun a ha hp => ?_⟩
        (fun _ => hlots) hcreate
      · exact absurd (hp.trans hnew) (lt_next_of_isSome (hforeign.transactions t ht)).ne
      · exact absurd (hp.trans hnew) (lt_next_of_isSome (hforeign.assets a ha)).ne
  | request _ hstep ih => exact ih.request hstep.2.2 hstep.1
  | @createdOther env userId p' startingBalance seeds db db' hbefore hcreate ih =>
      refine ih.createManualPortfolio (fun hp => ?_) hcreate
      -- The new portfolio gets a number that none has yet.
      have hknown : (db.findPortfolioById p).isSome := by
        have hmanual := (@Since.sound N js p db _ costView (fun _ _ => rfl)
          hbefore.since).1.manual
        cases hfind : db.findPortfolioById p with
        | none => simp [hfind] at hmanual
        | some portfolio => rfl
      have hnext := createManualPortfolio_next hcreate
      exact absurd (hp.symm.trans hnext) (lt_next_of_isSome hknown).ne

end LotHistory

/-- The replay of an asset carries its cost when the lots of the portfolio are sound. -/
theorem LotsSound.carried {p : ℕ} {db : Db} {a : Asset} {symbol : String}
    (h : LotsSound p db) (hamounts : AllRows (AmountsSatisfy (0 ≤ ·) p) db)
    (ha : a ∈ db.assets.rows)
    (hp : a.portfolioId = p) : (replay a (ledgerEvents db p symbol)).Carried := by
  obtain ⟨hbalance, hopening⟩ := h.openings a ha hp
  have hrow : ∀ e ∈ ledgerEvents db p symbol, 0 ≤ e.amount ∧
      (e.dir = .buy → (⟨e.amount, e.usd⟩ : Lot).Sound) := by
    intro e he
    obtain ⟨t, ht, d, hconcerns, -, hd, htrade⟩ := row_of_event (mem_ledgerEvents.mp he)
    have hdir : e.dir = t.direction := congrArg Trade.dir htrade
    have hamount : e.amount = d.amount := congrArg Trade.amount htrade
    have husd : e.usd = d.usdValue := congrArg Trade.usd htrade
    rw [hdir, hamount, husd]
    refine ⟨hamounts t ht hconcerns.1 d hd, fun hbuy => ?_⟩
    apply h.buys t ht hconcerns.1
    unfold TransactionData.lots
    rw [hbuy, hd]
    exact List.mem_singleton_self _
  exact (Totals.Carried.opening hbalance hopening).foldl (fun e he => (hrow e he).1)
    fun e he => (hrow e he).2

instance (N : Numeric) (js : Js) (p : ℕ) (db : Db) (r : Request) :
    Decidable (r.KeepsLots N js p db) :=
  inferInstanceAs (Decidable (∀ lot ∈ r.lotsInto N js db p, Lot.Sound lot))

/-- The same in portfolio 1, and then the other unit is transferred to portfolio 2. -/
def transferAfterSale : List Request :=
  [sampleRequest (.createTransaction (trade .buy ⟨2, amount_2⟩ ⟨100, bounded_100⟩ 10)),
    sampleRequest (.createTransaction (trade .sell ⟨1, amount_1⟩ ⟨300, bounded_300⟩ 20)),
    sampleRequest (.transfer { destPortfolioId := 2, symbol := eth, amount := ⟨1, amount_1⟩ })]

end Neonfi.Ledger

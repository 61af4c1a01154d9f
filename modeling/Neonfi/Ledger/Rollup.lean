import Neonfi.Ledger.CoherentRuns
import Neonfi.Ledger.Portfolios

/-!
# The portfolio total is the sum over its assets

`Portfolio.netDeposit` is a denormalised sum.  A write transaction that changes an asset
restores the total before it commits, with one exception: a PATCH of an asset that only
sets `netDeposit`.
-/

namespace Neonfi.Ledger

open Lib

/-- Portfolio `p` exists, its assets hold values of the column's grid, and outside `stale`
its total is their sum. -/
structure TotalsExcept (N : Numeric) (p : ℕ) (stale : Set ℕ) (db : Db) : Prop where
  onGrid : ∀ a ∈ db.assets.rows, a.portfolioId = p → N.OnGrid a.netDeposit
  known : (db.findPortfolioById p).isSome
  total : p ∉ stale →
    (db.findPortfolioById p).map Portfolio.netDeposit = some (netDepositSum db p)

/-! ## Assets of one portfolio -/

theorem netDepositSum_congr {db db' : Db} {p : ℕ} (h : assetsOf db' p = assetsOf db p) :
    netDepositSum db' p = netDepositSum db p := by
  unfold netDepositSum
  rw [h]

theorem filter_map_eq_filter {α : Type} {f : α → α} {keep : α → Bool} {xs : List α}
    (hkeep : ∀ x ∈ xs, keep (f x) = keep x) (hsame : ∀ x ∈ xs, keep x = true → f x = x) :
    (xs.map f).filter keep = xs.filter keep := by
  induction xs with
  | nil => rfl
  | cons x xs ih =>
      have htail := ih (fun y hy => hkeep y (List.mem_cons_of_mem _ hy))
        fun y hy => hsame y (List.mem_cons_of_mem _ hy)
      have hhead := hkeep x List.mem_cons_self
      by_cases hx : keep x
      · rw [List.map_cons, List.filter_cons_of_pos (by rw [hhead, hx]),
          List.filter_cons_of_pos hx, hsame x List.mem_cons_self hx, htail]
      · rw [List.map_cons, List.filter_cons_of_neg (by rw [hhead]; exact hx),
          List.filter_cons_of_neg hx, htail]

theorem assetsOf_updateAssetRow {db : Db} {portfolioId tokenId p : ℕ} {f : Asset → Asset}
    {hf : ∀ a, (f a).key = a.key} (hne : p ≠ portfolioId) :
    assetsOf (db.updateAssetRow portfolioId tokenId f hf) p = assetsOf db p := by
  have hportfolio : ∀ a, (f a).portfolioId = a.portfolioId := fun a => congrArg Prod.fst (hf a)
  apply filter_map_eq_filter
  · intro a _
    split
    · rw [hportfolio]
    · rfl
  · intro a _ hp
    have hp' : a.portfolioId = p := by simpa using hp
    rw [if_neg]
    intro hkey
    exact hne (hp'.symm.trans (congrArg Prod.fst hkey))

namespace TotalsExcept

variable {N : Numeric} {p : ℕ} {stale : Set ℕ} {db db' : Db}

/-! ## Statements -/

theorem mono {stale' : Set ℕ} (h : TotalsExcept N p stale db) (hsub : p ∈ stale → p ∈ stale') :
    TotalsExcept N p stale' db :=
  ⟨h.onGrid, h.known, fun hp => h.total fun hmem => hp (hsub hmem)⟩

/-- Statements on other tables. -/
theorem of_tables (h : TotalsExcept N p stale db) (hassets : db'.assets.rows = db.assets.rows)
    (hportfolios : db'.portfolios = db.portfolios) : TotalsExcept N p stale db' where
  onGrid := by
    rw [hassets]
    exact h.onGrid
  known := by
    unfold Db.findPortfolioById
    rw [hportfolios]
    exact h.known
  total hp := by
    have hsum : netDepositSum db' p = netDepositSum db p := by
      apply netDepositSum_congr
      unfold assetsOf
      rw [hassets]
    unfold Db.findPortfolioById
    rw [hportfolios, hsum]
    exact h.total hp

theorem patchRow {txId : ℕ} {f : Transaction → Transaction} {hid : ∀ t, (f t).id = t.id}
    {hkey : ∀ t, (f t).hashKey = t.hashKey} (h : TotalsExcept N p stale db) :
    TotalsExcept N p stale (db.updateTransactionRow txId f hid hkey) := h.of_tables rfl rfl

theorem deleteRow {txId : ℕ} (h : TotalsExcept N p stale db) :
    TotalsExcept N p stale (db.deleteTransactionRow txId) := h.of_tables rfl rfl

theorem insertRow {data : TransactionData} (h : TotalsExcept N p stale db)
    (hrow : db.createTransactionRow data = .ok db') : TotalsExcept N p stale db' := by
  obtain ⟨transactions, rfl, -⟩ := createTransactionRow_ok hrow
  exact h.of_tables rfl rfl

/-- A new asset starts with no net deposit, so it leaves every total as it is. -/
theorem createAsset {a : Asset} (h : TotalsExcept N p stale db)
    (hcreate : db.createAsset a = .ok db') (hzero : a.netDeposit = 0) :
    TotalsExcept N p stale db' := by
  obtain ⟨assets, rfl, hrows, -⟩ := createAsset_ok hcreate
  refine ⟨fun b hb hp => ?_, h.known, fun hp => ?_⟩
  · change b ∈ assets.rows at hb
    rw [hrows] at hb
    rcases List.mem_append.mp hb with hb | hb
    · exact h.onGrid b hb hp
    · rw [List.mem_singleton.mp hb, hzero]
      exact N.onGrid_zero
  · have hsum : netDepositSum { db with assets } p = netDepositSum db p := by
      unfold netDepositSum assetsOf
      rw [hrows, List.filter_append, List.map_append, List.sum_append]
      by_cases hap : a.portfolioId = p
      · simp [hap, hzero]
      · simp [hap]
    rw [hsum]
    exact h.total hp

theorem createIfNeeded {needed : Bool} {portfolioId tokenId : ℕ} (h : TotalsExcept N p stale db)
    (hcreate : Ledger.createIfNeeded needed portfolioId tokenId db = .ok db') :
    TotalsExcept N p stale db' := by
  rcases createIfNeeded_ok hcreate with rfl | hcreate
  · exact h
  · exact h.createAsset hcreate rfl

theorem updateAssetRow {portfolioId tokenId : ℕ} {f : Asset → Asset}
    {hf : ∀ a, (f a).key = a.key} (h : TotalsExcept N p stale db)
    (hgrid : ∀ a, N.OnGrid a.netDeposit → N.OnGrid (f a).netDeposit)
    (hmem : portfolioId ∈ stale) :
    TotalsExcept N p stale (db.updateAssetRow portfolioId tokenId f hf) := by
  refine ⟨fun b hb hp => ?_, h.known, fun hp => ?_⟩
  · obtain ⟨a, ha, rfl⟩ := List.mem_map.mp hb
    by_cases hkey : a.key = (portfolioId, tokenId)
    · simp only [hkey, if_true] at hp ⊢
      exact hgrid a (h.onGrid a ha ((congrArg Prod.fst (hf a)).symm.trans hp))
    · simp only [hkey, if_false] at hp ⊢
      exact h.onGrid a ha hp
  · have hne : p ≠ portfolioId := fun heq => hp (heq ▸ hmem)
    rw [netDepositSum_congr (assetsOf_updateAssetRow hne)]
    exact h.total hp

theorem deleteAsset {key : ℕ × ℕ} (h : TotalsExcept N p stale db) (hmem : key.1 ∈ stale) :
    TotalsExcept N p stale (db.deleteAsset key) := by
  refine ⟨fun b hb => h.onGrid b (List.mem_of_mem_filter hb), h.known, fun hp => ?_⟩
  have hsame : assetsOf (db.deleteAsset key) p = assetsOf db p := by
    unfold assetsOf Db.deleteAsset
    rw [Table.rows_filter, List.filter_filter]
    apply List.filter_congr
    intro a _
    by_cases hap : a.portfolioId = p
    · have hkey : a.key ≠ key := by
        intro hkey
        rw [← hap, show a.portfolioId = key.1 from congrArg Prod.fst hkey] at hp
        exact hp hmem
      simp [hap, hkey]
    · simp [hap]
  rw [netDepositSum_congr hsame]
  exact h.total hp

theorem recalcAsset {portfolioId tokenId : ℕ} (h : TotalsExcept N p stale db)
    (hmem : portfolioId ∈ stale) :
    TotalsExcept N p stale (recalcAssetBalance N portfolioId tokenId db) := by
  unfold recalcAssetBalance
  split
  · exact h
  · split
    · exact h
    · exact h.updateAssetRow (fun a _ => N.onGrid_fix _) hmem

/-- Recalculating the total of a portfolio settles it: the sum of grid values is stored
without rounding. -/
theorem recalcTotal {portfolioId : ℕ} (h : TotalsExcept N p (insert portfolioId stale) db) :
    TotalsExcept N p stale (recalcPortfolioNetDeposit N portfolioId db) := by
  unfold recalcPortfolioNetDeposit Db.setNetDeposit
  refine ⟨h.onGrid, ?_, fun hp => ?_⟩
  · have hknown := h.known
    unfold Db.findPortfolioById at *
    rw [SerialTable.find?_modify, Option.isSome_map]
    exact hknown
  · change Option.map Portfolio.netDeposit (SerialTable.find? _ p) = some (netDepositSum db p)
    rw [SerialTable.find?_modify, Option.map_map]
    obtain ⟨portfolio, hfound⟩ := Option.isSome_iff_exists.mp h.known
    have hid : portfolio.id = p := (SerialTable.find?_eq_some_iff.mp hfound).2
    change Option.map _ (db.findPortfolioById p) = _
    rw [hfound, Option.map_some, Function.comp_apply]
    by_cases heq : p = portfolioId
    · subst heq
      rw [if_pos hid]
      have hsum : N.OnGrid (netDepositSum db p) := by
        apply Numeric.onGrid_sum
        intro x hx
        obtain ⟨a, ha, rfl⟩ := List.mem_map.mp hx
        obtain ⟨hmem, hap⟩ := List.mem_filter.mp ha
        exact h.onGrid a hmem (by simpa using hap)
      exact congrArg some hsum
    · rw [if_neg (by rw [hid]; exact heq)]
      have htotal := h.total fun hmem => by
        rcases Set.mem_insert_iff.mp hmem with hmem | hmem
        · exact heq hmem
        · exact hp hmem
      rw [hfound, Option.map_some] at htotal
      exact htotal

theorem commit (h : TotalsExcept N p stale db) (hcommit : db.commit N = .ok db') :
    TotalsExcept N p stale db' := by
  rw [(commit_ok hcommit).1]
  exact h

/-! ## Operations -/

variable {env : Env} {portfolio : Portfolio}

theorem widen (h : TotalsExcept N p ∅ db) : TotalsExcept N p (insert portfolio.id ∅) db :=
  h.mono fun hmem => absurd hmem (Set.notMem_empty _)

theorem createTrade {body : CreateTransactionBody} {trade : TradeFields}
    (h : TotalsExcept N p ∅ db)
    (hrun : Ledger.createTrade N env portfolio body trade db = .ok db') :
    TotalsExcept N p ∅ db' := by
  unfold Ledger.createTrade at hrun
  obtain ⟨token, -, hrun⟩ := bind_eq_ok hrun
  obtain ⟨auto, -, hrun⟩ := bind_eq_ok hrun
  obtain ⟨-, -, hrun⟩ := bind_eq_ok hrun
  obtain ⟨db₁, hcreate, hrun⟩ := bind_eq_ok hrun
  obtain ⟨db₂, hinsert, hrun⟩ := bind_eq_ok hrun
  have hcreated := (@TotalsExcept.widen _ _ _ portfolio h).createIfNeeded hcreate
  have hinserted := hcreated.insertRow (insertTransaction_ok hinsert)
  exact ((hinserted.recalcAsset (Set.mem_insert _ _)).recalcTotal).commit hrun

theorem createTransaction {body : CreateTransactionBody} (h : TotalsExcept N p ∅ db)
    (hrun : Ledger.createTransaction N env portfolio body db = .ok db') :
    TotalsExcept N p ∅ db' := by
  unfold Ledger.createTransaction at hrun
  obtain ⟨-, -, hrun⟩ := bind_eq_ok hrun
  cases hpayload : body.payload with
  | native trade =>
      rw [hpayload] at hrun
      exact h.createTrade hrun
  | erc20 trade info =>
      rw [hpayload] at hrun
      exact h.createTrade hrun
  | nft nft =>
      rw [hpayload] at hrun
      obtain ⟨db₁, hinsert, hrun⟩ := bind_eq_ok hrun
      exact (h.insertRow (insertTransaction_ok hinsert)).commit hrun

theorem recalcPatched {portfolioId : ℕ} {old new : Option ℕ}
    (h : TotalsExcept N p (insert portfolioId stale) db) :
    TotalsExcept N p stale (Ledger.recalcPatched N portfolioId old new db) := by
  have hmem := Set.mem_insert portfolioId stale
  apply TotalsExcept.recalcTotal
  cases old with
  | none =>
      cases new with
      | none => exact h
      | some n => exact h.recalcAsset hmem
  | some o =>
      cases new with
      | none => exact h.recalcAsset hmem
      | some n =>
          dsimp only
          split
          · exact h.recalcAsset hmem
          · exact (h.recalcAsset hmem).recalcAsset hmem

theorem updateTransaction {txId : ℕ} {body : UpdateTransactionBody}
    (h : TotalsExcept N p ∅ db)
    (hrun : Ledger.updateTransaction N env portfolio txId body db = .ok db') :
    TotalsExcept N p ∅ db' := by
  unfold Ledger.updateTransaction at hrun
  obtain ⟨-, -, hrun⟩ := bind_eq_ok hrun
  obtain ⟨existing, -, hrun⟩ := bind_eq_ok hrun
  obtain ⟨-, -, hrun⟩ := bind_eq_ok hrun
  obtain ⟨⟨old, new⟩, -, hrun⟩ := bind_eq_ok hrun
  dsimp only at hrun
  split at hrun
  · refine TotalsExcept.commit (TotalsExcept.recalcPatched ?_) hrun
    exact (@TotalsExcept.widen _ _ _ portfolio h).patchRow
  · exact h.patchRow.commit hrun

theorem deleteRows {legs : List Transaction} (h : TotalsExcept N p stale db) :
    TotalsExcept N p stale (legs.foldl (fun db leg => db.deleteTransactionRow leg.id) db) := by
  induction legs generalizing db with
  | nil => exact h
  | cons leg legs ih => exact ih h.deleteRow

theorem recalcList {targets : List (ℕ × ℕ)} (h : TotalsExcept N p stale db)
    (hmem : ∀ target ∈ targets, target.1 ∈ stale) :
    TotalsExcept N p stale
      (targets.foldl (fun db target => recalcAssetBalance N target.1 target.2 db) db) := by
  induction targets generalizing db with
  | nil => exact h
  | cons target targets ih =>
      exact ih (h.recalcAsset (hmem target List.mem_cons_self))
        fun t ht => hmem t (List.mem_cons_of_mem _ ht)

theorem totalsList {portfolioIds : List ℕ}
    (h : TotalsExcept N p (stale ∪ {id | id ∈ portfolioIds}) db) :
    TotalsExcept N p stale
      (portfolioIds.foldl (fun db portfolioId => recalcPortfolioNetDeposit N portfolioId db) db)
      := by
  induction portfolioIds generalizing db with
  | nil => exact h.mono fun hmem => by simpa using hmem
  | cons portfolioId portfolioIds ih =>
      refine ih (TotalsExcept.recalcTotal (h.mono fun hmem => ?_))
      rcases hmem with hmem | hmem
      · exact Set.mem_insert_of_mem _ (.inl hmem)
      · rcases List.mem_cons.mp hmem with heq | hmem
        · exact Set.mem_insert_iff.mpr (.inl heq)
        · exact Set.mem_insert_of_mem _ (.inr hmem)

theorem recalcTarget_portfolio {t : Transaction} {key : ℕ × ℕ}
    (h : recalcTarget? db t = some key) : key.1 = t.portfolioId := by
  unfold recalcTarget? at h
  split at h
  · cases h
  · obtain ⟨token, -, rfl⟩ := Option.map_eq_some_iff.mp h
    rfl

theorem deleteTransfer {groupId : String} (h : TotalsExcept N p ∅ db)
    (hrun : Ledger.deleteTransfer N groupId db = .ok db') : TotalsExcept N p ∅ db' := by
  unfold Ledger.deleteTransfer Ledger.recalcTargets at hrun
  refine TotalsExcept.commit (TotalsExcept.totalsList (TotalsExcept.recalcList ?_ ?_)) hrun
  · exact TotalsExcept.deleteRows (h.mono fun hmem => absurd hmem (Set.notMem_empty _))
  · intro target htarget
    obtain ⟨leg, hleg, hkey⟩ := List.mem_filterMap.mp htarget
    right
    rw [recalcTarget_portfolio hkey]
    exact List.mem_dedup.mpr (List.mem_map_of_mem hleg)

theorem deleteTransaction {txId : ℕ} (h : TotalsExcept N p ∅ db)
    (hrun : Ledger.deleteTransaction N portfolio txId db = .ok db') :
    TotalsExcept N p ∅ db' := by
  unfold Ledger.deleteTransaction at hrun
  obtain ⟨-, -, hrun⟩ := bind_eq_ok hrun
  obtain ⟨existing, -, hrun⟩ := bind_eq_ok hrun
  split at hrun
  · exact h.deleteTransfer hrun
  · split at hrun
    · exact h.deleteRow.commit hrun
    · have hdeleted := @TotalsExcept.deleteRow _ _ _ _ txId (@TotalsExcept.widen _ _ _ portfolio h)
      exact ((hdeleted.recalcAsset (Set.mem_insert _ _)).recalcTotal).commit hrun

theorem createCrossPortfolioTransfer {body : TransferBody} (h : TotalsExcept N p ∅ db)
    (hrun : Ledger.createCrossPortfolioTransfer N env portfolio body db = .ok db') :
    TotalsExcept N p ∅ db' := by
  unfold Ledger.createCrossPortfolioTransfer at hrun
  obtain ⟨-, -, hrun⟩ := bind_eq_ok hrun
  obtain ⟨dest, -, hrun⟩ := bind_eq_ok hrun
  obtain ⟨token, -, hrun⟩ := bind_eq_ok hrun
  obtain ⟨sourceAsset, -, hrun⟩ := bind_eq_ok hrun
  obtain ⟨db₁, hcreate, hrun⟩ := bind_eq_ok hrun
  obtain ⟨db₂, hsource, hrun⟩ := bind_eq_ok hrun
  obtain ⟨db₃, hdest, hrun⟩ := bind_eq_ok hrun
  have hwide : TotalsExcept N p (insert portfolio.id (insert dest.id ∅)) db :=
    h.mono fun hmem => absurd hmem (Set.notMem_empty _)
  have hcreated := hwide.createIfNeeded hcreate
  have hbought := (hcreated.insertRow hsource).insertRow hdest
  have hsettled := (@TotalsExcept.recalcAsset _ _ _ _ _ token.id hbought
      (Set.mem_insert _ _)).recalcTotal
  exact ((hsettled.recalcAsset (Set.mem_insert _ _)).recalcTotal).commit hrun

theorem addAsset {userId : ℕ} {body : CreateAssetBody} (h : TotalsExcept N p ∅ db)
    (hrun : Ledger.addAsset N userId env portfolio body db = .ok db') :
    TotalsExcept N p ∅ db' := by
  unfold Ledger.addAsset at hrun
  obtain ⟨-, -, hrun⟩ := bind_eq_ok hrun
  obtain ⟨-, -, hrun⟩ := bind_eq_ok hrun
  obtain ⟨token, -, hrun⟩ := bind_eq_ok hrun
  obtain ⟨-, -, hrun⟩ := bind_eq_ok hrun
  obtain ⟨-, -, hrun⟩ := bind_eq_ok hrun
  obtain ⟨opening, -, hrun⟩ := bind_eq_ok hrun
  obtain ⟨db₁, hcreate, hrun⟩ := bind_eq_ok hrun
  have hcreated := (@TotalsExcept.widen _ _ _ portfolio h).createAsset hcreate rfl
  exact ((hcreated.recalcAsset (Set.mem_insert _ _)).recalcTotal).commit hrun

theorem removeAsset {assetId : ℕ × ℕ} (h : TotalsExcept N p ∅ db)
    (hrun : Ledger.removeAsset N portfolio assetId db = .ok db') :
    TotalsExcept N p ∅ db' := by
  unfold Ledger.removeAsset at hrun
  obtain ⟨-, -, hrun⟩ := bind_eq_ok hrun
  obtain ⟨existing, hown, hrun⟩ := bind_eq_ok hrun
  have hkey : existing.key.1 = portfolio.id := (SoundExcept.findOwnAsset_ok hown).2.2
  exact (((@TotalsExcept.widen _ _ _ portfolio h).deleteAsset
    (hkey ▸ Set.mem_insert _ _)).recalcTotal).commit hrun

theorem editOpening {existing : Asset} {balance : ℚ} {cost : Option Cost}
    (h : TotalsExcept N p ∅ db) (hpid : existing.portfolioId = portfolio.id)
    (hrun : Ledger.editOpening N env portfolio existing balance cost db = .ok db') :
    TotalsExcept N p ∅ db' := by
  unfold Ledger.editOpening at hrun
  obtain ⟨-, -, hrun⟩ := bind_eq_ok hrun
  obtain ⟨opening, -, hrun⟩ := bind_eq_ok hrun
  have hedited := @TotalsExcept.updateAssetRow _ _ _ _ existing.portfolioId existing.tokenId
      (setOpening N balance opening) (fun _ => rfl) (@TotalsExcept.widen _ _ _ portfolio h)
      (fun _ hgrid => hgrid) (hpid ▸ Set.mem_insert _ _)
  exact ((hedited.recalcAsset (Set.mem_insert _ _)).recalcTotal).commit hrun

/-- Writing the value an asset already has changes no row. -/
theorem rows_updateAssetRow_same {existing : Asset} {f : Asset → Asset}
    {hf : ∀ a, (f a).key = a.key} (hmem : existing ∈ db.assets.rows)
    (hsame : f existing = existing) :
    (db.updateAssetRow existing.portfolioId existing.tokenId f hf).assets.rows =
      db.assets.rows := by
  change db.assets.rows.map _ = db.assets.rows
  rw [List.map_congr_left (g := id), List.map_id]
  intro a ha
  split
  · next hkey =>
      have heq : a = existing := eq_of_key_eq db.assets.nodup ha hmem hkey
      rw [heq]
      exact hsame
  · rfl

theorem rewriteSame {existing : Asset} {f : Asset → Asset} {hf : ∀ a, (f a).key = a.key}
    (h : TotalsExcept N p stale db) (hmem : existing ∈ db.assets.rows)
    (hsame : f existing = existing) :
    TotalsExcept N p stale
      (db.updateAssetRow existing.portfolioId existing.tokenId f hf) :=
  h.of_tables (rows_updateAssetRow_same hmem hsame) rfl

/-- An edit that only sets `netDeposit` sets the value the asset already has. -/
def KeepsNetDeposit (N : Numeric) (assetId : ℕ × ℕ) (body : UpdateAssetBody) (db : Db) : Prop :=
  body.isOpeningEdit = false → ∀ netDeposit, body.netDeposit = some netDeposit →
    ∀ a, db.assets.find? assetId = some a → N.fix netDeposit = a.netDeposit

theorem updateAsset {assetId : ℕ × ℕ} {body : UpdateAssetBody} (h : TotalsExcept N p ∅ db)
    (hkeep : portfolio.id = p → KeepsNetDeposit N assetId body db)
    (hrun : Ledger.updateAsset N env portfolio assetId body db = .ok db') :
    TotalsExcept N p ∅ db' := by
  unfold Ledger.updateAsset at hrun
  obtain ⟨-, -, hrun⟩ := bind_eq_ok hrun
  obtain ⟨existing, hown, hrun⟩ := bind_eq_ok hrun
  obtain ⟨hmem, hkey, hpid⟩ := SoundExcept.findOwnAsset_ok hown
  split at hrun
  · exact h.editOpening hpid hrun
  · next hopening =>
      split at hrun
      · next netDeposit hbody =>
          by_cases hp : portfolio.id = p
          · have hfind : db.assets.find? assetId = some existing :=
              Table.find?_eq_some_iff.mpr ⟨hmem, hkey⟩
            have hsame := hkeep hp (by simpa using hopening) netDeposit hbody existing hfind
            exact (h.rewriteSame hmem (by rw [hsame])).commit hrun
          · have hedited := @TotalsExcept.updateAssetRow _ _ _ _ existing.portfolioId
              existing.tokenId (fun a => { a with netDeposit := N.fix netDeposit }) (fun _ => rfl)
              (@TotalsExcept.widen _ _ _ portfolio h) (fun _ _ => N.onGrid_fix _)
              (hpid ▸ Set.mem_insert _ _)
            refine TotalsExcept.commit (hedited.mono fun hmem => ?_) hrun
            rcases Set.mem_insert_iff.mp hmem with heq | hmem
            · exact absurd heq.symm hp
            · exact hmem
      · cases hrun
        exact h

theorem insertPrepared {portfolioId : ℕ} {rows : List PreparedTxRow}
    (h : TotalsExcept N p (insert portfolioId stale) db)
    (hrun : rows.foldlM (Ledger.insertPrepared N portfolioId) db = .ok db') :
    TotalsExcept N p (insert portfolioId stale) db' := by
  refine foldlM_ok_invariant (fun r _ db₁ db₂ h₁ hinsert => ?_) h hrun
  unfold Ledger.insertPrepared at hinsert
  obtain ⟨db₃, hcreate, hinsert⟩ := bind_eq_ok hinsert
  exact (h₁.createIfNeeded hcreate).insertRow hinsert

theorem writePrepared {portfolioId : ℕ} {rows : List PreparedTxRow}
    (h : TotalsExcept N p (insert portfolioId stale) db)
    (hrun : Ledger.writePrepared N portfolioId rows db = .ok db') :
    TotalsExcept N p stale db' := by
  unfold Ledger.writePrepared at hrun
  obtain ⟨db₁, hinsert, hrun⟩ := bind_eq_ok hrun
  refine TotalsExcept.commit (TotalsExcept.recalcTotal ?_) hrun
  have hsettled := @TotalsExcept.recalcList _ _ _ _ ((rows.map PreparedTxRow.tokenId).dedup.map fun
      tokenId => (portfolioId, tokenId)) (h.insertPrepared hinsert) fun target htarget => by
      obtain ⟨tokenId, -, rfl⟩ := List.mem_map.mp htarget
      exact Set.mem_insert _ _
  rw [List.foldl_map] at hsettled
  exact hsettled

theorem insertOpenings {portfolioId : ℕ} {prepared : List PreparedAssetRow}
    (h : TotalsExcept N p (insert portfolioId stale) db)
    (hrun : prepared.foldlM (insertOpening N portfolioId) db = .ok db') :
    TotalsExcept N p (insert portfolioId stale) db' := by
  refine foldlM_ok_invariant (fun r _ db₁ db₂ h₁ hfirst => ?_) h hrun
  unfold insertOpening at hfirst
  obtain ⟨db₃, hcreate, hfirst⟩ := bind_eq_ok hfirst
  cases hfirst
  exact (h₁.createAsset hcreate rfl).recalcAsset (Set.mem_insert _ _)

theorem writeOpenings {portfolioId : ℕ} {prepared : List PreparedAssetRow}
    (h : TotalsExcept N p (insert portfolioId stale) db)
    (hrun : Ledger.writeOpenings N portfolioId prepared db = .ok db') :
    TotalsExcept N p stale db' := by
  unfold Ledger.writeOpenings at hrun
  obtain ⟨db₁, hinsert, hrun⟩ := bind_eq_ok hrun
  exact (h.insertOpenings hinsert).recalcTotal.commit hrun

/-! ### A new portfolio -/

theorem seedAsset {plan : Plan} {portfolioId : ℕ} {seen : List ℕ} {seed : SeedAsset}
    (h : TotalsExcept N p ∅ db)
    (hrun : Ledger.seedAsset N env plan portfolioId seen seed db = .ok db') :
    TotalsExcept N p ∅ db' := by
  unfold Ledger.seedAsset at hrun
  obtain ⟨-, -, hrun⟩ := bind_eq_ok hrun
  obtain ⟨token, -, hrun⟩ := bind_eq_ok hrun
  obtain ⟨-, -, hrun⟩ := bind_eq_ok hrun
  obtain ⟨db₁, hcreate, hrun⟩ := bind_eq_ok hrun
  have hcreated := h.createAsset hcreate rfl
  split at hrun
  · split at hrun
    · unfold seedAcquisitionInTx at hrun
      obtain ⟨db₂, hinsert, hrun⟩ := bind_eq_ok hrun
      cases hrun
      have hinserted : TotalsExcept N p (insert portfolioId ∅) db₂ :=
        (hcreated.insertRow hinsert).mono fun hmem => absurd hmem (Set.notMem_empty _)
      exact (hinserted.recalcAsset (Set.mem_insert _ _)).recalcTotal
    · cases hrun
      exact hcreated
  · cases hrun
    exact hcreated

theorem seedAssets {plan : Plan} {portfolioId : ℕ} {seen : List ℕ} {seeds : List SeedAsset}
    (h : TotalsExcept N p ∅ db)
    (hrun : Ledger.seedAssets N env plan portfolioId seen seeds db = .ok db') :
    TotalsExcept N p ∅ db' := by
  induction seeds generalizing seen db with
  | nil =>
      cases hrun
      exact h
  | cons seed seeds ih =>
      obtain ⟨db₁, hseed, hrun⟩ := bind_eq_ok hrun
      exact ih (h.seedAsset hseed) hrun

/-- A portfolio created without a starting balance has the total of its seeds. -/
theorem create {userId : ℕ} {seeds : List SeedAsset}
    (hforeign : ∀ a ∈ db.assets.rows, (db.findPortfolioById a.portfolioId).isSome)
    (hrun : createManualPortfolio N env userId none seeds db = .ok (p, db')) :
    TotalsExcept N p ∅ db' := by
  unfold createManualPortfolio at hrun
  obtain ⟨⟨portfolioId, db₁⟩, hcreate, hrun⟩ := bind_eq_ok hrun
  obtain ⟨db₂, hseeds, hrun⟩ := bind_eq_ok hrun
  obtain ⟨db₃, hcommit, hrun⟩ := bind_eq_ok hrun
  cases hrun
  refine TotalsExcept.commit (TotalsExcept.seedAssets ?_ hseeds) hcommit
  obtain ⟨rfl, portfolios, rfl, hrows⟩ := createPortfolio_ok hcreate
  have hempty : assetsOf db db.portfolios.next = [] := by
    apply List.filter_eq_nil_iff.mpr
    intro a ha hp
    obtain ⟨portfolio, hfound⟩ := Option.isSome_iff_exists.mp (hforeign a ha)
    obtain ⟨hmem, hid⟩ := SerialTable.find?_eq_some_iff.mp hfound
    have hlt := db.portfolios.below portfolio hmem
    have hpid : a.portfolioId = db.portfolios.next := by simpa using hp
    omega
  have hnew : portfolios.find? db.portfolios.next =
      some (manualPortfolio N userId none db.portfolios.next) := by
    apply SerialTable.find?_eq_some_iff.mpr
    rw [hrows]
    exact ⟨List.mem_append_right _ (List.mem_singleton_self _), rfl⟩
  refine ⟨fun a ha hp => ?_, ?_, fun _ => ?_⟩
  · have hmem : a ∈ assetsOf db db.portfolios.next :=
      List.mem_filter.mpr ⟨ha, by simpa using hp⟩
    rw [hempty] at hmem
    cases hmem
  · change (portfolios.find? db.portfolios.next).isSome
    rw [hnew]
    rfl
  · change (portfolios.find? db.portfolios.next).map Portfolio.netDeposit =
      some ((assetsOf db db.portfolios.next).map Asset.netDeposit).sum
    rw [hnew, hempty]
    rfl

end TotalsExcept

/-! ## Runs -/

/-- The request does not set an asset's `netDeposit` to another value on its own. -/
def Request.KeepsNetDeposit (N : Numeric) (p : ℕ) (db : Db) (r : Request) : Prop :=
  match r.action with
  | .updateAsset assetId body =>
      r.portfolioId = p → TotalsExcept.KeepsNetDeposit N assetId body db
  | _ => True

theorem TotalsExcept.request {N : Numeric} {js : Js} {p : ℕ} {db db' : Db} {r : Request}
    (h : TotalsExcept N p ∅ db) (hkeep : r.KeepsNetDeposit N p db)
    (hstep : Step N js db r db') : TotalsExcept N p ∅ db' := by
  unfold Step handle at hstep
  obtain ⟨portfolio, hportfolio, hrun⟩ := bind_eq_ok hstep
  obtain ⟨-, hid, -⟩ := ownedPortfolio_ok hportfolio
  cases haction : r.action with
  | createTransaction body =>
      rw [haction] at hrun
      exact h.createTransaction hrun
  | updateTransaction txId body =>
      rw [haction] at hrun
      exact h.updateTransaction hrun
  | deleteTransaction txId =>
      rw [haction] at hrun
      exact h.deleteTransaction hrun
  | transfer body =>
      rw [haction] at hrun
      exact h.createCrossPortfolioTransfer hrun
  | bulkTransactions body =>
      rw [haction] at hrun
      obtain ⟨result, hbulk⟩ := map_fst_ok hrun
      obtain ⟨-, hsame | ⟨rows, -, hwrite⟩⟩ := bulkCreateTransactions_ok hbulk
      · rw [show db' = db from hsame]
        exact h
      · exact (@TotalsExcept.widen _ _ _ portfolio h).writePrepared hwrite
  | addAsset body =>
      rw [haction] at hrun
      exact h.addAsset hrun
  | updateAsset assetId body =>
      rw [haction] at hrun
      unfold Request.KeepsNetDeposit at hkeep
      rw [haction] at hkeep
      exact h.updateAsset (fun hp => hkeep (hid.symm.trans hp)) hrun
  | removeAsset assetId =>
      rw [haction] at hrun
      exact h.removeAsset hrun
  | bulkAssets body =>
      rw [haction] at hrun
      obtain ⟨result, hbulk⟩ := map_fst_ok hrun
      obtain ⟨-, hsame | ⟨rows, -, hwrite⟩⟩ := bulkCreateAssets_ok hbulk
      · rw [show db' = db from hsame]
        exact h
      · exact (@TotalsExcept.widen _ _ _ portfolio h).writeOpenings hwrite

/-- Buying 1 ETH at 100 in a new portfolio. -/
def openingRequests (p : ℕ) : List Request :=
  [⟨1, p, sampleEnv, .createTransaction (trade .buy ⟨1, amount_1⟩ ⟨100, bounded_100⟩ 10)⟩]

/-- The same, then a PATCH of the asset's `netDeposit` to 250. -/
def netDepositPatch (p : ℕ) : List Request :=
  openingRequests p ++
    [⟨1, p, sampleEnv, .updateAsset (p, 1) { netDeposit := some ⟨250, by norm_num⟩ }⟩]

def totalCheck (p : ℕ) (db : Db) : Bool :=
  decide ((db.findPortfolioById p).map Portfolio.netDeposit = some (netDepositSum db p))

end Neonfi.Ledger

import Neonfi.Ledger.OpeningParity
import Neonfi.Lib.Classes

/-!
# What becomes of each row of a bulk import

The forward pass of either bulk import sorts its rows into those it inserts, those it counts as
duplicates and those it names in its errors.  The totals of the answer and the rows that are
added to the database are read off these classes.
-/

namespace Neonfi.Ledger

open Lib

/-! ## The two bulk imports as one -/

/-- A bulk import, what its forward pass makes of the rows, and the table it adds rows to:
how many rows it has, and when it has gained those of the rows that are taken. -/
structure BulkEndpoint where
  run : BulkBody → Db → Except Failure (Db × BulkResult)
  classes : List BulkRow → Db → Classes
  count : Db → ℕ
  gained : List BulkRow → Db → Db → Prop

/-- The state after a request; one that throws leaves the database as it was. -/
def stateAfter (db : Db) : Except Failure (Db × BulkResult) → Db
  | .ok (db', _) => db'
  | .error _ => db

namespace BulkEndpoint

variable (e : BulkEndpoint)

/-- Every row is in one class, and the totals of the answer are those of the classes. -/
structure Accounts (rows : List BulkRow) (db db' : Db) (result : BulkResult) : Prop where
  cover : (e.classes rows db).Cover rows.length
  named : ∀ i, i ∈ (e.classes rows db).reported ↔ i ∈ result.errors.map BulkRowError.row
  imported : result.imported = (e.classes rows db).taken.length
  total : result.imported + result.skipped = rows.length
  added : e.count db' = e.count db + result.imported
  gained : e.gained rows db db'

/-- The answer of a skip-invalid import accounts for its rows. -/
def AccountsInSkipInvalid (rows : List BulkRow) (db : Db) : Prop :=
  ∀ db' result, e.run ⟨.skipInvalid, rows⟩ db = .ok (db', result) → e.Accounts rows db db' result

/-- One erroneous row keeps the database as it is. -/
def KeepsOnError (rows : List BulkRow) (db : Db) : Prop :=
  (e.classes rows db).reports ≠ [] →
    stateAfter db (e.run ⟨.allOrNothing, rows⟩ db) = db

/-- Every row that is not a duplicate is added. -/
structure AddsAll (rows : List BulkRow) (db db' : Db) : Prop where
  cover : ((e.classes rows db).taken ++ (e.classes rows db).passed).Perm
    (List.range' 1 rows.length)
  added : e.count db' = e.count db + (e.classes rows db).taken.length
  gained : e.gained rows db db'

/-- Accounting in one mode and atomicity in the other. -/
def BulkAccounting (rows : List BulkRow) (db : Db) : Prop :=
  e.AccountsInSkipInvalid rows db ∧ e.KeepsOnError rows db ∧
    ((e.classes rows db).reports = [] →
      e.AddsAll rows db (stateAfter db (e.run ⟨.allOrNothing, rows⟩ db)))

/-- The same for the requests that are answered: an import that is refused as a whole changes
nothing. -/
def AnsweredAccounting (rows : List BulkRow) (db : Db) : Prop :=
  e.AccountsInSkipInvalid rows db ∧ e.KeepsOnError rows db ∧
    ((e.classes rows db).reports = [] →
      ∀ db' result, e.run ⟨.allOrNothing, rows⟩ db = .ok (db', result) →
        e.AddsAll rows db db' ∧ result.imported = (e.classes rows db).taken.length)

end BulkEndpoint

def Batch.classes (b : Batch) : Classes where
  taken := b.imported
  passed := (b.prepared.filter PreparedTxRow.duplicate).map PreparedTxRow.row
  reports := b.errors.map BulkRowError.row

/-- A position of a token that is held already is an error, not a duplicate. -/
def AssetBatch.classes (b : AssetBatch) : Classes where
  taken := b.imported
  passed := []
  reports := b.errors.map BulkRowError.row

section Definitions

variable (N : Numeric) (js : Js) (env : Env) (portfolio : Portfolio)

/-- The forward pass of a whole request. -/
def passOver (rows : List BulkRow) (db : Db) : Batch :=
  prepareRows N js env portfolio db rows 1 (Batch.load db portfolio.id)

def transactionsEndpoint : BulkEndpoint where
  run := bulkCreateTransactions N js env portfolio
  classes rows db := (passOver N js env portfolio rows db).classes
  count db := db.transactions.rows.length
  gained rows db db' := ∃ added, db'.transactions.rows = db.transactions.rows ++ added ∧
    added.map Transaction.toTransactionData =
      (passOver N js env portfolio rows db).toInsert.map fun r => r.body.row N portfolio.id r.usdValue

def passOverAssets (userId : ℕ) (rows : List BulkRow) (db : Db) : AssetBatch :=
  prepareAssetRows N js env userId portfolio db rows 1 {}

def assetsEndpoint (userId : ℕ) : BulkEndpoint where
  run := bulkCreateAssets N js env userId portfolio
  classes rows db := (passOverAssets N js env portfolio userId rows db).classes
  count db := db.assets.rows.length
  gained rows db db' := db'.assets.rows.map Asset.key = db.assets.rows.map Asset.key ++
    (passOverAssets N js env portfolio userId rows db).prepared.map fun r =>
      (portfolio.id, r.tokenId)

end Definitions

/-! ## Errors name their row -/

section Errors

variable {js : Js} {env : Env} {db : Db} {row : ℕ} {raw : BulkRow}

theorem row_of_mem_map {column : String} {messages : List String} {e : BulkRowError}
    (h : e ∈ messages.map (rowError row column)) : e.row = row := by
  obtain ⟨message, -, rfl⟩ := List.mem_map.mp h
  rfl

theorem row_of_mem_singleton {column message : String} {e : BulkRowError}
    (h : e ∈ [rowError row column message]) : e.row = row := by
  rw [List.mem_singleton.mp h]
  rfl

theorem row_symbolErrors {symbol : String} {token : Option Token} {e : BulkRowError}
    (h : e ∈ symbolErrors symbol token row) : e.row = row := by
  unfold symbolErrors at h
  split at h
  · exact row_of_mem_singleton h
  · split at h
    · exact row_of_mem_singleton h
    · cases h

theorem row_numberErrors {column value : String} {e : BulkRowError}
    (h : e ∈ numberErrors row column value) : e.row = row := by
  unfold numberErrors at h
  split at h
  · exact row_of_mem_singleton h
  · exact row_of_mem_map h

theorem row_cellErrors {e : BulkRowError} (h : e ∈ cellErrors js env db row raw) :
    e.row = row := by
  unfold cellErrors at h
  simp only [List.mem_append] at h
  rcases h with ((((h | h) | h) | h) | h) | h
  · unfold typeErrors at h
    dsimp only at h
    split at h
    · exact row_of_mem_singleton h
    · split at h
      · exact row_of_mem_singleton h
      · cases h
  · exact row_symbolErrors h
  · exact row_numberErrors h
  · exact row_numberErrors h
  · unfold dateErrors at h
    dsimp only at h
    split at h
    · exact row_of_mem_singleton h
    · exact row_of_mem_map h
  · unfold gasFeeErrors at h
    dsimp only at h
    split at h
    · cases h
    · exact row_of_mem_map h

theorem row_assetCellErrors {e : BulkRowError} (h : e ∈ assetCellErrors js env db row raw) :
    e.row = row := by
  unfold assetCellErrors at h
  simp only [List.mem_append] at h
  rcases h with (h | h) | h
  · exact row_symbolErrors h
  · exact row_numberErrors h
  · unfold costErrors at h
    split at h
    · exact row_of_mem_map h
    · exact row_of_mem_map h
    · cases h

/-- A symbol that passes its check names a token. -/
theorem exists_token_of_symbolErrors
    (h : symbolErrors (rowSymbol js raw) (rowToken js db raw) row = []) :
    ∃ token, rowToken js db raw = some token := by
  unfold symbolErrors at h
  split at h
  · cases h
  · split at h
    · cases h
    · next hsome =>
        refine Option.ne_none_iff_exists'.mp fun hnone => hsome ?_
        rw [hnone]
        rfl

end Errors

/-! ## One row is in one class -/

/-- A row is taken, passed over, or reported at least once. -/
inductive Sorts (row : ℕ) (c : Classes) : Classes → Prop
  | take : Sorts row c { c with taken := c.taken ++ [row] }
  | pass : Sorts row c { c with passed := c.passed ++ [row] }
  | report {new : List ℕ} (hne : new ≠ []) (hnew : ∀ i ∈ new, i = row) :
      Sorts row c { c with reports := c.reports ++ new }

theorem Sorts.cover {n : ℕ} {c c' : Classes} (h : Sorts (n + 1) c c') (hcover : c.Cover n) :
    c'.Cover (n + 1) := by
  cases h with
  | take => exact hcover.take
  | pass => exact hcover.pass
  | report hne hnew => exact hcover.report hne hnew

theorem Sorts.of_errors {row : ℕ} {c : Classes} {errors : List BulkRowError} (hne : errors ≠ [])
    (hrows : ∀ e ∈ errors, e.row = row) :
    Sorts row c { c with reports := c.reports ++ errors.map BulkRowError.row } := by
  refine .report (fun hnil => hne (List.map_eq_nil_iff.mp hnil)) fun i hi => ?_
  obtain ⟨e, he, rfl⟩ := List.mem_map.mp hi
  exact hrows e he

section Rows

variable {N : Numeric} {js : Js} {env : Env} {portfolio : Portfolio} {userId : ℕ} {db : Db}
variable {row : ℕ} {raw : BulkRow}

namespace Batch

variable {b b' : Batch}

theorem classes_of_errors {errors : List BulkRowError} (hprepared : b'.prepared = b.prepared)
    (herrors : b'.errors = b.errors ++ errors) :
    b'.classes =
      { b.classes with reports := b.classes.reports ++ errors.map BulkRowError.row } := by
  unfold Batch.classes Batch.imported Batch.toInsert
  rw [hprepared, herrors, List.map_append]

theorem classes_concat {r : PreparedTxRow} (hprepared : b'.prepared = b.prepared ++ [r])
    (herrors : b'.errors = b.errors) :
    b'.classes =
      if r.duplicate then { b.classes with passed := b.classes.passed ++ [r.row] }
      else { b.classes with taken := b.classes.taken ++ [r.row] } := by
  unfold Batch.classes Batch.imported Batch.toInsert
  rw [hprepared, herrors, List.filter_append, List.filter_append, List.map_append,
    List.map_append]
  cases hduplicate : r.duplicate with
  | true => simp [hduplicate]
  | false => simp [hduplicate]

end Batch

theorem sorts_prepareRow (b : Batch) :
    Sorts row b.classes (prepareRow N js env portfolio db row raw b).classes := by
  have hreport : ∀ (b' : Batch) (errors : List BulkRowError), b'.prepared = b.prepared →
      b'.errors = b.errors → errors ≠ [] → (∀ e ∈ errors, e.row = row) →
      Sorts row b.classes ({ b' with errors := b'.errors ++ errors } : Batch).classes := by
    intro b' errors hprepared herrors hne hrows
    have hclasses : ({ b' with errors := b'.errors ++ errors } : Batch).classes =
        { b.classes with reports := b.classes.reports ++ errors.map BulkRowError.row } :=
      Batch.classes_of_errors hprepared (by rw [herrors])
    rw [hclasses]
    exact .of_errors hne hrows
  have hone : ∀ b' : Batch, b'.prepared = b.prepared → b'.errors = b.errors →
      ∀ column message, Sorts row b.classes (b'.addError row column message).classes :=
    fun b' hprepared herrors column message =>
      hreport b' _ hprepared herrors (List.cons_ne_nil _ _) fun e he => by
        rw [List.mem_singleton.mp he]
  have hconcat : ∀ (b' : Batch) (r : PreparedTxRow), b'.prepared = b.prepared →
      b'.errors = b.errors → r.row = row →
      Sorts row b.classes ({ b' with prepared := b'.prepared ++ [r] } : Batch).classes := by
    rintro b' r hprepared herrors rfl
    have hclasses := @Batch.classes_concat b { b' with prepared := b'.prepared ++ [r] } r
      (by rw [hprepared]) herrors
    rw [hclasses]
    cases r.duplicate with
    | true => exact .pass
    | false => exact .take
  unfold prepareRow
  split
  · split
    · exact hone b rfl rfl _ _
    · dsimp only
      split
      · exact hconcat b _ rfl rfl rfl
      · split
        · exact hone _ rfl rfl _ _
        · next b' createAsset happly =>
            obtain ⟨hprepared, herrors, -⟩ := applyRunning_prepared happly
            exact hconcat b' _ hprepared herrors rfl
  · next errors token hnone =>
      refine hreport b _ rfl rfl (fun hnil => ?_) fun e he => row_cellErrors he
      have hsymbol : symbolErrors (rowSymbol js raw) (rowToken js db raw) row = [] := by
        unfold cellErrors at hnil
        simp only [List.append_eq_nil_iff] at hnil
        exact hnil.1.1.1.1.2
      obtain ⟨token, htoken⟩ := exists_token_of_symbolErrors hsymbol
      exact hnone token hnil htoken

theorem sorts_prepareAssetRow (b : AssetBatch) :
    Sorts row b.classes (prepareAssetRow N js env userId portfolio db row raw b).classes := by
  have hreport : ∀ errors : List BulkRowError, errors ≠ [] → (∀ e ∈ errors, e.row = row) →
      Sorts row b.classes ({ b with errors := b.errors ++ errors } : AssetBatch).classes := by
    intro errors hne hrows
    unfold AssetBatch.classes
    rw [List.map_append]
    exact .of_errors hne hrows
  have hone : ∀ column message, Sorts row b.classes (b.addError row column message).classes :=
    fun column message => hreport _ (List.cons_ne_nil _ _) fun e he => by
      rw [List.mem_singleton.mp he]
  unfold prepareAssetRow
  split
  · split
    · exact hone _ _
    · split
      · exact hone _ _
      · split
        · exact hone _ _
        · split
          · exact hone _ _
          · have htaken : ∀ r : PreparedAssetRow, r.row = row → ∀ seenTokens, Sorts row b.classes
                ({ b with seenTokens, prepared := b.prepared ++ [r] } : AssetBatch).classes := by
              rintro r rfl seenTokens
              unfold AssetBatch.classes AssetBatch.imported
              rw [List.map_append]
              exact .take
            exact htaken _ rfl _
  · next errors token hnone =>
      refine hreport _ (fun hnil => ?_) fun e he => row_assetCellErrors he
      have hsymbol : symbolErrors (rowSymbol js raw) (rowToken js db raw) row = [] := by
        unfold assetCellErrors at hnil
        simp only [List.append_eq_nil_iff] at hnil
        exact hnil.1.1
      obtain ⟨token, htoken⟩ := exists_token_of_symbolErrors hsymbol
      exact hnone token hnil htoken

/-- The forward pass sorts every row. -/
theorem cover_prepareRows {rows : List BulkRow} {n : ℕ} {b : Batch} (h : b.classes.Cover n) :
    (prepareRows N js env portfolio db rows (n + 1) b).classes.Cover (n + rows.length) := by
  induction rows generalizing n b with
  | nil => exact h
  | cons raw rows ih =>
      have hlength : n + (raw :: rows).length = n + 1 + rows.length := by
        rw [List.length_cons]
        omega
      rw [hlength]
      exact ih ((sorts_prepareRow b).cover h)

theorem cover_prepareAssetRows {rows : List BulkRow} {n : ℕ} {b : AssetBatch}
    (h : b.classes.Cover n) :
    (prepareAssetRows N js env userId portfolio db rows (n + 1) b).classes.Cover
      (n + rows.length) := by
  induction rows generalizing n b with
  | nil => exact h
  | cons raw rows ih =>
      have hlength : n + (raw :: rows).length = n + 1 + rows.length := by
        rw [List.length_cons]
        omega
      rw [hlength]
      exact ih ((sorts_prepareAssetRow b).cover h)

end Rows

/-! ## What the write transactions add -/

section Writes

variable {N : Numeric} {p : ℕ} {db db' : Db}

theorem transactions_recalcTokens {tokenIds : List ℕ} :
    (tokenIds.foldl (fun db tokenId => recalcAssetBalance N p tokenId db) db).transactions =
      db.transactions := by
  induction tokenIds generalizing db with
  | nil => rfl
  | cons tokenId tokenIds ih => exact ih.trans recalcAssetBalance_frame.2.2

theorem rows_foldlM_insertPrepared {toInsert : List PreparedTxRow}
    (h : toInsert.foldlM (insertPrepared N p) db = .ok db') :
    ∃ added, db'.transactions.rows = db.transactions.rows ++ added ∧
      added.map Transaction.toTransactionData =
        toInsert.map fun r => r.body.row N p r.usdValue := by
  induction toInsert generalizing db with
  | nil =>
      cases h
      exact ⟨[], (List.append_nil _).symm, rfl⟩
  | cons r toInsert ih =>
      rw [List.foldlM_cons] at h
      obtain ⟨db₁, hinsert, hrest⟩ := bind_eq_ok h
      unfold insertPrepared at hinsert
      obtain ⟨db₂, hcreate, hrow⟩ := bind_eq_ok hinsert
      obtain ⟨transactions, rfl, hrows⟩ := createTransactionRow_ok hrow
      obtain ⟨added, hadded, hdata⟩ := ih hrest
      have hsame : db₂.transactions = db.transactions := by
        rcases createIfNeeded_ok hcreate with rfl | hasset
        · rfl
        · obtain ⟨assets, rfl, -⟩ := createAsset_ok hasset
          rfl
      refine ⟨⟨r.body.row N p r.usdValue, db₂.transactions.next⟩ :: added, ?_, ?_⟩
      · rw [hadded]
        show transactions.rows ++ added = _
        rw [hrows, hsame, List.append_assoc]
        rfl
      · rw [List.map_cons, List.map_cons, hdata]

theorem rows_writePrepared {toInsert : List PreparedTxRow}
    (h : writePrepared N p toInsert db = .ok db') :
    ∃ added, db'.transactions.rows = db.transactions.rows ++ added ∧
      added.map Transaction.toTransactionData =
        toInsert.map fun r => r.body.row N p r.usdValue := by
  unfold writePrepared at h
  obtain ⟨db₁, hfold, hcommit⟩ := bind_eq_ok h
  obtain ⟨rfl, -⟩ := commit_ok hcommit
  have hkept : (recalcPortfolioNetDeposit N p (((toInsert.map PreparedTxRow.tokenId).dedup).foldl
      (fun db tokenId => recalcAssetBalance N p tokenId db) db₁)).transactions =
        db₁.transactions := transactions_recalcTokens
  rw [hkept]
  exact rows_foldlM_insertPrepared hfold

theorem keys_recalcAssetBalance {tokenId : ℕ} :
    (recalcAssetBalance N p tokenId db).assets.rows.map Asset.key =
      db.assets.rows.map Asset.key := by
  unfold recalcAssetBalance
  split
  · rfl
  · split
    · rfl
    · show (db.assets.rows.map _).map Asset.key = _
      rw [List.map_map]
      apply List.map_congr_left
      intro a _
      rw [Function.comp_apply]
      split <;> rfl

theorem keys_foldlM_insertOpening {prepared : List PreparedAssetRow}
    (h : prepared.foldlM (insertOpening N p) db = .ok db') :
    db'.assets.rows.map Asset.key = db.assets.rows.map Asset.key ++
      prepared.map fun r => (p, r.tokenId) := by
  induction prepared generalizing db with
  | nil =>
      cases h
      exact (List.append_nil _).symm
  | cons r prepared ih =>
      rw [List.foldlM_cons] at h
      obtain ⟨db₁, hinsert, hrest⟩ := bind_eq_ok h
      unfold insertOpening at hinsert
      obtain ⟨db₂, hcreate, hrecalc⟩ := bind_eq_ok hinsert
      cases hrecalc
      obtain ⟨assets, rfl, hrows, -⟩ := createAsset_ok hcreate
      have hkeys : assets.rows.map Asset.key = db.assets.rows.map Asset.key ++ [(p, r.tokenId)] := by
        rw [hrows, List.map_append]
        rfl
      rw [ih hrest, keys_recalcAssetBalance, hkeys, List.append_assoc]
      rfl

theorem keys_writeOpenings {prepared : List PreparedAssetRow}
    (h : writeOpenings N p prepared db = .ok db') :
    db'.assets.rows.map Asset.key = db.assets.rows.map Asset.key ++
      prepared.map fun r => (p, r.tokenId) := by
  unfold writeOpenings at h
  obtain ⟨db₁, hfold, hcommit⟩ := bind_eq_ok h
  obtain ⟨rfl, -⟩ := commit_ok hcommit
  show db₁.assets.rows.map Asset.key = _
  exact keys_foldlM_insertOpening hfold

end Writes

/-! ## The answers -/

section Answers

variable (N : Numeric) (js : Js) (env : Env) (portfolio : Portfolio) (userId : ℕ)
variable {rows : List BulkRow} {db db' : Db} {body : BulkBody} {result : BulkResult}

/-- What an answered import of transactions has written, and its totals. -/
theorem answer_bulkCreateTransactions
    (h : bulkCreateTransactions N js env portfolio body db = .ok (db', result)) :
    (body.mode = .allOrNothing → (passOver N js env portfolio body.rows db).errors = []) ∧
      result =
        ⟨(passOver N js env portfolio body.rows db).toInsert.length,
          (passOver N js env portfolio body.rows db).classes.passed.length +
            skippedErrors body.mode (passOver N js env portfolio body.rows db).errors,
          (passOver N js env portfolio body.rows db).errors⟩ ∧
      (transactionsEndpoint N js env portfolio).gained body.rows db db' := by
  have hpassed : (passOver N js env portfolio body.rows db).classes.passed.length =
      ((passOver N js env portfolio body.rows db).prepared.filter
        PreparedTxRow.duplicate).length := List.length_map _
  rw [hpassed]
  unfold bulkCreateTransactions at h
  obtain ⟨-, -, h⟩ := bind_eq_ok h
  obtain ⟨-, -, h⟩ := bind_eq_ok h
  obtain ⟨_, herrors, h⟩ := bind_eq_ok h
  have hnone : body.mode = .allOrNothing →
      (passOver N js env portfolio body.rows db).errors = [] :=
    fun hmode => not_not.mp fun hne => ensure_ok herrors ⟨hmode, hne⟩
  refine ⟨hnone, ?_⟩
  dsimp only at h
  split at h
  · next hnil =>
      cases h
      have htake : (passOver N js env portfolio body.rows db).toInsert = [] := hnil
      refine ⟨?_, [], (List.append_nil _).symm, ?_⟩
      · rw [htake]
        rfl
      · rw [htake]
        rfl
  · obtain ⟨db₁, hwrite, h⟩ := bind_eq_ok h
    cases h
    exact ⟨rfl, rows_writePrepared hwrite⟩

theorem answer_bulkCreateAssets
    (h : bulkCreateAssets N js env userId portfolio body db = .ok (db', result)) :
    (body.mode = .allOrNothing →
        (passOverAssets N js env portfolio userId body.rows db).errors = []) ∧
      result =
        ⟨(passOverAssets N js env portfolio userId body.rows db).prepared.length,
          skippedErrors body.mode (passOverAssets N js env portfolio userId body.rows db).errors,
          (passOverAssets N js env portfolio userId body.rows db).errors⟩ ∧
      (assetsEndpoint N js env portfolio userId).gained body.rows db db' := by
  unfold bulkCreateAssets at h
  obtain ⟨-, -, h⟩ := bind_eq_ok h
  obtain ⟨-, -, h⟩ := bind_eq_ok h
  obtain ⟨_, herrors, h⟩ := bind_eq_ok h
  have hnone : body.mode = .allOrNothing →
      (passOverAssets N js env portfolio userId body.rows db).errors = [] :=
    fun hmode => not_not.mp fun hne => ensure_ok herrors ⟨hmode, hne⟩
  refine ⟨hnone, ?_⟩
  dsimp only at h
  split at h
  · next hnil =>
      cases h
      have htake : (passOverAssets N js env portfolio userId body.rows db).prepared = [] := hnil
      refine ⟨?_, ?_⟩
      · rw [htake]
        rfl
      · show _ = _ ++ _
        rw [htake]
        exact (List.append_nil _).symm
  · obtain ⟨db₁, hwrite, h⟩ := bind_eq_ok h
    cases h
    exact ⟨rfl, keys_writeOpenings hwrite⟩

end Answers

/-- An endpoint that sorts all rows, answers with its classes and adds the rows taken accounts
for them. -/
theorem BulkEndpoint.answeredAccounting_of {e : BulkEndpoint} {rows : List BulkRow} {db : Db}
    {errors : List BulkRowError} (hcover : (e.classes rows db).Cover rows.length)
    (hreports : (e.classes rows db).reports = errors.map BulkRowError.row)
    (hanswer : ∀ mode db' result, e.run ⟨mode, rows⟩ db = .ok (db', result) →
      (mode = .allOrNothing → errors = []) ∧
        result = ⟨(e.classes rows db).taken.length,
          (e.classes rows db).passed.length + skippedErrors mode errors, errors⟩ ∧
        e.gained rows db db' ∧ e.count db' = e.count db + (e.classes rows db).taken.length) :
    e.AnsweredAccounting rows db := by
  have hlength := hcover.length
  refine ⟨fun db' result h => ?_, fun hne => ?_, fun hsilent db' result h => ?_⟩
  · obtain ⟨-, rfl, hgained, hcount⟩ := hanswer _ _ _ h
    refine ⟨hcover, fun i => ?_, rfl, ?_, hcount, hgained⟩
    · unfold Classes.reported
      rw [List.mem_dedup, hreports]
    · have hskipped : skippedErrors .skipInvalid errors = (e.classes rows db).reported.length := by
        unfold skippedErrors erroredRows Classes.reported
        rw [if_pos rfl, hreports]
      dsimp only
      omega
  · cases h : e.run ⟨.allOrNothing, rows⟩ db with
    | error f => rfl
    | ok answer =>
        obtain ⟨hnone, -⟩ := hanswer _ _ _ h
        refine absurd ?_ hne
        rw [hreports, hnone rfl]
        rfl
  · obtain ⟨-, rfl, hgained, hcount⟩ := hanswer _ _ _ h
    exact ⟨⟨hcover.of_silent hsilent, hcount, hgained⟩, rfl⟩

section Buys

variable {N : Numeric} {js : Js} {env : Env} {portfolio : Portfolio} {db : Db}
variable {raw : BulkRow} {token : Token} {body : CreateTransactionBody}

/-- A buy that the plan allows is never an error. -/
theorem errors_prepareRow_buy (hwell : WellFormed js env raw)
    (htoken : rowToken js db raw = some token) (hbody : nativeBody js env raw = .ok body)
    (hbuy : body.direction = .buy) (hplan : planRefuses (env.plan portfolio.userId) token = false)
    (row : ℕ) (b : Batch) :
    (prepareRow N js env portfolio db row raw b).errors = b.errors := by
  rw [prepareRow_eq hwell htoken hbody]
  split
  · rfl
  · have hallows : (b.see body.transactionHash).Allows (env.plan portfolio.userId) token
        (rowAmount raw) .buy := .inr hplan
    rw [hbuy]
    split
    · next herror =>
        unfold applyRunning at herror
        dsimp only at herror
        split at herror
        · cases herror
        · rw [hplan] at herror
          cases herror
    · next happly => exact (applyRunning_prepared happly).2.1

theorem errors_prepareRows_buys (hwell : WellFormed js env raw)
    (htoken : rowToken js db raw = some token) (hbody : nativeBody js env raw = .ok body)
    (hbuy : body.direction = .buy) (hplan : planRefuses (env.plan portfolio.userId) token = false)
    (n row : ℕ) (b : Batch) :
    (prepareRows N js env portfolio db (List.replicate n raw) row b).errors = b.errors := by
  induction n generalizing row b with
  | zero => rfl
  | succ n ih =>
      exact (ih (row + 1) _).trans (errors_prepareRow_buy hwell htoken hbody hbuy hplan row b)

/-- A request with too many rows is refused as a whole, in either mode. -/
theorem bulkCreateTransactions_of_cap {request : BulkBody} (hmanual : portfolio.type = .manual)
    (hcap : bulkRowCap < request.rows.length) :
    bulkCreateTransactions N js env portfolio request db = .error tooManyRows := by
  have hmanual' : ensure (portfolio.type = .manual) notManual = .ok () := if_pos hmanual
  have hcap' : ensure (request.rows.length ≤ bulkRowCap) tooManyRows = .error tooManyRows :=
    if_neg (not_le.mpr hcap)
  unfold bulkCreateTransactions
  rw [hmanual', ok_bind, hcap']
  rfl

end Buys

theorem not_accounting_of_buys {n : ℕ} (hn : bulkRowCap < n + 1) :
    ¬ (transactionsEndpoint decimal20_8 sampleJs sampleEnv samplePortfolio).BulkAccounting
      (List.replicate (n + 1) (ethRow "buy" "0xa")) sampleDb := by
  rintro ⟨-, -, hadds⟩
  have hread : ((rowToken sampleJs sampleDb (ethRow "buy" "0xa")).any fun token =>
      planRefuses (sampleEnv.plan samplePortfolio.userId) token = false) ∧
      ((nativeBody sampleJs sampleEnv (ethRow "buy" "0xa")).toOption.any fun body =>
        body.direction = .buy) ∧
      (prepareRow decimal20_8 sampleJs sampleEnv samplePortfolio sampleDb 1
        (ethRow "buy" "0xa") (Batch.load sampleDb samplePortfolio.id)).imported = [1] := by
    decide +kernel
  obtain ⟨token, htoken, hplan⟩ := (Option.any_eq_true ..).mp hread.1
  obtain ⟨body, hbody, hbuy⟩ := (Option.any_eq_true ..).mp hread.2.1
  cases hparse : nativeBody sampleJs sampleEnv (ethRow "buy" "0xa") with
  | error e =>
      rw [hparse] at hbody
      cases hbody
  | ok body' =>
      rw [hparse] at hbody
      cases hbody
      have hsilent := @errors_prepareRows_buys decimal20_8 _ _ samplePortfolio _ _ _ _
        (wellFormed_ethRow (by simp)) htoken hparse (of_decide_eq_true hbuy)
        (of_decide_eq_true hplan) (n + 1) 1 (Batch.load sampleDb samplePortfolio.id)
      have hadded := (hadds (congrArg (List.map BulkRowError.row) hsilent)).added
      have hlength : bulkRowCap < (List.replicate (n + 1) (ethRow "buy" "0xa")).length := by
        rw [List.length_replicate]
        exact hn
      have hrefused : stateAfter sampleDb ((transactionsEndpoint decimal20_8 sampleJs sampleEnv
          samplePortfolio).run ⟨.allOrNothing, List.replicate (n + 1) (ethRow "buy" "0xa")⟩
            sampleDb) = sampleDb :=
        congrArg (stateAfter sampleDb) (bulkCreateTransactions_of_cap rfl hlength)
      obtain ⟨tail, htaken, -⟩ := @imported_prepareRows decimal20_8 sampleJs sampleEnv
        samplePortfolio sampleDb (prepareRow decimal20_8 sampleJs sampleEnv samplePortfolio
          sampleDb 1 (ethRow "buy" "0xa") (Batch.load sampleDb samplePortfolio.id))
        (List.replicate n (ethRow "buy" "0xa")) 2
      rw [hread.2.2] at htaken
      have htaken' : ((transactionsEndpoint decimal20_8 sampleJs sampleEnv
          samplePortfolio).classes (List.replicate (n + 1) (ethRow "buy" "0xa"))
            sampleDb).taken = [1] ++ tail := htaken
      rw [hrefused, htaken', List.length_append, List.length_singleton] at hadded
      omega

end Neonfi.Ledger

import Neonfi.Ledger.CoherentRuns
import Neonfi.Ledger.Settle

/-!
# Bulk import against single creates

The forward pass of a bulk import decides each row from maps it loaded once; the single
endpoint decides it from the database.  Both are run side by side: as long as they decide
alike, the prepared rows written together give the state that the single creates reached.
-/

namespace Neonfi.Ledger

open Lib

/-! ## One row at a time -/

/-- The cells of the row pass the checks of the bulk endpoint, whatever its token. -/
structure WellFormed (js : Js) (env : Env) (raw : BulkRow) : Prop where
  type : ∀ row, typeErrors js row raw = []
  symbol : rowSymbol js raw ≠ ""
  amount : ∀ row, numberErrors row "amount" (cellStr raw "amount") = []
  price : ∀ row, numberErrors row "price" (cellStr raw "price") = []
  date : ∀ row, dateErrors env row raw = []
  gasFee : ∀ row, gasFeeErrors row raw = []

/-- Whether a cell is turned down does not depend on the number of its row. -/
theorem WellFormed.of_row {js : Js} {env : Env} {raw : BulkRow} {row : ℕ}
    (hsymbol : rowSymbol js raw ≠ "")
    (h : typeErrors js row raw ++ numberErrors row "amount" (cellStr raw "amount") ++
      numberErrors row "price" (cellStr raw "price") ++ dateErrors env row raw ++
      gasFeeErrors row raw = []) : WellFormed js env raw := by
  simp only [List.append_eq_nil_iff] at h
  obtain ⟨⟨⟨⟨htype, hamount⟩, hprice⟩, hdate⟩, hgas⟩ := h
  have hnumber : ∀ (column value : String), numberErrors row column value = [] →
      ∀ row', numberErrors row' column value = [] := by
    intro column value hnil row'
    unfold numberErrors at *
    split at hnil
    · cases hnil
    · next hne =>
        rw [if_neg hne, List.map_eq_nil_iff.mp hnil]
        rfl
  refine ⟨fun row' => ?_, hsymbol, hnumber _ _ hamount, hnumber _ _ hprice, fun row' => ?_,
    fun row' => ?_⟩
  · unfold typeErrors at *
    dsimp only at *
    split at htype
    · cases htype
    · next hne =>
        split at htype
        · cases htype
        · next hknown => rw [if_neg hne, if_neg hknown]
  · unfold dateErrors at *
    dsimp only at *
    split at hdate
    · cases hdate
    · next hne =>
        rw [if_neg hne, List.map_eq_nil_iff.mp hdate]
        rfl
  · unfold gasFeeErrors at *
    dsimp only at *
    split at hgas
    · next hempty => rw [if_pos hempty]
    · next hne =>
        rw [if_neg hne, List.map_eq_nil_iff.mp hgas]
        rfl

/-- The native body of a row. -/
def nativeBody (js : Js) (env : Env) (raw : BulkRow) : Except Issue CreateTransactionBody :=
  safeParse env (rowCandidate js env (rowSymbol js raw) raw)

/-- `Number(amount)`. -/
def rowAmount (raw : BulkRow) : ℚ := (decimal? (cellStr raw "amount")).getD 0

section Definitions

variable (N : Numeric) (js : Js) (env : Env) (portfolio : Portfolio)

/-- The row through the single endpoint: the state after it, when it is accepted. -/
def createRow (raw : BulkRow) (db : Db) : Option Db :=
  match nativeBody js env raw with
  | .error _ => none
  | .ok body => (createTransaction N env portfolio body db).toOption

/-- The rows through the single endpoint, in order, skipping what it rejects: the last
state and the numbers of the accepted rows. -/
def createEach : List BulkRow → ℕ → Db → Db × List ℕ
  | [], _, db => (db, [])
  | raw :: rows, row, db =>
      match createRow N js env portfolio raw db with
      | none => createEach rows (row + 1) db
      | some db' =>
          let rest := createEach rows (row + 1) db'
          (rest.1, row :: rest.2)

end Definitions

def Batch.toInsert (b : Batch) : List PreparedTxRow := b.prepared.filter fun p => !p.duplicate

def Batch.imported (b : Batch) : List ℕ := b.toInsert.map PreparedTxRow.row

section Definitions

variable (N : Numeric) (js : Js) (env : Env) (portfolio : Portfolio)

/-- The numbers of the rows a bulk import writes. -/
def importedRows (rows : List BulkRow) (db : Db) : List ℕ :=
  (prepareRows N js env portfolio db rows 1 (Batch.load db portfolio.id)).imported

/-- The import answers with the rows and the state of the single creates. -/
def BulkParity (rows : List BulkRow) (db : Db) : Prop :=
  ∃ result, bulkCreateTransactions N js env portfolio ⟨.skipInvalid, rows⟩ db = .ok result ∧
    result.1 = (createEach N js env portfolio rows 1 db).1 ∧
    importedRows N js env portfolio rows db = (createEach N js env portfolio rows 1 db).2 ∧
    result.2.imported = (createEach N js env portfolio rows 1 db).2.length

/-! ## When the two agree on a row -/

/-- The rules of the single endpoint on the holding: a buy of an unheld token passes the
plan gate, a sell is within the stored balance. -/
def Admits (token : Token) (amount : ℚ) (direction : Direction) (db : Db) : Prop :=
  match direction with
  | .buy =>
      (db.findAsset portfolio.id token.id).isSome ∨
        planRefuses (env.plan portfolio.userId) token = false
  | _ => ∃ a, db.findAsset portfolio.id token.id = some a ∧ amount ≤ a.balance

/-- No stored row has the hash of the body. -/
def FreshHash (portfolioId : ℕ) (body : CreateTransactionBody) (db : Db) : Prop :=
  ∀ hash, body.transactionHash = some hash → hashTaken db portfolioId hash = false

/-- The write of the row stays within the columns. -/
def WriteFits (body : CreateTransactionBody) (db : Db) : Prop :=
  createTransaction N env portfolio body db ≠ .error numericOverflow

/-- `running` is the starting balance changed by the amounts of the imported rows as they
were written, `turnedDown` the hashes of the rows that were turned down. -/
def RowAgrees (token : Token) (amount : ℚ) (body : CreateTransactionBody) (running : ℕ → ℚ)
    (turnedDown : List String) (db : Db) : Prop :=
  FreshHash portfolio.id body db →
    if ∃ hash ∈ turnedDown, body.transactionHash = some hash then
      ¬ (Admits env portfolio token amount body.direction db ∧ WriteFits N env portfolio body db)
    else
      match body.direction with
      | .buy =>
          Admits env portfolio token amount .buy db → WriteFits N env portfolio body db
      | _ => ∀ a, db.findAsset portfolio.id token.id = some a →
          (amount ≤ running token.id ↔ amount ≤ a.balance ∧ WriteFits N env portfolio body db)

def advance (direction : Direction) (tokenId : ℕ) (amount : ℚ) (running : ℕ → ℚ) : ℕ → ℚ :=
  Function.update running tokenId
    (if direction = .buy then running tokenId + amount else running tokenId - amount)

/-- Every row of the list agrees, on the state the single creates have reached before it. -/
def RowsAgree : List BulkRow → (ℕ → ℚ) → List String → Db → Prop
  | [], _, _, _ => True
  | raw :: rows, running, turnedDown, db =>
      match rowToken js db raw, nativeBody js env raw with
      | some token, .ok body =>
          RowAgrees N env portfolio token (rowAmount raw) body running turnedDown db ∧
            match createTransaction N env portfolio body db with
            | .ok db' =>
                RowsAgree rows (advance body.direction token.id (rowAmount raw) running)
                  turnedDown db'
            | .error _ =>
                RowsAgree rows running (turnedDown ++ body.transactionHash.toList) db
      | _, _ => RowsAgree rows running turnedDown db

end Definitions

/-! ## The single endpoint on a native body -/

theorem createTransactionRow_error {data : TransactionData} {db : Db} {e : Failure}
    (h : db.createTransactionRow data = .error e) : e = uniqueViolation := by
  unfold Db.createTransactionRow at h
  split at h
  · cases h
  · cases h
    rfl

/-- The row an accepted body is written as. -/
def acceptedRow (N : Numeric) (env : Env) (portfolio : Portfolio) (body : CreateTransactionBody)
    (trade : TradeFields) (token : Token) (db : Db) (row : ℕ) : PreparedTxRow where
  row := row
  tokenId := token.id
  body := body
  usdValue := computeUsdValue N env db trade.symbol trade.amount
    (trade.priceAtTime.map Subtype.val)
  createAsset := (db.findAsset portfolio.id token.id).isNone
  duplicate := false

section Single

variable {N : Numeric} {env : Env} {portfolio : Portfolio} {db db' : Db}
variable {body : CreateTransactionBody} {trade : TradeFields} {token : Token}

theorem resolveAutoCreate_of_admits (hdir : body.direction ≠ .transfer)
    (h : Admits env portfolio token trade.amount body.direction db) :
    resolveAutoCreate env portfolio body.direction token db =
        .ok (db.findAsset portfolio.id token.id).isNone ∧
      guardOversell portfolio.id token.id body.direction trade.amount db = .ok () := by
  unfold resolveAutoCreate guardOversell
  cases hdirection : body.direction with
  | transfer => exact absurd hdirection hdir
  | buy =>
      rw [hdirection] at h
      cases hfind : db.findAsset portfolio.id token.id with
      | some a => exact ⟨rfl, rfl⟩
      | none =>
          have hplan : planRefuses (env.plan portfolio.userId) token = false := by
            rcases h with h | h
            · rw [hfind] at h
              cases h
            · exact h
          simp [hplan]
  | sell =>
      rw [hdirection] at h
      obtain ⟨a, hfind, hle⟩ := h
      rw [hfind]
      simp [require, ensure, ok_bind, hle]

/-- An admitted body is written, settled and committed. -/
theorem createTransaction_of_admits (hmanual : portfolio.type = .manual)
    (hpayload : body.payload = .native trade) (hdir : body.direction ≠ .transfer)
    (htoken : db.findTokenBySymbol trade.symbol = some token)
    (h : Admits env portfolio token trade.amount body.direction db) (row : ℕ) :
    createTransaction N env portfolio body db =
      match insertPrepared N portfolio.id db
        (acceptedRow N env portfolio body trade token db row) with
      | .ok db₁ => (settle N portfolio.id [token.id] db₁).commit N
      | .error _ => .error transactionHashDuplicate := by
  obtain ⟨hauto, hguard⟩ := resolveAutoCreate_of_admits hdir h
  have hassert := assertManualPortfolio_eq hmanual
  have hresolve := resolveToken_of_found htoken
  obtain ⟨assets, hcreate⟩ := @exists_createIfNeeded _ portfolio.id token.id db
    Option.isNone_iff_eq_none.mp
  unfold createTransaction
  rw [hassert, ok_bind, hpayload]
  dsimp only
  unfold createTrade
  rw [hresolve, ok_bind, hauto, ok_bind]
  dsimp only
  rw [hguard, ok_bind, hcreate, ok_bind]
  unfold insertPrepared acceptedRow
  dsimp only
  rw [hcreate, ok_bind]
  unfold insertTransaction
  generalize { db with assets } = db₁
  cases hrow : db₁.createTransactionRow (body.row N portfolio.id
      (computeUsdValue N env db trade.symbol trade.amount (trade.priceAtTime.map Subtype.val))) with
  | ok db₂ => rfl
  | error e =>
      rw [createTransactionRow_error hrow]
      rfl

theorem refused_of_not_admits (hdir : body.direction ≠ .transfer)
    (h : ¬ Admits env portfolio token trade.amount body.direction db) :
    ∃ e, e ≠ numericOverflow ∧
      (resolveAutoCreate env portfolio body.direction token db = .error e ∨
        ∃ auto, resolveAutoCreate env portfolio body.direction token db = .ok auto ∧
          guardOversell portfolio.id token.id body.direction trade.amount db = .error e) := by
  unfold resolveAutoCreate guardOversell
  cases hdirection : body.direction with
  | transfer => exact absurd hdirection hdir
  | buy =>
      rw [hdirection] at h
      obtain ⟨hheld, hplan⟩ := not_or.mp h
      refine ⟨planLimitReached, by decide, .inl ?_⟩
      simp [hheld, Bool.not_eq_false _ ▸ hplan]
  | sell =>
      rw [hdirection] at h
      cases hfind : db.findAsset portfolio.id token.id with
      | none => exact ⟨assetNotInPortfolio, by decide, .inl (by simp)⟩
      | some a =>
          have hlt : ¬ trade.amount.val ≤ a.balance := fun hle => h ⟨a, hfind, hle⟩
          refine ⟨insufficientBalance, by decide, .inr ⟨false, by simp, ?_⟩⟩
          simp [require, ensure, ok_bind, hlt]

theorem createTransaction_of_not_admits (hmanual : portfolio.type = .manual)
    (hpayload : body.payload = .native trade) (hdir : body.direction ≠ .transfer)
    (htoken : db.findTokenBySymbol trade.symbol = some token)
    (h : ¬ Admits env portfolio token trade.amount body.direction db) :
    ∃ e, createTransaction N env portfolio body db = .error e ∧ e ≠ numericOverflow := by
  obtain ⟨e, hne, hrefused⟩ := refused_of_not_admits hdir h
  have hassert := assertManualPortfolio_eq hmanual
  have hresolve := resolveToken_of_found htoken
  refine ⟨e, ?_, hne⟩
  unfold createTransaction
  rw [hassert, ok_bind, hpayload]
  dsimp only
  unfold createTrade
  rw [hresolve, ok_bind]
  rcases hrefused with hauto | ⟨auto, hauto, hguard⟩
  · rw [hauto, error_bind]
  · rw [hauto, ok_bind]
    dsimp only
    rw [hguard, error_bind]

/-- The insert fails exactly on a hash that is taken. -/
theorem insertPrepared_ok_iff {r : PreparedTxRow}
    (hcreate : r.createAsset = true → db.findAsset portfolio.id r.tokenId = none) :
    (∃ db₁, insertPrepared N portfolio.id db r = .ok db₁) ↔
      FreshHash portfolio.id r.body db := by
  obtain ⟨assets, hasset⟩ := exists_createIfNeeded hcreate
  have hkey : ∀ hash, hashTaken db portfolio.id hash = false ↔
      (portfolio.id, hash) ∉ db.transactions.rows.filterMap Transaction.hashKey := by
    intro hash
    unfold hashTaken
    rw [List.any_eq_false, List.mem_filterMap]
    simp
  unfold insertPrepared
  rw [hasset, ok_bind]
  unfold Db.createTransactionRow
  constructor
  · rintro ⟨db₁, h⟩ hash hhash
    split at h
    · next transactions hinsert =>
        rw [hkey]
        intro hmem
        have hnone : db.transactions.insert?
            (fun id => { r.body.row N portfolio.id r.usdValue with id }) (fun _ => rfl) = none :=
          SerialTable.insert?_eq_none_iff.mpr ⟨(portfolio.id, hash),
            by simp [Transaction.hashKey, CreateTransactionBody.row, hhash], hmem⟩
        have hsome := hnone.symm.trans hinsert
        cases hsome
    · cases h
  · intro hfresh
    split
    · exact ⟨_, rfl⟩
    · next hinsert =>
        obtain ⟨k, hk, hmem⟩ := SerialTable.insert?_eq_none_iff.mp hinsert
        simp only [Transaction.hashKey, CreateTransactionBody.row, Option.map_eq_some_iff] at hk
        obtain ⟨hash, hhash, rfl⟩ := hk
        exact absurd hmem ((hkey hash).mp (hfresh hash hhash))

/-- A body is accepted when it is admitted, its hash is fresh and its write fits. -/
theorem createTransaction_ok_iff (hmanual : portfolio.type = .manual)
    (hpayload : body.payload = .native trade) (hdir : body.direction ≠ .transfer)
    (htoken : db.findTokenBySymbol trade.symbol = some token) :
    (∃ db', createTransaction N env portfolio body db = .ok db') ↔
      Admits env portfolio token trade.amount body.direction db ∧
        FreshHash portfolio.id body db ∧ WriteFits N env portfolio body db := by
  unfold WriteFits
  by_cases hadmits : Admits env portfolio token trade.amount body.direction db
  · rw [createTransaction_of_admits hmanual hpayload hdir htoken hadmits 0]
    have hfresh := @insertPrepared_ok_iff N portfolio db (acceptedRow N env portfolio body trade
        token db 0) Option.isNone_iff_eq_none.mp
    cases hinsert : insertPrepared N portfolio.id db
        (acceptedRow N env portfolio body trade token db 0) with
    | error e =>
        have hnot : ¬ FreshHash portfolio.id body db := by
          intro h
          obtain ⟨db₁, hok⟩ := hfresh.mpr h
          rw [hinsert] at hok
          cases hok
        simp [hnot]
    | ok db₁ =>
        have hyes : FreshHash portfolio.id body db := hfresh.mp ⟨db₁, hinsert⟩
        dsimp only
        unfold Db.commit
        split <;> simp [hadmits, hyes]
  · obtain ⟨e, herror, -⟩ :=
      createTransaction_of_not_admits (N := N) hmanual hpayload hdir htoken hadmits
    rw [herror]
    simp [hadmits]

/-- An accepted body is written as its row and settled. -/
theorem createTransaction_ok_spec (hmanual : portfolio.type = .manual)
    (hpayload : body.payload = .native trade) (hdir : body.direction ≠ .transfer)
    (htoken : db.findTokenBySymbol trade.symbol = some token)
    (h : createTransaction N env portfolio body db = .ok db') (row : ℕ) :
    ∃ db₁, insertPrepared N portfolio.id db
        (acceptedRow N env portfolio body trade token db row) = .ok db₁ ∧
      db' = settle N portfolio.id [token.id] db₁ ∧ db'.fits N := by
  obtain ⟨hadmits, -, -⟩ :=
    (createTransaction_ok_iff hmanual hpayload hdir htoken).mp ⟨db', h⟩
  rw [createTransaction_of_admits hmanual hpayload hdir htoken hadmits row] at h
  split at h
  · next db₁ hinsert =>
      obtain ⟨rfl, hfits⟩ := commit_ok h
      exact ⟨db₁, hinsert, rfl, hfits⟩
  · cases h

end Single

/-! ## What an accepted row changes -/

section Written

variable {N : Numeric} {p : ℕ} {db db₁ : Db} {r : PreparedTxRow}

theorem hashTaken_createTransactionRow {data : TransactionData}
    (h : db.createTransactionRow data = .ok db₁) (hp : data.portfolioId = p) (hash : String) :
    hashTaken db₁ p hash = (hashTaken db p hash || data.transactionHash == some hash) := by
  obtain ⟨transactions, rfl, hrows⟩ := createTransactionRow_ok h
  unfold hashTaken
  rw [hrows, List.any_append]
  congr 1
  cases hhash : data.transactionHash with
  | none => simp [Transaction.hashKey, hhash]
  | some hash' =>
      simp only [Transaction.hashKey, hhash, hp, Option.map_some, List.any_cons, List.any_nil,
        Bool.or_false, Option.some.injEq, Prod.mk.injEq, true_and, Option.some_beq_some]
      rfl

theorem insertPrepared_spec (h : insertPrepared N p db r = .ok db₁) :
    (∀ t, (db₁.findAsset p t).isSome =
      ((db.findAsset p t).isSome || (r.createAsset && decide (t = r.tokenId)))) ∧
    (∀ hash, hashTaken db₁ p hash =
      (hashTaken db p hash || r.body.transactionHash == some hash)) ∧
    db₁.tokens = db.tokens ∧ db₁.portfolios = db.portfolios := by
  unfold insertPrepared at h
  obtain ⟨db₂, hcreate, hrow⟩ := bind_eq_ok h
  have hhash := hashTaken_createTransactionRow hrow (p := p) rfl
  obtain ⟨transactions, rfl, -⟩ := createTransactionRow_ok hrow
  unfold createIfNeeded at hcreate
  cases hneeded : r.createAsset with
  | false =>
      rw [hneeded] at hcreate
      cases hcreate
      exact ⟨fun t => by simp [Db.findAsset], hhash, rfl, rfl⟩
  | true =>
      rw [hneeded] at hcreate
      obtain ⟨assets, rfl, hrows, hfree⟩ := createAsset_ok hcreate
      refine ⟨fun t => ?_, hhash, rfl, rfl⟩
      show (assets.find? (p, t)).isSome = ((db.assets.find? (p, t)).isSome || _)
      unfold Table.find?
      rw [hrows, List.find?_append, Option.isSome_or]
      congr 1
      by_cases ht : t = r.tokenId
      · simp [ht, emptyAsset, Asset.key]
      · have hne : ¬ r.tokenId = t := fun h => ht h.symm
        simp [ht, hne, emptyAsset, Asset.key]

/-- The accepted rows written to the start state mirror the state of the single creates. -/
structure WrittenTo (N : Numeric) (p : ℕ) (db₀ : Db) (accepted : List PreparedTxRow)
    (db : Db) : Prop where
  nothing : accepted = [] → db = db₀
  mirror : ∃ ins, accepted.foldlM (insertPrepared N p) db₀ = .ok ins ∧
    ins.tokens = db₀.tokens ∧ ins.portfolios = db₀.portfolios ∧
    Mirrors N p (accepted.map PreparedTxRow.tokenId) ins db
  settled : accepted ≠ [] → recalcPortfolioNetDeposit N p db = db ∧ db.fits N

theorem mirrors_settle {tokenId : ℕ}
    (hmanual : (db.findPortfolioById p).map Portfolio.type ≠ some .connected) :
    Mirrors N p [tokenId] db (settle N p [tokenId] db) :=
  ((@Mirrors.refl N p db).recalc hmanual).total

theorem recalcPortfolioNetDeposit_idem :
    recalcPortfolioNetDeposit N p (recalcPortfolioNetDeposit N p db) =
      recalcPortfolioNetDeposit N p db :=
  Mirrors.settle_eq Mirrors.refl.total Mirrors.refl

namespace WrittenTo

variable {db₀ : Db} {accepted : List PreparedTxRow}

theorem start : WrittenTo N p db₀ [] db₀ where
  nothing _ := rfl
  mirror := ⟨db₀, rfl, rfl, rfl, .refl⟩
  settled h := absurd rfl h

theorem tokens_eq (h : WrittenTo N p db₀ accepted db) : db.tokens = db₀.tokens := by
  obtain ⟨ins, -, htokens, -, hmirror⟩ := h.mirror
  exact hmirror.tokens.trans htokens

theorem type_ne (h : WrittenTo N p db₀ accepted db)
    (hmanual : (db₀.findPortfolioById p).map Portfolio.type ≠ some .connected) :
    (db.findPortfolioById p).map Portfolio.type ≠ some .connected := by
  obtain ⟨ins, -, -, hportfolios, hmirror⟩ := h.mirror
  rw [hmirror.type_eq]
  unfold Db.findPortfolioById at *
  rwa [hportfolios]

/-- One more accepted row. -/
theorem accept {db' : Db} {trade : TradeFields} {token : Token}
    (h : WrittenTo N p db₀ accepted db)
    (hmanual : (db₀.findPortfolioById p).map Portfolio.type ≠ some .connected)
    (hpayload : r.body.payload = .native trade)
    (htoken : db.findTokenBySymbol trade.symbol = some token) (hid : r.tokenId = token.id)
    (hinsert : insertPrepared N p db r = .ok db₁)
    (hsettle : db' = settle N p [r.tokenId] db₁) (hfits : db'.fits N) :
    WrittenTo N p db₀ (accepted ++ [r]) db' := by
  obtain ⟨ins, hfold, htokens, hportfolios, hmirror⟩ := h.mirror
  have hmanual' : (ins.findPortfolioById p).map Portfolio.type ≠ some .connected := by
    unfold Db.findPortfolioById at *
    rwa [hportfolios]
  have htoken' : ins.findTokenBySymbol trade.symbol = some token := by
    unfold Db.findTokenBySymbol at *
    rwa [← hmirror.tokens]
  obtain ⟨ins', hinsert', htokens', hportfolios', hmirror'⟩ :=
    hmirror.insert hmanual' hpayload htoken' hid hinsert
  refine ⟨fun hnil => by simp at hnil, ⟨ins', ?_, htokens'.trans htokens,
    hportfolios'.trans hportfolios, ?_⟩, fun _ => ⟨?_, hfits⟩⟩
  · rw [List.foldlM_append, hfold, ok_bind, List.foldlM_cons, hinsert']
    rfl
  · rw [List.map_append, hsettle]
    exact hmirror'.total
  · rw [hsettle]
    exact recalcPortfolioNetDeposit_idem

/-- The write transaction of the accepted rows ends in the state of the single creates. -/
theorem writePrepared (h : WrittenTo N p db₀ accepted db) (hsome : accepted ≠ [])
    (hmanual : (db₀.findPortfolioById p).map Portfolio.type ≠ some .connected) :
    Ledger.writePrepared N p accepted db₀ = .ok db := by
  obtain ⟨ins, hfold, htokens, hportfolios, hmirror⟩ := h.mirror
  obtain ⟨hsettled, hfits⟩ := h.settled hsome
  have hmanual' : (ins.findPortfolioById p).map Portfolio.type ≠ some .connected := by
    unfold Db.findPortfolioById at *
    rwa [hportfolios]
  have hbatch := @Mirrors.recalcList _ _ _ _ _ (@Mirrors.refl N p ins)
      ((accepted.map PreparedTxRow.tokenId).dedup) hmanual'
  have hsame := @Mirrors.congr _ _ _ _ _ hmirror ([] ++ (accepted.map PreparedTxRow.tokenId).dedup)
      fun t => by simp
  have heq := hbatch.settle_eq hsame
  unfold Ledger.writePrepared
  rw [hfold, ok_bind]
  dsimp only
  rw [heq, hsettled]
  unfold Db.commit
  rw [if_pos hfits]

end WrittenTo

end Written

/-! ## One row of the forward pass -/

/-- The rules of the forward pass: as those of the single endpoint, on the loaded maps and
the running balance. -/
def Batch.Allows (b : Batch) (plan : Plan) (token : Token) (amount : ℚ)
    (direction : Direction) : Prop :=
  match direction with
  | .buy => b.heldTokens token.id = true ∨ planRefuses plan token = false
  | _ => b.heldTokens token.id = true ∧ amount ≤ b.runningBalance token.id

section Pass

variable {N : Numeric} {js : Js} {env : Env} {portfolio : Portfolio} {db₀ db db' : Db}
variable {b : Batch} {plan : Plan} {token : Token} {amount : ℚ} {direction : Direction}
variable {cell : String}

theorem applyRunning_of_allows (h : b.Allows plan token amount direction)
    (hzero : b.heldTokens token.id = false → b.runningBalance token.id = 0) :
    ∃ b', applyRunning js plan token direction cell amount b =
        .ok (b', !b.heldTokens token.id) ∧ b'.prepared = b.prepared ∧
      b'.seenHashes = b.seenHashes ∧
      (∀ t, b'.heldTokens t = (b.heldTokens t || decide (t = token.id))) ∧
      b'.runningBalance = advance direction token.id amount b.runningBalance := by
  have hheld : b.heldTokens token.id = true →
      ∀ t, b.heldTokens t = (b.heldTokens t || decide (t = token.id)) := by
    intro htrue t
    by_cases ht : t = token.id
    · simp [ht, htrue]
    · simp [ht]
  have hsell : direction ≠ .buy → b.heldTokens token.id = true ∧
      amount ≤ b.runningBalance token.id → ∃ b',
        applyRunning js plan token direction cell amount b = .ok (b', !b.heldTokens token.id) ∧
      b'.prepared = b.prepared ∧ b'.seenHashes = b.seenHashes ∧
      (∀ t, b'.heldTokens t = (b.heldTokens t || decide (t = token.id))) ∧
      b'.runningBalance = advance direction token.id amount b.runningBalance := by
    rintro hdir ⟨htrue, hle⟩
    refine ⟨b.setBalance token.id (b.runningBalance token.id - amount), ?_, rfl, rfl,
      hheld htrue, ?_⟩
    · unfold applyRunning
      cases direction with
      | buy => exact absurd rfl hdir
      | sell => simp [htrue, not_lt.mpr hle]
      | transfer => simp [htrue, not_lt.mpr hle]
    · unfold advance
      rw [if_neg hdir]
      rfl
  cases direction with
  | sell => exact hsell (by decide) h
  | transfer => exact hsell (by decide) h
  | buy =>
      cases htrue : b.heldTokens token.id with
      | true =>
          refine ⟨b.setBalance token.id (b.runningBalance token.id + amount), ?_, rfl, rfl,
            hheld htrue, rfl⟩
          unfold applyRunning
          simp [htrue]
      | false =>
          have hplan : planRefuses plan token = false := by
            rcases h with h | h
            · rw [htrue] at h
              cases h
            · exact h
          refine ⟨{ b with heldTokens := Function.update b.heldTokens token.id true }.setBalance
            token.id (0 + amount), ?_, rfl, rfl, fun t => ?_, ?_⟩
          · unfold applyRunning
            simp [htrue, hplan]
          · show Function.update b.heldTokens token.id true t = _
            by_cases ht : t = token.id
            · simp [ht]
            · simp [ht]
          · unfold advance
            rw [hzero htrue, if_pos rfl]
            rfl

theorem applyRunning_of_not_allows (h : ¬ b.Allows plan token amount direction) :
    ∃ e, applyRunning js plan token direction cell amount b = .error e := by
  unfold applyRunning
  unfold Batch.Allows at h
  split
  · obtain ⟨hheld, hplan⟩ := not_or.mp h
    simp [hheld, Bool.not_eq_false _ ▸ hplan]
  · next hdir =>
      have hnot : ¬ (b.heldTokens token.id = true ∧ amount ≤ b.runningBalance token.id) := by
        cases direction with
        | buy => exact absurd rfl hdir
        | sell => exact h
        | transfer => exact h
      by_cases hheld : b.heldTokens token.id = true
      · have hlt : b.runningBalance token.id < amount := not_le.mp fun hle => hnot ⟨hheld, hle⟩
        simp [hheld, hlt]
      · simp [hheld]

/-- The hash of the body is stored, or an earlier row of the batch had it. -/
def Batch.Known (b : Batch) (db₀ : Db) (portfolioId : ℕ) (body : CreateTransactionBody) : Prop :=
  ∃ hash, body.transactionHash = some hash ∧
    (hashTaken db₀ portfolioId hash || b.seenHashes.contains hash) = true

theorem cellErrors_eq_nil {raw : BulkRow} (h : WellFormed js env raw)
    (htoken : rowToken js db₀ raw = some token) (row : ℕ) :
    cellErrors js env db₀ row raw = [] := by
  unfold cellErrors symbolErrors
  rw [h.type, h.amount, h.price, h.date, h.gasFee, htoken, if_neg h.symbol]
  rfl

theorem prepareRow_of_no_token {raw : BulkRow} (htoken : rowToken js db₀ raw = none) (row : ℕ) :
    ∃ errors, prepareRow N js env portfolio db₀ row raw b = { b with errors } := by
  unfold prepareRow
  rw [htoken]
  split
  · next heq => cases heq
  · exact ⟨_, rfl⟩

/-- What parsing a well-formed row gives: the amounts of its cells under the catalog
symbol. -/
theorem nativeBody_ok {raw : BulkRow} {body : CreateTransactionBody}
    (htoken : rowToken js db₀ raw = some token)
    (h : nativeBody js env raw = .ok body) :
    safeParse env (rowCandidate js env token.symbol raw) = .ok body ∧
      ∃ trade price, body.payload = .native trade ∧
        db₀.findTokenBySymbol trade.symbol = some token ∧ body.direction ≠ .transfer ∧
        rowAmount raw = trade.amount.val ∧
        trade.priceAtTime = some price ∧ (decimal? (cellStr raw "price")).getD 0 = price.val := by
  have hfound : db₀.findTokenBySymbol (rowSymbol js raw) = some token := by
    unfold rowToken at htoken
    split at htoken
    · cases htoken
    · exact htoken
  have hsymbol : token.symbol = rowSymbol js raw := (findTokenBySymbol_eq hfound).2
  unfold nativeBody at h
  obtain ⟨trade, price, hpayload, hamount, htsymbol, hprice, hpriceCell, hdir, -, -⟩ :=
    safeParse_ok h
  refine ⟨hsymbol ▸ h, trade, price, hpayload, ?_, ?_, ?_, hprice, ?_⟩
  · rw [htsymbol]
    exact hfound
  · rw [hdir]
    show rowDirection js raw ≠ .transfer
    unfold rowDirection
    split <;> decide
  · unfold rowAmount
    rw [show decimal? (cellStr raw "amount") = some trade.amount.val from hamount]
    rfl
  · rw [show decimal? (cellStr raw "price") = some price.val from hpriceCell]
    rfl

theorem prepareRow_eq {raw : BulkRow} {body : CreateTransactionBody}
    (hwell : WellFormed js env raw) (htoken : rowToken js db₀ raw = some token)
    (hbody : nativeBody js env raw = .ok body) (row : ℕ) :
    prepareRow N js env portfolio db₀ row raw b =
      if (body.transactionHash.any fun hash =>
          hashTaken db₀ portfolio.id hash || b.seenHashes.contains hash) then
        { b with prepared := b.prepared ++ [⟨row, token.id, body, 0, false, true⟩] }
      else
        match applyRunning js (env.plan portfolio.userId) token body.direction
            (cellStr raw "amount") (rowAmount raw) (b.see body.transactionHash) with
        | .error (column, message) =>
            (b.see body.transactionHash).addError row (some column) message
        | .ok (b', createAsset) =>
            { b' with
              prepared := b'.prepared ++
                [⟨row, token.id, body,
                  computeUsdValue N env db₀ token.symbol (rowAmount raw)
                    (some ((decimal? (cellStr raw "price")).getD 0)),
                  createAsset, false⟩] } := by
  unfold prepareRow
  rw [cellErrors_eq_nil hwell htoken row, htoken]
  dsimp only
  rw [(nativeBody_ok htoken hbody).1]
  rfl

theorem known_iff {body : CreateTransactionBody} :
    (body.transactionHash.any fun hash =>
      hashTaken db₀ portfolio.id hash || b.seenHashes.contains hash) = true ↔
        b.Known db₀ portfolio.id body := by
  rw [Option.any_eq_true]
  rfl

theorem toInsert_concat {r : PreparedTxRow} :
    ({ b with prepared := b.prepared ++ [r] } : Batch).toInsert =
      b.toInsert ++ if r.duplicate then [] else [r] := by
  unfold Batch.toInsert
  rw [List.filter_append]
  cases hduplicate : r.duplicate <;> simp [hduplicate]

section Row

variable {raw : BulkRow} {body : CreateTransactionBody} {trade : TradeFields}
variable (hwell : WellFormed js env raw) (htoken : rowToken js db₀ raw = some token)
  (hbody : nativeBody js env raw = .ok body) (row : ℕ)

include hwell htoken hbody

/-- A row with a known hash is skipped. -/
theorem prepareRow_of_known (h : b.Known db₀ portfolio.id body) :
    (prepareRow N js env portfolio db₀ row raw b).toInsert = b.toInsert ∧
      (prepareRow N js env portfolio db₀ row raw b).heldTokens = b.heldTokens ∧
      (prepareRow N js env portfolio db₀ row raw b).runningBalance = b.runningBalance ∧
      (prepareRow N js env portfolio db₀ row raw b).seenHashes = b.seenHashes := by
  rw [prepareRow_eq hwell htoken hbody, if_pos (known_iff.mpr h)]
  refine ⟨?_, rfl, rfl, rfl⟩
  rw [toInsert_concat]
  exact List.append_nil _

/-- A row that the rules turn down leaves its hash behind. -/
theorem prepareRow_of_not_allows (h : ¬ b.Known db₀ portfolio.id body)
    (hrule : ¬ b.Allows (env.plan portfolio.userId) token (rowAmount raw) body.direction) :
    (prepareRow N js env portfolio db₀ row raw b).toInsert = b.toInsert ∧
      (prepareRow N js env portfolio db₀ row raw b).heldTokens = b.heldTokens ∧
      (prepareRow N js env portfolio db₀ row raw b).runningBalance = b.runningBalance ∧
      (prepareRow N js env portfolio db₀ row raw b).seenHashes =
        b.seenHashes ++ body.transactionHash.toList := by
  obtain ⟨⟨column, message⟩, herror⟩ := @applyRunning_of_not_allows js (b.see body.transactionHash)
      _ _ _ _ (cellStr raw "amount") hrule
  rw [prepareRow_eq hwell htoken hbody, if_neg (mt known_iff.mp h), herror]
  exact ⟨rfl, rfl, rfl, rfl⟩

/-- A row that the rules let through is prepared as the single endpoint writes it. -/
theorem prepareRow_of_allows (hpayload : body.payload = .native trade)
    (hheld : b.heldTokens token.id = (db.findAsset portfolio.id token.id).isSome)
    (hzero : b.heldTokens token.id = false → b.runningBalance token.id = 0)
    (h : ¬ b.Known db₀ portfolio.id body)
    (hrule : b.Allows (env.plan portfolio.userId) token (rowAmount raw) body.direction) :
    (prepareRow N js env portfolio db₀ row raw b).toInsert =
        b.toInsert ++ [acceptedRow N env portfolio body trade token db row] ∧
      (∀ t, (prepareRow N js env portfolio db₀ row raw b).heldTokens t =
        (b.heldTokens t || decide (t = token.id))) ∧
      (prepareRow N js env portfolio db₀ row raw b).runningBalance =
        advance body.direction token.id (rowAmount raw) b.runningBalance ∧
      (prepareRow N js env portfolio db₀ row raw b).seenHashes =
        b.seenHashes ++ body.transactionHash.toList := by
  obtain ⟨-, trade', price, hpayload', -, -, hamount, hprice, hpriceCell⟩ :=
    nativeBody_ok htoken hbody
  rw [hpayload] at hpayload'
  cases hpayload'
  obtain ⟨b', happly, hprepared, hseen, hheld', hrunning⟩ := @applyRunning_of_allows js
      (b.see body.transactionHash) _ _ _ _ (cellStr raw "amount") hrule hzero
  rw [prepareRow_eq hwell htoken hbody, if_neg (mt known_iff.mp h), happly]
  dsimp only
  refine ⟨?_, hheld', hrunning, hseen⟩
  rw [toInsert_concat]
  have hsame : b'.toInsert = b.toInsert := by
    unfold Batch.toInsert
    rw [hprepared]
    rfl
  have hflag : (!(b.see body.transactionHash).heldTokens token.id) =
      (db.findAsset portfolio.id token.id).isNone := by
    rw [← Option.not_isSome, ← hheld]
    rfl
  have husd : computeUsdValue N env db₀ token.symbol (rowAmount raw) (some price.val) =
      computeUsdValue N env db trade.symbol trade.amount
        (trade.priceAtTime.map Subtype.val) := by
    rw [hprice, Option.map_some, computeUsdValue_entered price.property.1,
      computeUsdValue_entered price.property.1, hamount]
  rw [hsame, hpriceCell, husd, hflag]
  rfl

end Row

/-! ## Both runs in step -/

/-- The forward pass and the single creates have decided alike so far. -/
structure InStep (N : Numeric) (portfolio : Portfolio) (db₀ : Db) (b : Batch)
    (running : ℕ → ℚ) (turnedDown : List String) (db : Db) : Prop where
  held : ∀ t, b.heldTokens t = (db.findAsset portfolio.id t).isSome
  balances : b.runningBalance = running
  unheld : ∀ t, b.heldTokens t = false → running t = 0
  seen : ∀ hash, (hashTaken db₀ portfolio.id hash || b.seenHashes.contains hash) =
    (hashTaken db portfolio.id hash || turnedDown.contains hash)
  written : WrittenTo N portfolio.id db₀ b.toInsert db

namespace InStep

variable {running : ℕ → ℚ} {turnedDown : List String}
variable {raw : BulkRow} {body : CreateTransactionBody} {trade : TradeFields}

theorem load : InStep N portfolio db₀ (Batch.load db₀ portfolio.id)
    (Batch.load db₀ portfolio.id).runningBalance [] db₀ where
  held _ := rfl
  balances := rfl
  unheld t h := by
    have hnone : db₀.findAsset portfolio.id t = none := by simpa [Batch.load] using h
    show ((db₀.findAsset portfolio.id t).map Asset.balance).getD 0 = 0
    rw [hnone]
    rfl
  seen _ := rfl
  written := .start

theorem of_errors (h : InStep N portfolio db₀ b running turnedDown db)
    (errors : List BulkRowError) :
    InStep N portfolio db₀ { b with errors } running turnedDown db :=
  ⟨h.held, h.balances, h.unheld, h.seen, h.written⟩

theorem known_iff (h : InStep N portfolio db₀ b running turnedDown db) :
    b.Known db₀ portfolio.id body ↔ ¬ FreshHash portfolio.id body db ∨
      ∃ hash ∈ turnedDown, body.transactionHash = some hash := by
  unfold Batch.Known FreshHash
  cases hhash : body.transactionHash with
  | none => simp
  | some hash =>
      have hseen := h.seen hash
      rw [Bool.eq_iff_iff] at hseen
      simp only [Option.some.injEq, exists_eq_left', forall_eq', hseen, Bool.not_eq_false,
        exists_eq_right']
      simp only [Bool.or_eq_true, List.contains_iff_mem]

theorem allows_iff (h : InStep N portfolio db₀ b running turnedDown db) :
    b.Allows (env.plan portfolio.userId) token amount direction ↔
      match direction with
      | .buy => Admits env portfolio token amount .buy db
      | _ => (db.findAsset portfolio.id token.id).isSome ∧ amount ≤ running token.id := by
  unfold Batch.Allows Admits
  rw [h.held, h.balances]

/-- The pass and the single endpoint decide a row alike exactly when it agrees. -/
theorem rowAgrees_iff (h : InStep N portfolio db₀ b running turnedDown db)
    (hmanual : portfolio.type = .manual) (hpayload : body.payload = .native trade)
    (hdir : body.direction ≠ .transfer)
    (htoken : db.findTokenBySymbol trade.symbol = some token) :
    RowAgrees N env portfolio token trade.amount body running turnedDown db ↔
      ((¬ b.Known db₀ portfolio.id body ∧
          b.Allows (env.plan portfolio.userId) token trade.amount body.direction) ↔
        ∃ db', createTransaction N env portfolio body db = .ok db') := by
  rw [createTransaction_ok_iff hmanual hpayload hdir htoken, h.known_iff, h.allows_iff]
  unfold RowAgrees
  by_cases hfresh : FreshHash portfolio.id body db
  · by_cases hdown : ∃ hash ∈ turnedDown, body.transactionHash = some hash
    · rw [if_pos hdown]
      simp only [hfresh, hdown]
      tauto
    · rw [if_neg hdown]
      simp only [hfresh, hdown, not_true_eq_false, or_self, not_false_eq_true, true_and,
        forall_const]
      cases hdirection : body.direction with
      | transfer => exact absurd hdirection hdir
      | buy => exact iff_self_and.symm
      | sell =>
          unfold Admits
          dsimp only
          cases hfind : db.findAsset portfolio.id token.id with
          | none => simp
          | some a => simp
  · simp only [hfresh]
    tauto

/-- A row that both accept. -/
theorem accept (h : InStep N portfolio db₀ b running turnedDown db)
    (hportfolio : (db₀.findPortfolioById portfolio.id).map Portfolio.type ≠ some .connected)
    (hmanual : portfolio.type = .manual) (hwell : WellFormed js env raw)
    (hrow : rowToken js db₀ raw = some token) (hbody : nativeBody js env raw = .ok body)
    (hpayload : body.payload = .native trade) (hdir : body.direction ≠ .transfer)
    (htoken : db.findTokenBySymbol trade.symbol = some token)
    (hknown : ¬ b.Known db₀ portfolio.id body)
    (hrule : b.Allows (env.plan portfolio.userId) token (rowAmount raw) body.direction)
    (hcreate : createTransaction N env portfolio body db = .ok db') (row : ℕ) :
    (prepareRow N js env portfolio db₀ row raw b).imported = b.imported ++ [row] ∧
      InStep N portfolio db₀ (prepareRow N js env portfolio db₀ row raw b)
        (advance body.direction token.id (rowAmount raw) running) turnedDown db' := by
  obtain ⟨hinsert, hheld, hrunning, hseen⟩ := @prepareRow_of_allows N _ _ _ _ db _ _ _ _ _ hwell
      hrow hbody row hpayload (h.held token.id) (fun hno => h.balances ▸ h.unheld token.id hno)
      hknown hrule
  obtain ⟨db₁, hwrite, hsettle, hfits⟩ :=
    createTransaction_ok_spec hmanual hpayload hdir htoken hcreate row
  obtain ⟨hsome, htaken, -, hportfolios⟩ := insertPrepared_spec hwrite
  have hmirror : Mirrors N portfolio.id [token.id] db₁ db' := by
    rw [hsettle]
    apply mirrors_settle
    have htype := h.written.type_ne hportfolio
    unfold Db.findPortfolioById at *
    rwa [hportfolios]
  refine ⟨?_, fun t => ?_, ?_, fun t ht => ?_, fun hash => ?_, ?_⟩
  · unfold Batch.imported
    rw [hinsert, List.map_append]
    rfl
  · rw [hheld, h.held, hmirror.findAsset_isSome, hsome]
    by_cases ht : t = token.id
    · subst ht
      show _ = (_ || ((db.findAsset portfolio.id token.id).isNone && _))
      cases db.findAsset portfolio.id token.id <;> simp [acceptedRow]
    · simp [ht, acceptedRow]
  · rw [hrunning, h.balances]
  · rw [hheld] at ht
    obtain ⟨hno, hne⟩ := Bool.or_eq_false_iff.mp ht
    unfold advance
    rw [Function.update_of_ne (of_decide_eq_false hne)]
    exact h.unheld t hno
  · have hsame : hashTaken db' portfolio.id hash = hashTaken db₁ portfolio.id hash := by
      unfold hashTaken
      rw [hmirror.transactions]
    have hcontains : body.transactionHash.toList.contains hash =
        (body.transactionHash == some hash) := by
      rw [Bool.eq_iff_iff, List.contains_iff_mem, beq_iff_eq, Option.mem_toList]
    have hbefore := h.seen hash
    rw [hseen, hsame, htaken, List.contains_append, hcontains, ← Bool.or_assoc, hbefore]
    show _ = ((_ || (body.transactionHash == some hash)) || _)
    rw [Bool.or_right_comm]
  · rw [hinsert]
    exact h.written.accept hportfolio hpayload htoken rfl hwrite hsettle hfits

/-- Nothing but the hashes seen has changed. -/
theorem of_seen (h : InStep N portfolio db₀ b running turnedDown db) {b' : Batch}
    {turnedDown' : List String} (hinsert : b'.toInsert = b.toInsert)
    (hheld : b'.heldTokens = b.heldTokens) (hbalances : b'.runningBalance = b.runningBalance)
    (hseen : ∀ hash, (hashTaken db₀ portfolio.id hash || b'.seenHashes.contains hash) =
      (hashTaken db portfolio.id hash || turnedDown'.contains hash)) :
    b'.imported = b.imported ∧ InStep N portfolio db₀ b' running turnedDown' db := by
  refine ⟨congrArg (List.map PreparedTxRow.row) hinsert, ?_, ?_, ?_, hseen, ?_⟩
  · rw [hheld]
    exact h.held
  · rw [hbalances]
    exact h.balances
  · rw [hheld]
    exact h.unheld
  · rw [hinsert]
    exact h.written

/-- A row that both turn down or skip. -/
theorem reject (h : InStep N portfolio db₀ b running turnedDown db) (hwell : WellFormed js env raw)
    (hrow : rowToken js db₀ raw = some token) (hbody : nativeBody js env raw = .ok body)
    (hturned : ¬ (¬ b.Known db₀ portfolio.id body ∧
      b.Allows (env.plan portfolio.userId) token (rowAmount raw) body.direction)) (row : ℕ) :
    (prepareRow N js env portfolio db₀ row raw b).imported = b.imported ∧
      InStep N portfolio db₀ (prepareRow N js env portfolio db₀ row raw b) running
        (turnedDown ++ body.transactionHash.toList) db := by
  have hmem : ∀ hash, body.transactionHash.toList.contains hash =
      (body.transactionHash == some hash) := by
    intro hash
    rw [Bool.eq_iff_iff, List.contains_iff_mem, beq_iff_eq, Option.mem_toList]
  by_cases hknown : b.Known db₀ portfolio.id body
  · obtain ⟨hinsert, hheld, hbalances, hseen⟩ :=
      prepareRow_of_known (N := N) hwell hrow hbody row hknown
    refine h.of_seen hinsert hheld hbalances fun hash => ?_
    -- The hash is known already, so noting it once more changes nothing.
    rw [hseen, h.seen hash, List.contains_append, hmem]
    obtain ⟨hash', hhash, htaken⟩ := hknown
    rw [h.seen hash'] at htaken
    by_cases heq : hash' = hash
    · subst heq
      rw [htaken, ← Bool.or_assoc, htaken]
      rfl
    · have hne : (body.transactionHash == some hash) = false := by
        rw [hhash]
        simp [heq]
      rw [hne, Bool.or_false]
  · have hrule := fun hallows => hturned ⟨hknown, hallows⟩
    obtain ⟨hinsert, hheld, hbalances, hseen⟩ :=
      prepareRow_of_not_allows (N := N) hwell hrow hbody row hknown hrule
    refine h.of_seen hinsert hheld hbalances fun hash => ?_
    rw [hseen, List.contains_append, List.contains_append, ← Bool.or_assoc, ← Bool.or_assoc,
      h.seen hash]

end InStep

theorem le_of_mem_createEach {rows : List BulkRow} {row : ℕ} {i : ℕ}
    (h : i ∈ (createEach N js env portfolio rows row db).2) : row ≤ i := by
  induction rows generalizing row db with
  | nil => cases h
  | cons raw rows ih =>
      unfold createEach at h
      split at h
      · exact (Nat.le_succ row).trans (ih h)
      · rcases List.mem_cons.mp h with rfl | h
        · exact le_rfl
        · exact (Nat.le_succ row).trans (ih h)

theorem imported_prepareRow {raw : BulkRow} (row : ℕ) :
    (prepareRow N js env portfolio db₀ row raw b).imported = b.imported ∨
      (prepareRow N js env portfolio db₀ row raw b).imported = b.imported ++ [row] := by
  have hconcat : ∀ (b' : Batch) (r : PreparedTxRow), b'.prepared = b.prepared → r.row = row →
      ({ b' with prepared := b'.prepared ++ [r] } : Batch).imported = b.imported ∨
        ({ b' with prepared := b'.prepared ++ [r] } : Batch).imported = b.imported ++ [row] := by
    intro b' r hprepared hr
    unfold Batch.imported
    have hsame : b'.toInsert = b.toInsert := congrArg (List.filter _) hprepared
    rw [toInsert_concat, List.map_append, hsame]
    cases r.duplicate with
    | true => exact .inl (List.append_nil _)
    | false => exact .inr (congrArg (_ ++ [·]) hr)
  unfold prepareRow
  split
  · split
    · exact .inl rfl
    · dsimp only
      split
      · exact hconcat b _ rfl rfl
      · split
        · exact .inl rfl
        · next b' createAsset happly =>
            exact hconcat b' _ ((applyRunning_prepared happly).1) rfl
  · exact .inl rfl

theorem imported_prepareRows {rows : List BulkRow} {row : ℕ} :
    ∃ tail, (prepareRows N js env portfolio db₀ rows row b).imported = b.imported ++ tail ∧
      ∀ i ∈ tail, row ≤ i := by
  induction rows generalizing row b with
  | nil => exact ⟨[], (List.append_nil _).symm, fun i hi => absurd hi List.not_mem_nil⟩
  | cons raw rows ih =>
      obtain ⟨tail, htail, hle⟩ := @ih (prepareRow N js env portfolio db₀ row raw b) (row + 1)
      rcases @imported_prepareRow N js env portfolio db₀ b raw row with heq | heq
      · exact ⟨tail, htail.trans (by rw [heq]), fun i hi => (Nat.le_succ row).trans (hle i hi)⟩
      · refine ⟨row :: tail, htail.trans (by rw [heq, List.append_assoc]; rfl), fun i hi => ?_⟩
        rcases List.mem_cons.mp hi with rfl | hi
        · exact le_rfl
        · exact (Nat.le_succ row).trans (hle i hi)

theorem createRow_of_body {raw : BulkRow} {body : CreateTransactionBody}
    (hbody : nativeBody js env raw = .ok body) :
    createRow N js env portfolio raw db =
      (createTransaction N env portfolio body db).toOption := by
  unfold createRow
  rw [hbody]

theorem createRow_of_no_token {raw : BulkRow} (hmanual : portfolio.type = .manual)
    (hwell : WellFormed js env raw) (htoken : rowToken js db raw = none) :
    createRow N js env portfolio raw db = none := by
  unfold createRow
  cases hbody : nativeBody js env raw with
  | error e => rfl
  | ok body =>
      obtain ⟨trade, price, hpayload, -, hsymbol, -⟩ := safeParse_ok hbody
      have hnone : db.findTokenBySymbol trade.symbol = none := by
        unfold rowToken at htoken
        rw [if_neg hwell.symbol] at htoken
        rw [hsymbol]
        exact htoken
      dsimp only
      unfold createTransaction
      rw [assertManualPortfolio_eq hmanual, ok_bind, hpayload]
      dsimp only
      unfold createTrade resolveToken
      rw [hnone]
      rfl

theorem prepareRow_of_bad_body {raw : BulkRow} {e : Issue} (hwell : WellFormed js env raw)
    (htoken : rowToken js db₀ raw = some token) (hbody : nativeBody js env raw = .error e)
    (row : ℕ) : ∃ errors, prepareRow N js env portfolio db₀ row raw b = { b with errors } := by
  have hsymbol : token.symbol = rowSymbol js raw := by
    unfold rowToken at htoken
    split at htoken
    · cases htoken
    · exact (findTokenBySymbol_eq htoken).2
  unfold prepareRow
  rw [cellErrors_eq_nil hwell htoken row, htoken]
  dsimp only
  rw [hsymbol]
  unfold nativeBody at hbody
  rw [hbody]
  exact ⟨_, rfl⟩

/-- The whole lists are imported alike exactly when every row agrees, and then the prepared
rows lead to the state of the single creates. -/
theorem rowsAgree_iff (hmanual : portfolio.type = .manual)
    (hportfolio : (db₀.findPortfolioById portfolio.id).map Portfolio.type ≠ some .connected)
    {rows : List BulkRow} (hwell : ∀ raw ∈ rows, WellFormed js env raw) {row : ℕ}
    {running : ℕ → ℚ} {turnedDown : List String}
    (h : InStep N portfolio db₀ b running turnedDown db) :
    ((prepareRows N js env portfolio db₀ rows row b).imported =
        b.imported ++ (createEach N js env portfolio rows row db).2 ↔
      RowsAgree N js env portfolio rows running turnedDown db) ∧
    (RowsAgree N js env portfolio rows running turnedDown db →
      WrittenTo N portfolio.id db₀ (prepareRows N js env portfolio db₀ rows row b).toInsert
        (createEach N js env portfolio rows row db).1) := by
  induction rows generalizing row b running turnedDown db with
  | nil => exact ⟨⟨fun _ => trivial, fun _ => (List.append_nil _).symm⟩, fun _ => h.written⟩
  | cons raw rows ih =>
      have hraw := hwell raw List.mem_cons_self
      have htail := fun raw' hmem => hwell raw' (List.mem_cons_of_mem _ hmem)
      have htokens := h.written.tokens_eq
      have hsame : rowToken js db raw = rowToken js db₀ raw := by
        unfold rowToken Db.findTokenBySymbol
        rw [htokens]
      unfold prepareRows createEach RowsAgree
      cases htoken : rowToken js db₀ raw with
      | none =>
          rw [hsame, htoken]
          obtain ⟨errors, hrow⟩ := @prepareRow_of_no_token N _ env portfolio _ b _ htoken row
          rw [hrow, createRow_of_no_token hmanual hraw (hsame.trans htoken)]
          exact ih htail (h.of_errors errors)
      | some token =>
          rw [hsame, htoken]
          cases hbody : nativeBody js env raw with
          | error e =>
              obtain ⟨errors, hrow⟩ := @prepareRow_of_bad_body N _ _ portfolio _ b _ _ _ hraw
                  htoken hbody row
              have hnone : createRow N js env portfolio raw db = none := by
                unfold createRow
                rw [hbody]
              rw [hrow, hnone]
              exact ih htail (h.of_errors errors)
          | ok body =>
              obtain ⟨-, trade, price, hpayload, hfound, hdir, hamount, -, -⟩ :=
                nativeBody_ok htoken hbody
              have hfound' : db.findTokenBySymbol trade.symbol = some token := by
                unfold Db.findTokenBySymbol
                rw [htokens]
                exact hfound
              have hagrees := @InStep.rowAgrees_iff N env _ _ _ _ _ _ _ _ _ h hmanual hpayload hdir
                  hfound'
              rw [← hamount] at hagrees
              dsimp only
              rw [hagrees]
              obtain ⟨tail, himported, hle⟩ := @imported_prepareRows N js env portfolio db₀
                  (prepareRow N js env portfolio db₀ row raw b) rows (row + 1)
              by_cases hbulk : ¬ b.Known db₀ portfolio.id body ∧
                  b.Allows (env.plan portfolio.userId) token (rowAmount raw) body.direction
              · cases hcreate : createTransaction N env portfolio body db with
                | ok db' =>
                    obtain ⟨hrow, hstep⟩ := h.accept hportfolio hmanual hraw htoken hbody hpayload
                      hdir hfound' hbulk.1 hbulk.2 hcreate row
                    obtain ⟨hiff, hwritten⟩ := @ih _ _ htail (row + 1) _ _ hstep
                    rw [hrow] at hiff
                    rw [createRow_of_body hbody, hcreate]
                    dsimp only [Except.toOption]
                    refine ⟨?_, fun hagree => hwritten hagree.2⟩
                    rw [← List.singleton_append (l := (createEach ..).2), ← List.append_assoc,
                      hiff]
                    simp [hbulk]
                | error e =>
                    -- Only the bulk import takes the row.
                    have hrow := (@prepareRow_of_allows N _ _ _ _ db _ _ _ _ _ hraw htoken hbody
                        row hpayload (h.held token.id) (fun hno => h.balances ▸ h.unheld token.id
                        hno) hbulk.1 hbulk.2).1
                    rw [createRow_of_body hbody, hcreate]
                    dsimp only [Except.toOption]
                    refine ⟨⟨fun heq => ?_, fun hagree => ?_⟩, fun hagree => ?_⟩
                    · rw [himported] at heq
                      unfold Batch.imported at heq
                      rw [hrow, List.map_append, List.append_assoc] at heq
                      have hmem := List.append_cancel_left heq ▸ List.mem_append_left tail
                        (List.mem_singleton_self row)
                      exact absurd (le_of_mem_createEach hmem) (Nat.not_succ_le_self row)
                    · simp [hbulk] at hagree
                    · simp [hbulk] at hagree
              · cases hcreate : createTransaction N env portfolio body db with
                | ok db' =>
                    -- Only the single endpoint takes the row.
                    have hrow := (h.reject (N := N) hraw htoken hbody hbulk row).1
                    rw [createRow_of_body hbody, hcreate]
                    dsimp only [Except.toOption]
                    refine ⟨⟨fun heq => ?_, fun hagree => ?_⟩, fun hagree => ?_⟩
                    · rw [himported, hrow] at heq
                      have hmem : row ∈ tail := List.append_cancel_left heq ▸ List.mem_cons_self
                      exact absurd (hle row hmem) (Nat.not_succ_le_self row)
                    · simp [hbulk] at hagree
                    · simp [hbulk] at hagree
                | error e =>
                    obtain ⟨hrow, hstep⟩ := h.reject (N := N) hraw htoken hbody hbulk row
                    obtain ⟨hiff, hwritten⟩ := @ih _ _ htail (row + 1) _ _ hstep
                    rw [hrow] at hiff
                    rw [createRow_of_body hbody, hcreate]
                    dsimp only [Except.toOption]
                    refine ⟨?_, fun hagree => hwritten hagree.2⟩
                    rw [hiff]
                    simp [hbulk]

/-- The stored balances of a portfolio; an unheld token has none. -/
def storedBalance (db : Db) (portfolioId tokenId : ℕ) : ℚ :=
  ((db.findAsset portfolioId tokenId).map Asset.balance).getD 0

end Pass

/-- A row of 1.5 ETH at 100. -/
def ethRow (type hash : String) : BulkRow := fun key =>
  [("type", type), ("symbol", "eth"), ("amount", "1.5"), ("price", "100"),
    ("date", "2023-11-01"), ("transactionHash", hash)].lookup key

def samplePortfolio : Portfolio := { id := 1, userId := 1, type := .manual }

theorem wellFormed_ethRow {type : String} (htype : type ∈ ["buy", "sell"]) :
    WellFormed sampleJs sampleEnv (ethRow type "0xa") := by
  rcases List.mem_pair.mp htype with rfl | rfl
  · exact @WellFormed.of_row _ _ _ 1 (by decide +kernel) (by decide +kernel)
  · exact @WellFormed.of_row _ _ _ 1 (by decide +kernel) (by decide +kernel)

end Neonfi.Ledger

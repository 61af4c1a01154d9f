import Neonfi.Wallet.Feed

/-!
# What becomes of a transfer

A transfer of a connected portfolio is malformed, or its hash is taken, or its row is refused
by a column, or it is written.  The rows and the catalog decide which.
-/

namespace Neonfi.Wallet

open Lib
open Ledger (Db Token Portfolio Millis TransactionData Transaction Env ensure numericOverflow
  transactionHashDuplicate transactionError resolveToken createIfNeeded emptyAsset
  insertTransaction recalcAssetBalance recalcPortfolioNetDeposit netDepositSum assetsOf commit_ok
  resolveToken_of_found)

/-- The pairs of portfolio and hash that are taken. -/
def claimedKeys (db : Db) : List (ℕ × String) :=
  db.transactions.rows.filterMap Transaction.hashKey

def rowKey (data : TransactionData) : Option (ℕ × String) :=
  data.transactionHash.map fun hash => (data.portfolioId, hash)

def rowDecimals (data : TransactionData) : List ℚ :=
  data.gasFee.toList ++ (data.detail.trade?.map Ledger.TradeDetail.decimals).getD []

/-- The row, its detail record and the portfolio total fit their columns. -/
def columnsAccept (data : TransactionData) (db : Db) : Bool :=
  detailTextsFit data.detail && (rowDecimals data).all column.fits &&
    column.fits (column.fix (netDepositSum db data.portfolioId))

/-- The token is known, the date is accepted and the row's texts fit. -/
def FeedBody.wellFormed (body : FeedBody) (db : Db) : Bool :=
  (db.findTokenBySymbol body.symbol).isSome && body.timestamp.isSome &&
    (body.fromAddr.toList ++ body.toAddr.toList ++ body.transactionHash.toList).all fitsVarChar

theorem FeedBody.of_wellFormed {body : FeedBody} {db : Db} (h : body.wellFormed db) :
    ∃ token timestamp, db.findTokenBySymbol body.symbol = some token ∧
      body.timestamp = some timestamp ∧
      ∀ portfolioId usdValue, rowTextsFit (body.row portfolioId timestamp usdValue) := by
  unfold FeedBody.wellFormed at h
  simp only [Bool.and_eq_true] at h
  obtain ⟨token, htoken⟩ := Option.isSome_iff_exists.mp h.1.1
  obtain ⟨timestamp, htimestamp⟩ := Option.isSome_iff_exists.mp h.1.2
  exact ⟨token, timestamp, htoken, htimestamp, fun _ _ => h.2⟩

/-! ## Inserting the row -/

section Insert

variable {data : TransactionData} {db : Db}

theorem insert?_transaction_eq_none_iff :
    db.transactions.insert? (fun id => ({ data with id } : Transaction)) (fun _ => rfl) = none ↔
      ∃ k, rowKey data = some k ∧ k ∈ claimedKeys db :=
  SerialTable.insert?_eq_none_iff

theorem insertTransaction_of_taken {k : ℕ × String} (hkey : rowKey data = some k)
    (htaken : k ∈ claimedKeys db) :
    insertTransaction data db = .error transactionHashDuplicate := by
  unfold insertTransaction Db.createTransactionRow
  rw [insert?_transaction_eq_none_iff.mpr ⟨k, hkey, htaken⟩]
  rfl

theorem insertTransaction_of_free (hfree : ∀ k, rowKey data = some k → k ∉ claimedKeys db) :
    ∃ transactions : Ledger.TransactionTable,
      insertTransaction data db = .ok { db with transactions } ∧
        transactions.rows = db.transactions.rows ++ [⟨data, db.transactions.next⟩] := by
  cases hinsert : db.transactions.insert? (fun id => ({ data with id } : Transaction))
      (fun _ => rfl) with
  | none =>
      obtain ⟨k, hkey, htaken⟩ := insert?_transaction_eq_none_iff.mp hinsert
      exact absurd htaken (hfree k hkey)
  | some transactions =>
      refine ⟨transactions, ?_, (SerialTable.of_insert? hinsert).1⟩
      unfold insertTransaction Db.createTransactionRow
      rw [hinsert]

end Insert

/-- The row, then its detail record. -/
theorem insertFeedRow_of_free (htexts : rowTextsFit data)
    (hfree : ∀ k, rowKey data = some k → k ∉ claimedKeys db) :
    ∃ transactions : Ledger.TransactionTable,
      transactions.rows = db.transactions.rows ++ [⟨data, db.transactions.next⟩] ∧
        insertFeedRow data db =
          if detailTextsFit data.detail then .ok { db with transactions }
          else .error valueTooLong := by
  obtain ⟨transactions, hinsert, hrows⟩ := insertTransaction_of_free hfree
  refine ⟨transactions, hrows, ?_⟩
  unfold insertFeedRow
  rw [hinsert]
  by_cases hdetail : detailTextsFit data.detail
  · simp only [ensure, htexts, hdetail, if_true]
    rfl
  · simp only [ensure, htexts, hdetail, if_true]
    rfl

/-! ## The asset of the token -/

/-- The token may have got an empty asset row; nothing else changed. -/
structure Opened (db db' : Db) : Prop where
  others : db' = { db with assets := db'.assets }
  sums : ∀ q, netDepositSum db' q = netDepositSum db q
  fits : db'.fits column = db.fits column

theorem Opened.refl {db : Db} : Opened db db := ⟨rfl, fun _ => rfl, rfl⟩

theorem netDepositSum_concat {db : Db} {assets : Ledger.AssetTable} {p t : ℕ}
    (hrows : assets.rows = db.assets.rows ++ [emptyAsset p t]) (q : ℕ) :
    netDepositSum { db with assets } q = netDepositSum db q := by
  unfold netDepositSum assetsOf
  rw [hrows, List.filter_append, List.map_append, List.sum_append]
  by_cases hq : p = q
  · simp [emptyAsset, hq]
  · simp [emptyAsset, hq]

theorem fits_concat {db : Db} {assets : Ledger.AssetTable} {p t : ℕ}
    (hrows : assets.rows = db.assets.rows ++ [emptyAsset p t]) :
    ({ db with assets } : Db).fits column = db.fits column := by
  have hempty : (emptyAsset p t).decimals.all column.fits = true := by
    show ([0, 0, 0, 0, 0] : List ℚ).all (Numeric.decimal 12 8).fits = true
    decide +kernel
  unfold Db.fits
  rw [hrows, List.all_append, List.all_cons, hempty]
  simp

theorem exists_opened (db : Db) (p t : ℕ) :
    ∃ db', createIfNeeded (db.findAsset p t).isNone p t db = .ok db' ∧ Opened db db' := by
  unfold createIfNeeded
  cases hfound : db.findAsset p t with
  | some a => exact ⟨db, rfl, Opened.refl⟩
  | none =>
      obtain ⟨assets, hinsert, hrows⟩ :=
        Table.insert?_of_find?_eq_none (r := emptyAsset p t) (T := db.assets) hfound
      refine ⟨{ db with assets }, ?_, rfl, netDepositSum_concat hrows, fits_concat hrows⟩
      show db.createAsset (emptyAsset p t) = _
      unfold Db.createAsset
      rw [hinsert]

/-! ## The whole transfer -/

/-- What a transfer that was written changed. -/
structure Wrote (data : TransactionData) (db db' : Db) : Prop where
  tokens : db'.tokens = db.tokens
  portfolios : ∃ netDeposit,
    db'.portfolios = (db.setNetDeposit data.portfolioId netDeposit).portfolios
  rows : db'.transactions.rows = db.transactions.rows ++ [⟨data, db.transactions.next⟩]
  sums : ∀ q, netDepositSum db' q = netDepositSum db q
  fits : db'.fits column

section Outcome

variable {env : Env} {portfolio : Portfolio} {body : FeedBody} {usdValueOverride : Option ℚ}
  {db : Db}

/-- With its token known and its date accepted, a transfer comes down to its row. -/
theorem createTransactionFromWebhook_eq {token : Token} {timestamp : Millis} {data : TransactionData}
    (hconnected : (db.findPortfolioById portfolio.id).map Portfolio.type = some .connected)
    (htoken : db.findTokenBySymbol body.symbol = some token)
    (htimestamp : body.timestamp = some timestamp)
    (hdata : data =
      body.row portfolio.id timestamp (feedUsdValue env body usdValueOverride db)) :
    ∃ db₁, Opened db db₁ ∧
      createTransactionFromWebhook env portfolio body usdValueOverride db =
        (insertFeedRow data db₁).bind fun db₂ =>
          (recalcPortfolioNetDeposit column portfolio.id db₂).commit column := by
  obtain ⟨db₁, hcreate, hopened⟩ := exists_opened db portfolio.id token.id
  refine ⟨db₁, hopened, ?_⟩
  unfold createTransactionFromWebhook
  rw [resolveToken_of_found htoken, htimestamp]
  show (createIfNeeded (db.findAsset portfolio.id token.id).isNone portfolio.id token.id db >>= _)
    = _
  rw [hcreate, hdata]
  show (insertFeedRow _ db₁ >>= _) = _
  cases hinsert : insertFeedRow
      (body.row portfolio.id timestamp (feedUsdValue env body usdValueOverride db)) db₁ with
  | error e => rfl
  | ok db₂ =>
      have hskip : recalcAssetBalance column portfolio.id token.id db₂ = db₂ := by
        obtain ⟨transactions, rfl, -⟩ :=
          Ledger.createTransactionRow_ok (insertFeedRow_ok hinsert).2.1
        unfold recalcAssetBalance
        rw [if_pos]
        rw [hopened.others]
        exact hconnected
      show (recalcPortfolioNetDeposit column portfolio.id
        (recalcAssetBalance column portfolio.id token.id db₂)).commit column = _
      rw [hskip]
      rfl

/-- Of the portfolio rows only the total changes. -/
theorem all_setNetDeposit {p : ℕ} {netDeposit : ℚ} {portfolio : Portfolio}
    (hfound : db.findPortfolioById p = some portfolio)
    (hfits : db.portfolios.rows.all fun p => p.decimals.all column.fits) :
    ((db.setNetDeposit p netDeposit).portfolios.rows.all fun p => p.decimals.all column.fits) =
      column.fits netDeposit := by
  obtain ⟨hmem, hid⟩ := SerialTable.find?_eq_some_iff.mp hfound
  rw [Bool.eq_iff_iff]
  simp only [List.all_eq_true] at hfits ⊢
  constructor
  · intro h
    have hrow := h { portfolio with netDeposit } (List.mem_map.mpr ⟨portfolio, hmem, if_pos hid⟩)
    exact hrow netDeposit (by simp [Portfolio.decimals])
  · intro h p' hp' x hx
    obtain ⟨q, hq, rfl⟩ := List.mem_map.mp hp'
    have hold := hfits q hq
    split at hx
    · rcases List.mem_append.mp hx with hx | hx
      · rw [List.mem_singleton.mp hx]
        exact h
      · exact hold x (List.mem_append_right _ hx)
    · exact hold x hx

/-- A new row and a new total stay within the columns exactly when each of them does. -/
theorem fits_booked {p n : ℕ} {netDeposit : ℚ} {portfolio : Portfolio} {data : TransactionData}
    {transactions : Ledger.TransactionTable} (hfound : db.findPortfolioById p = some portfolio)
    (hrows : transactions.rows = db.transactions.rows ++ [⟨data, n⟩]) (hfits : db.fits column) :
    (({ db with transactions } : Db).setNetDeposit p netDeposit).fits column =
      ((rowDecimals data).all column.fits && column.fits netDeposit) := by
  unfold Db.fits at hfits ⊢
  simp only [Bool.and_eq_true] at hfits
  have hportfolios := @all_setNetDeposit { db with transactions } p netDeposit portfolio hfound
    hfits.1.1
  have hassets : (({ db with transactions } : Db).setNetDeposit p netDeposit).assets.rows.all
      (fun a => a.decimals.all column.fits) = true := hfits.1.2
  have htransactions : (({ db with transactions } : Db).setNetDeposit p
      netDeposit).transactions.rows.all (fun t => t.decimals.all column.fits) =
        (rowDecimals data).all column.fits := by
    show transactions.rows.all _ = _
    rw [hrows, List.all_append, hfits.2]
    simp only [Bool.true_and, List.all_cons, List.all_nil, Bool.and_true]
    rfl
  rw [hportfolios, hassets, htransactions, Bool.and_true, Bool.and_comm]

section Row

variable {token : Token} {timestamp : Millis} {data : TransactionData}
  (hconnected : (db.findPortfolioById portfolio.id).map Portfolio.type = some .connected)
  (htoken : db.findTokenBySymbol body.symbol = some token)
  (htimestamp : body.timestamp = some timestamp)
  (hdata : data = body.row portfolio.id timestamp (feedUsdValue env body usdValueOverride db))
include hconnected htoken htimestamp hdata

/-- Texts are checked before the hash. -/
theorem create_textsTooLong (htexts : rowTextsFit data = false) :
    createTransactionFromWebhook env portfolio body usdValueOverride db =
      .error valueTooLong := by
  obtain ⟨db₁, -, heq⟩ := createTransactionFromWebhook_eq hconnected htoken htimestamp hdata
  rw [heq]
  unfold insertFeedRow ensure
  rw [if_neg (by simp [htexts])]
  rfl

theorem create_taken {k : ℕ × String} (htexts : rowTextsFit data) (hkey : rowKey data = some k)
    (htaken : k ∈ claimedKeys db) :
    createTransactionFromWebhook env portfolio body usdValueOverride db =
      .error transactionHashDuplicate := by
  obtain ⟨db₁, hopened, heq⟩ := createTransactionFromWebhook_eq hconnected htoken htimestamp hdata
  have hclaimed : claimedKeys db₁ = claimedKeys db := by
    rw [hopened.others]
    rfl
  rw [heq]
  unfold insertFeedRow ensure
  rw [if_pos htexts]
  show Except.bind (insertTransaction data db₁ >>= _) _ = _
  rw [insertTransaction_of_taken hkey (hclaimed ▸ htaken)]
  rfl

/-- Under a free hash the row is inserted, and its columns decide. -/
theorem create_free_eq (htexts : rowTextsFit data)
    (hfree : ∀ k, rowKey data = some k → k ∉ claimedKeys db) :
    ∃ (db₁ : Db) (transactions : Ledger.TransactionTable), Opened db db₁ ∧
      transactions.rows = db.transactions.rows ++ [⟨data, db.transactions.next⟩] ∧
      createTransactionFromWebhook env portfolio body usdValueOverride db =
        if detailTextsFit data.detail then
          (({ db₁ with transactions } : Db).setNetDeposit data.portfolioId
            (column.fix (netDepositSum db data.portfolioId))).commit column
        else .error valueTooLong := by
  obtain ⟨db₁, hopened, heq⟩ := createTransactionFromWebhook_eq hconnected htoken htimestamp hdata
  have htransactions : db₁.transactions = db.transactions := by rw [hopened.others]
  have hfree₁ : ∀ k, rowKey data = some k → k ∉ claimedKeys db₁ := by
    unfold claimedKeys
    rw [htransactions]
    exact hfree
  obtain ⟨transactions, hrows, hinsert⟩ := insertFeedRow_of_free htexts hfree₁
  have hid : portfolio.id = data.portfolioId := by
    rw [hdata]
    rfl
  refine ⟨db₁, transactions, hopened, htransactions ▸ hrows, ?_⟩
  rw [heq, hinsert, hid, ← hopened.sums]
  split
  · rfl
  · rfl

theorem create_free_ok {db' : Db} (htexts : rowTextsFit data)
    (hfree : ∀ k, rowKey data = some k → k ∉ claimedKeys db)
    (hok : createTransactionFromWebhook env portfolio body usdValueOverride db = .ok db') :
    Wrote data db db' := by
  obtain ⟨db₁, transactions, hopened, hrows, heq⟩ :=
    create_free_eq hconnected htoken htimestamp hdata htexts hfree
  rw [heq] at hok
  split at hok
  · obtain ⟨rfl, hfits⟩ := commit_ok hok
    have hportfolios : db₁.portfolios = db.portfolios := by rw [hopened.others]
    refine ⟨?_, ⟨column.fix (netDepositSum db data.portfolioId), ?_⟩, hrows, hopened.sums, hfits⟩
    · rw [hopened.others]
      rfl
    · unfold Db.setNetDeposit
      simp only [hportfolios]
  · cases hok

/-- Only a taken hash is answered as a duplicate. -/
theorem create_free_ne (htexts : rowTextsFit data)
    (hfree : ∀ k, rowKey data = some k → k ∉ claimedKeys db) :
    createTransactionFromWebhook env portfolio body usdValueOverride db ≠
      .error transactionHashDuplicate := by
  obtain ⟨db₁, transactions, -, -, heq⟩ :=
    create_free_eq hconnected htoken htimestamp hdata htexts hfree
  rw [heq]
  unfold Db.commit
  split
  · split
    · simp
    · simp [numericOverflow, transactionHashDuplicate, transactionError]
  · simp [valueTooLong, transactionHashDuplicate, transactionError]

/-- A row under a free hash is written exactly when its columns accept it. -/
theorem create_free_isOk (hfits : db.fits column) (htexts : rowTextsFit data)
    (hfree : ∀ k, rowKey data = some k → k ∉ claimedKeys db) :
    (createTransactionFromWebhook env portfolio body usdValueOverride db).isOk =
      columnsAccept data db := by
  obtain ⟨db₁, transactions, hopened, hrows, heq⟩ :=
    create_free_eq hconnected htoken htimestamp hdata htexts hfree
  obtain ⟨found, hfound, -⟩ := Option.map_eq_some_iff.mp hconnected
  have hid : portfolio.id = data.portfolioId := by
    rw [hdata]
    rfl
  have hfound₁ : db₁.findPortfolioById data.portfolioId = some found := by
    rw [← hid, hopened.others]
    exact hfound
  have hrows₁ : transactions.rows = db₁.transactions.rows ++ [⟨data, db.transactions.next⟩] := by
    rw [hrows, hopened.others]
  rw [heq]
  unfold columnsAccept Db.commit
  rw [fits_booked hfound₁ hrows₁ (hopened.fits.trans hfits)]
  cases hdetail : detailTextsFit data.detail with
  | false => rfl
  | true =>
      rw [if_pos rfl, Bool.true_and]
      split
      · next hcolumns => exact hcolumns.symm
      · next hcolumns => exact (Bool.eq_false_of_not_eq_true hcolumns).symm

end Row

theorem create_unknownToken (htoken : db.findTokenBySymbol body.symbol = none) :
    ∃ e, createTransactionFromWebhook env portfolio body usdValueOverride db = .error e ∧
      e ≠ transactionHashDuplicate := by
  refine ⟨transactionError 400 "UNKNOWN_TOKEN_SYMBOL" s!"Unknown token symbol: {body.symbol}",
    ?_, by simp [transactionError, transactionHashDuplicate]⟩
  unfold createTransactionFromWebhook resolveToken
  rw [htoken]
  rfl

theorem create_invalidDate {token : Token} (htoken : db.findTokenBySymbol body.symbol = some token)
    (htimestamp : body.timestamp = none) :
    createTransactionFromWebhook env portfolio body usdValueOverride db = .error invalidDate := by
  obtain ⟨db₁, hcreate, -⟩ := exists_opened db portfolio.id token.id
  unfold createTransactionFromWebhook
  rw [resolveToken_of_found htoken, htimestamp]
  show (createIfNeeded (db.findAsset portfolio.id token.id).isNone portfolio.id token.id db >>= _)
    = _
  rw [hcreate]
  rfl

/-- A transfer that is not well formed fails otherwise than by its hash. -/
theorem create_malformed
    (hconnected : (db.findPortfolioById portfolio.id).map Portfolio.type = some .connected)
    (hform : body.wellFormed db = false) :
    ∃ e, createTransactionFromWebhook env portfolio body usdValueOverride db = .error e ∧
      e ≠ transactionHashDuplicate := by
  cases htoken : db.findTokenBySymbol body.symbol with
  | none => exact create_unknownToken htoken
  | some token =>
      cases hdate : body.timestamp with
      | none => exact ⟨invalidDate, create_invalidDate htoken hdate, by decide⟩
      | some t =>
          have htexts : rowTextsFit (body.row portfolio.id t
              (feedUsdValue env body usdValueOverride db)) = false := by
            unfold FeedBody.wellFormed at hform
            simp only [htoken, hdate, Option.isSome_some, Bool.true_and] at hform
            exact hform
          exact ⟨valueTooLong, create_textsTooLong hconnected htoken hdate rfl htexts, by decide⟩

end Outcome

end Neonfi.Wallet

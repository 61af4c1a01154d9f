import Neonfi.Ledger.Model
import Neonfi.Lib.Pages

/-!
# Listing transactions page by page

`listPortfolioTransactions` answers one page with one query.  The query orders by the requested
column alone, so rows with one value in it come in any order, and each query may choose another.
-/

namespace Neonfi.Ledger

open Lib

/-! ## The rows -/

inductive TransactionType
  | native
  | erc20
  | nft
  deriving DecidableEq, Repr

def Detail.type : Detail → TransactionType
  | native _ => .native
  | erc20 _ _ => .erc20
  | nft _ => .nft

structure ListedTransaction extends Transaction where
  createdAt : Millis
  deriving DecidableEq, Repr

abbrev ListedTable := Table ListedTransaction ℕ fun t => t.id

/-! ## The query -/

inductive SortField
  | timestamp
  | createdAt
  deriving DecidableEq, Repr

inductive SortOrder
  | asc
  | desc
  deriving DecidableEq, Repr

/-- What the controller lets through. -/
structure ListTransactionsFilter where
  limit : ℕ
  offset : ℕ
  type : Option TransactionType
  sort : SortField
  order : SortOrder
  limit_pos : 1 ≤ limit
  limit_le : limit ≤ 100

def buildWhere (portfolioId : ℕ) (typeFilter : Option TransactionType) (t : ListedTransaction) :
    Bool :=
  t.portfolioId = portfolioId ∧ ∀ type ∈ typeFilter, t.detail.type = type

def ListedTransaction.column (t : ListedTransaction) : SortField → Millis
  | .timestamp => t.timestamp
  | .createdAt => t.createdAt

/-- `orderBy: { [sort]: order }` -/
def Precedes (filters : ListTransactionsFilter) (a b : ListedTransaction) : Prop :=
  match filters.order with
  | .asc => a.column filters.sort ≤ b.column filters.sort
  | .desc => b.column filters.sort ≤ a.column filters.sort

def matching (table : ListedTable) (portfolioId : ℕ) (filters : ListTransactionsFilter) :
    List ListedTransaction :=
  table.rows.filter (buildWhere portfolioId filters.type)

/-- What the database may choose to answer before it cuts out the page. -/
structure OrderedAnswer (table : ListedTable) (portfolioId : ℕ) (filters : ListTransactionsFilter)
    where
  rows : List ListedTransaction
  perm : rows.Perm (matching table portfolioId filters)
  ordered : rows.Pairwise (Precedes filters)

def listTransactions {table : ListedTable} {portfolioId : ℕ} {filters : ListTransactionsFilter}
    (answer : OrderedAnswer table portfolioId filters) : List ListedTransaction :=
  (answer.rows.drop filters.offset).take filters.limit

/-! ## The page -/

structure TransactionListDTO where
  id : ℕ
  portfolioId : ℕ
  type : TransactionType
  direction : Direction
  status : String := "completed"
  fromAddr : Option String
  toAddr : Option String
  gasFee : Option ℚ
  transactionHash : Option String
  amount : Option ℚ
  symbol : Option String
  usdValue : Option ℚ
  logoUrl : Option String
  notes : Option String
  transferGroupId : Option String
  timestamp : Millis
  createdAt : Millis
  deriving DecidableEq, Repr

/-- An NFT has no amount, symbol or value. -/
def toTransactionListDTO (tx : ListedTransaction) (logoUrl : Option String) : TransactionListDTO :=
  let trade := tx.detail.trade?
  { tx with
    type := tx.detail.type
    amount := trade.map TradeDetail.amount
    symbol := trade.map TradeDetail.symbol
    usdValue := trade.map TradeDetail.usdValue
    logoUrl }

/-- The logo of the token with the symbol of a row; `logos` is the catalog's. -/
def logoFor (logos : String → Option String) (tx : ListedTransaction) : Option String :=
  (tx.detail.trade?.map TradeDetail.symbol).bind logos

structure TransactionPage where
  transactions : List TransactionListDTO
  limit : ℕ
  offset : ℕ
  total : ℕ
  deriving DecidableEq, Repr

def listPortfolioTransactions (logos : String → Option String) {table : ListedTable}
    {portfolioId : ℕ} {filters : ListTransactionsFilter}
    (answer : OrderedAnswer table portfolioId filters) : TransactionPage where
  transactions := (listTransactions answer).map fun t => toTransactionListDTO t (logoFor logos t)
  limit := filters.limit
  offset := filters.offset
  total := (matching table portfolioId filters).length

/-! ## A listing -/

/-- The query of a page. -/
def ListTransactionsFilter.atPage (filters : ListTransactionsFilter) (i : ℕ) :
    ListTransactionsFilter :=
  { filters with offset := i * filters.limit }

/-- The transactions of the first pages, one after the other. -/
def listing (logos : String → Option String) {table : ListedTable} {portfolioId : ℕ}
    {filters : ListTransactionsFilter}
    (answers : ∀ i, OrderedAnswer table portfolioId (filters.atPage i)) (pages : ℕ) :
    List TransactionListDTO :=
  (List.range pages).flatMap fun i => (listPortfolioTransactions logos (answers i)).transactions

/-- However the database orders ties, enough pages list every matching transaction once. -/
def ListsEachOnce (logos : String → Option String) (table : ListedTable) (portfolioId : ℕ)
    (filters : ListTransactionsFilter) : Prop :=
  ∀ (answers : ∀ i, OrderedAnswer table portfolioId (filters.atPage i)) (pages : ℕ),
    (matching table portfolioId filters).length ≤ pages * filters.limit →
      (listing logos answers pages).Perm
        ((matching table portfolioId filters).map fun t => toTransactionListDTO t (logoFor logos t))

/-- The column as a key that ascends in the requested order. -/
def ListTransactionsFilter.key (filters : ListTransactionsFilter) (t : ListedTransaction) : ℤ :=
  match filters.order with
  | .asc => t.column filters.sort
  | .desc => -t.column filters.sort

section

variable {logos : String → Option String} {table : ListedTable} {portfolioId : ℕ}
  {filters : ListTransactionsFilter} {pages : ℕ}

theorem precedes_iff {a b : ListedTransaction} :
    Precedes filters a b ↔ filters.key a ≤ filters.key b := by
  unfold Precedes ListTransactionsFilter.key
  cases filters.order with
  | asc => exact Iff.rfl
  | desc => exact neg_le_neg_iff.symm

theorem OrderedAnswer.inOrder {i : ℕ}
    (answer : OrderedAnswer table portfolioId (filters.atPage i)) :
    InOrder filters.key answer.rows :=
  answer.ordered.imp fun h => precedes_iff.mp h

/-- The listing shows the pages of the answers. -/
theorem listing_eq (answers : ∀ i, OrderedAnswer table portfolioId (filters.atPage i)) :
    listing logos answers pages =
      ((List.range pages).flatMap fun i => page filters.limit i (answers i).rows).map
        fun t => toTransactionListDTO t (logoFor logos t) := by
  unfold listing listPortfolioTransactions
  rw [List.map_flatMap]
  rfl

/-- Different rows are shown with different ids. -/
theorem nodup_shown : ((matching table portfolioId filters).map
    fun t => toTransactionListDTO t (logoFor logos t)).Nodup := by
  have hids : ((matching table portfolioId filters).map fun t => t.id).Nodup :=
    nodup_map_filter _ table.nodup
  apply List.Nodup.of_map TransactionListDTO.id
  rw [List.map_map]
  exact hids

/-- The answers of the library, as answers of the database. -/
def answersOf {answers : ℕ → List ListedTransaction}
    (h : Answers filters.key (matching table portfolioId filters) answers) (i : ℕ) :
    OrderedAnswer table portfolioId (filters.atPage i) where
  rows := answers i
  perm := (h i).1
  ordered := (h i).2.imp fun hle => precedes_iff.mpr hle

/-- Every transaction is listed once, whatever the database does with ties, exactly when no group of
rows with one value in the sort column straddles a boundary of pages. -/
theorem listsEachOnce_iff (logos : String → Option String) (table : ListedTable)
    (portfolioId : ℕ) (filters : ListTransactionsFilter) :
    ListsEachOnce logos table portfolioId filters ↔
      ∀ i, ¬ Straddles filters.key (matching table portfolioId filters) (i * filters.limit) := by
  constructor
  · intro hall i hstraddles
    have hcover : (matching table portfolioId filters).length ≤
        (matching table portfolioId filters).length * filters.limit :=
      Nat.le_mul_of_pos_right _ filters.limit_pos
    obtain ⟨answers, hanswers, htwice⟩ :=
      exists_answers_of_straddles filters.limit_pos hcover hstraddles
    have hperm := hall (answersOf hanswers) _ hcover
    rw [listing_eq] at hperm
    exact htwice (List.Nodup.of_map _ (hperm.nodup_iff.mpr nodup_shown))
  · intro hsplit answers pages hcover
    rw [listing_eq]
    apply List.Perm.map
    exact flatMap_page_perm (fun i => ⟨(answers i).perm, (answers i).inOrder⟩) hcover hsplit

end

/-! ## Two rows of one moment -/

def ListsAlwaysOnce : Prop :=
  ∀ (logos : String → Option String) (table : ListedTable) (portfolioId : ℕ)
    (filters : ListTransactionsFilter), ListsEachOnce logos table portfolioId filters

def soldAt (id : ℕ) (timestamp : Millis) : ListedTransaction where
  id := id
  portfolioId := 1
  direction := .sell
  timestamp := timestamp
  detail := .native ⟨1, "ETH", 100, none⟩
  createdAt := id

def sameMoment : ListedTable := ⟨[soldAt 1 0, soldAt 2 0], by decide⟩

def oneByOne : ListTransactionsFilter :=
  ⟨1, 0, none, .timestamp, .desc, le_rfl, by decide⟩

/-- The two rows of one moment may both be listed first. -/
theorem not_listsAlwaysOnce : ¬ ListsAlwaysOnce := by
  intro halways
  have hcover : (matching sameMoment 1 oneByOne).length ≤ 2 * oneByOne.limit := by decide
  have hstraddles : Straddles oneByOne.key (matching sameMoment 1 oneByOne)
      (1 * oneByOne.limit) :=
    ⟨soldAt 1 0, by decide, by decide, by decide⟩
  obtain ⟨answers, hanswers, htwice⟩ :=
    exists_answers_of_straddles oneByOne.limit_pos hcover hstraddles
  have hperm := halways (fun _ => none) sameMoment 1 oneByOne (answersOf hanswers) 2 hcover
  rw [listing_eq] at hperm
  exact htwice (List.Nodup.of_map _ (hperm.nodup_iff.mpr nodup_shown))

end Neonfi.Ledger

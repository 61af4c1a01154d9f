import Neonfi.Lib.Numeric
import Neonfi.Lib.Table

/-!
# The ledger tables

Portfolios, assets and transactions as the Prisma schema declares them, restricted
to the columns the modelled functions read or write.  Every unique index is part of
the type of its table.  A monetary value is an exact rational; `Decimal(20,8)` columns
are written through a `Numeric`, and a write transaction whose values leave the range
of their columns fails as a whole.
-/

namespace Neonfi.Ledger

open Lib

/-- A JavaScript `Date`: milliseconds since the epoch. -/
abbrev Millis := ℤ

inductive PortfolioType
  | manual
  | connected
  deriving DecidableEq, Repr

inductive Direction
  | buy
  | sell
  | transfer
  deriving DecidableEq, Repr

inductive Plan
  | free
  | pro
  deriving DecidableEq, Repr

/-! ## Rows -/

structure Token where
  id : ℕ
  symbol : String
  rank : Option ℕ := none
  currentPrice : ℚ
  contractAddress : Option String := none
  deriving DecidableEq, Repr

structure Portfolio where
  id : ℕ
  userId : ℕ
  type : PortfolioType
  walletAddress : Option String := none
  chainId : Option ℕ := none
  startingBalance : Option ℚ := none
  netDeposit : ℚ := 0
  deriving DecidableEq, Repr

/-- An `asset` row.  Its serial id is not modelled: the unique pair of portfolio and
token names the row. -/
structure Asset where
  portfolioId : ℕ
  tokenId : ℕ
  balance : ℚ := 0
  netDeposit : ℚ := 0
  openingBalance : ℚ := 0
  openingCostBasis : Option ℚ := none
  openingAt : Option Millis := none
  realizedPnl : ℚ := 0
  avgCost : Option ℚ := none
  costBasis : ℚ := 0
  deriving DecidableEq, Repr

def Asset.key (a : Asset) : ℕ × ℕ := (a.portfolioId, a.tokenId)

/-- The columns that native and erc20 details share. -/
structure TradeDetail where
  amount : ℚ
  symbol : String
  usdValue : ℚ
  priceAtTime : Option ℚ
  deriving DecidableEq, Repr

structure Erc20Meta where
  tokenContractAddress : String
  tokenName : String
  tokenSymbol : String
  deriving DecidableEq, Repr

structure NftDetail where
  tokenContractAddress : String
  nftTokenId : String
  nftName : Option String
  collectionName : Option String
  deriving DecidableEq, Repr

/-- The detail record of a transaction.  Its constructor is the transaction's type. -/
inductive Detail
  | native (trade : TradeDetail)
  | erc20 (trade : TradeDetail) (info : Erc20Meta)
  | nft (nft : NftDetail)
  deriving DecidableEq, Repr

/-- The native or erc20 columns of a detail record. -/
def Detail.trade? : Detail → Option TradeDetail
  | native trade => some trade
  | erc20 trade _ => some trade
  | nft _ => none

/-- The data of a transaction row, before the database numbers it. -/
structure TransactionData where
  portfolioId : ℕ
  direction : Direction
  fromAddr : Option String := none
  toAddr : Option String := none
  gasFee : Option ℚ := none
  transactionHash : Option String := none
  timestamp : Millis
  notes : Option String := none
  transferGroupId : Option String := none
  detail : Detail
  deriving DecidableEq, Repr

structure Transaction extends TransactionData where
  id : ℕ
  deriving DecidableEq, Repr

/-- The unique index on portfolio and hash; rows without a hash stay distinct. -/
def Transaction.hashKey (t : Transaction) : Option (ℕ × String) :=
  t.transactionHash.map fun hash => (t.portfolioId, hash)

/-- The symbol a native or erc20 row is booked under. -/
def TransactionData.symbol? (t : TransactionData) : Option String :=
  t.detail.trade?.map TradeDetail.symbol

/-! ## The database -/

abbrev TokenTable := SerialTable Token String Token.id fun t => some t.symbol
abbrev PortfolioTable := SerialTable Portfolio Empty Portfolio.id fun _ => none
abbrev AssetTable := Table Asset (ℕ × ℕ) Asset.key
abbrev TransactionTable :=
  SerialTable Transaction (ℕ × String) Transaction.id Transaction.hashKey

@[ext]
structure Db where
  tokens : TokenTable
  portfolios : PortfolioTable
  assets : AssetTable
  transactions : TransactionTable

namespace Db

variable (db : Db)

def findPortfolioById (portfolioId : ℕ) : Option Portfolio := db.portfolios.find? portfolioId

def findTokenBySymbol (symbol : String) : Option Token := db.tokens.findUniq? symbol

def findTokenById (tokenId : ℕ) : Option Token := db.tokens.find? tokenId

def findAsset (portfolioId tokenId : ℕ) : Option Asset := db.assets.find? (portfolioId, tokenId)

def findTransactionById (txId : ℕ) : Option Transaction := db.transactions.find? txId

end Db

/-! ## Failures -/

structure BulkRowError where
  row : ℕ
  column : Option String
  message : String
  deriving DecidableEq, Repr

/-- What a request ends with when it does not commit: an error the controllers map to a
response, or a database error that surfaces as a 500. -/
inductive Failure
  | api (statusCode : ℕ) (code message : String) (info : List (String × String))
  | bulk (statusCode : ℕ) (code message : String) (errors : List BulkRowError)
  | database (code : String)
  deriving DecidableEq, Repr

/-- `new TransactionError(statusCode, code, message)`. -/
def transactionError (statusCode : ℕ) (code message : String) : Failure :=
  .api statusCode code message []

/-- Prisma's unique constraint violation. -/
def uniqueViolation : Failure := .database "P2002"

/-- PostgreSQL's numeric field overflow. -/
def numericOverflow : Failure := .database "22003"

/-- Go on if the condition holds, else throw. -/
def ensure (c : Prop) [Decidable c] (e : Failure) : Except Failure Unit :=
  if c then .ok () else .error e

/-- Go on with the value that was found, else throw. -/
def require {α : Type} (found : Option α) (e : Failure) : Except Failure α :=
  match found with
  | some a => .ok a
  | none => .error e

theorem ensure_ok {c : Prop} [Decidable c] {e : Failure} {u : Unit}
    (h : ensure c e = .ok u) : c := by
  unfold ensure at h
  split at h
  · assumption
  · cases h

theorem require_ok {α : Type} {found : Option α} {e : Failure} {a : α}
    (h : require found e = .ok a) : found = some a := by
  unfold require at h
  split at h
  · cases h
    rfl
  · cases h

/-- A bind succeeds through an intermediate success. -/
theorem bind_eq_ok {α β : Type} {x : Except Failure α} {f : α → Except Failure β} {b : β}
    (h : (x >>= f) = .ok b) : ∃ a, x = .ok a ∧ f a = .ok b := by
  cases x with
  | error e => cases h
  | ok a => exact ⟨a, rfl, h⟩

theorem ok_bind {α β : Type} (a : α) (f : α → Except Failure β) :
    ((Except.ok a : Except Failure α) >>= f) = f a := rfl

theorem error_bind {α β : Type} (e : Failure) (f : α → Except Failure β) :
    ((Except.error e : Except Failure α) >>= f) = .error e := rfl

/-! ## Statements -/

section Statements

variable (N : Numeric)

/-- The numbers a row keeps in `Decimal(20,8)` columns. -/
def Portfolio.decimals (p : Portfolio) : List ℚ := [p.netDeposit] ++ p.startingBalance.toList

def Asset.decimals (a : Asset) : List ℚ :=
  [a.balance, a.netDeposit, a.openingBalance, a.realizedPnl, a.costBasis] ++
    a.openingCostBasis.toList ++ a.avgCost.toList

def TradeDetail.decimals (d : TradeDetail) : List ℚ :=
  [d.amount, d.usdValue] ++ d.priceAtTime.toList

def Transaction.decimals (t : Transaction) : List ℚ :=
  t.gasFee.toList ++ (t.detail.trade?.map TradeDetail.decimals).getD []

namespace Db

/-- Every stored number is within the range of its column. -/
def fits (db : Db) : Bool :=
  db.portfolios.rows.all (fun p => p.decimals.all N.fits) &&
    db.assets.rows.all (fun a => a.decimals.all N.fits) &&
    db.transactions.rows.all fun t => t.decimals.all N.fits

/-- End of a write transaction.  Each column is written at most once per transaction, so
checking the ranges here refuses the transactions that a check per statement refuses. -/
def commit (db : Db) : Except Failure Db :=
  if db.fits N then .ok db else .error numericOverflow

/-- `tx.asset.create`. -/
def createAsset (a : Asset) (db : Db) : Except Failure Db :=
  match db.assets.insert? a with
  | some assets => .ok { db with assets }
  | none => .error uniqueViolation

/-- `tx.asset.delete`. -/
def deleteAsset (key : ℕ × ℕ) (db : Db) : Db :=
  { db with assets := db.assets.filter fun a => a.key ≠ key }

/-- Rewrite the asset row of a portfolio and token, if there is one. -/
def updateAssetRow (portfolioId tokenId : ℕ) (f : Asset → Asset)
    (hf : ∀ a, (f a).key = a.key) (db : Db) : Db :=
  { db with
    assets := db.assets.modify (fun a => if a.key = (portfolioId, tokenId) then f a else a)
      fun a => by split <;> simp [hf] }

/-- `tx.portfolio.create`; the row gets the next number of the sequence. -/
def createPortfolio (mk : ℕ → Portfolio) (hmk : ∀ n, (mk n).id = n) (db : Db) :
    Except Failure (ℕ × Db) :=
  match db.portfolios.insert? mk hmk with
  | some portfolios => .ok (db.portfolios.next, { db with portfolios })
  | none => .error uniqueViolation

/-- `tx.portfolio.update` of the aggregate column. -/
def setNetDeposit (portfolioId : ℕ) (netDeposit : ℚ) (db : Db) : Db :=
  { db with
    portfolios := db.portfolios.modify
      (fun p => if p.id = portfolioId then { p with netDeposit } else p)
      (fun p => by split <;> rfl) fun _ => rfl }

/-- `createTransactionRow` together with the insert of its detail record. -/
def createTransactionRow (data : TransactionData) (db : Db) : Except Failure Db :=
  match db.transactions.insert? (fun id => { data with id }) fun _ => rfl with
  | some transactions => .ok { db with transactions }
  | none => .error uniqueViolation

/-- `updateTransactionBase` and the update of the detail record, as one rewrite. -/
def updateTransactionRow (txId : ℕ) (f : Transaction → Transaction)
    (hid : ∀ t, (f t).id = t.id) (hkey : ∀ t, (f t).hashKey = t.hashKey) (db : Db) : Db :=
  { db with
    transactions := db.transactions.modify (fun t => if t.id = txId then f t else t)
      (fun t => by split <;> simp [hid]) (fun t => by split <;> simp [hkey]) }

/-- `deleteTransactionRow`; the detail record goes with the row. -/
def deleteTransactionRow (txId : ℕ) (db : Db) : Db :=
  { db with transactions := db.transactions.filter fun t => t.id ≠ txId }

end Db

end Statements

end Neonfi.Ledger

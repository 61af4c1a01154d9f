import Neonfi.Ledger.Assets
import Neonfi.Ledger.BulkCells

/-!
# Bulk imports

`bulkCreateTransactions` and `bulkCreateAssets`.  A forward pass checks and prepares the
rows against maps that are loaded once; one write transaction then inserts what was
prepared.
-/

namespace Neonfi.Ledger

open Lib

/-! ## The parity gate of a transaction row -/

/-- An issue of the single-create schema: the field it names and its message. -/
abbrev Issue := String × String

/-- The native-transaction body rebuilt from a row. -/
structure Candidate where
  direction : Direction
  symbol : String
  amount : String
  priceAtTime : String
  timestamp : Millis
  notes : Option String
  fromAddr : Option String
  toAddr : Option String
  transactionHash : Option String
  gasFee : Option String

def notDecimal : String := "must be a non-negative decimal string"

def tooLarge : String := "value must be less than 1000000000000"

def parseBounded (field value : String) : Except Issue BoundedDecimal :=
  match decimal? value with
  | none => .error (field, notDecimal)
  | some q =>
      if h : 0 ≤ q ∧ q < 10 ^ 12 then .ok ⟨q, h⟩ else .error (field, tooLarge)

def parseAmount (field value : String) : Except Issue AmountStr := do
  let q ← parseBounded field value
  if h : 0 < q.val then return ⟨q.val, h, q.property.2⟩
  else throw (field, "amount must be greater than 0")

def parseSymbol (field value : String) : Except Issue SymbolStr :=
  if h₁ : 1 ≤ utf16Length value then
    if h₂ : utf16Length value ≤ 20 then .ok ⟨value, h₁, h₂⟩
    else .error (field, "String must contain at most 20 character(s)")
  else .error (field, "String must contain at least 1 character(s)")

def parseText (field : String) (cap : ℕ) (value : Option String) : Except Issue (Option String) :=
  match value with
  | none => .ok none
  | some s =>
      if utf16Length s ≤ cap then .ok (some s)
      else .error (field, s!"String must contain at most {cap} character(s)")

def parseOptional (field : String) (value : Option String) :
    Except Issue (Option BoundedDecimal) :=
  match value with
  | none => .ok none
  | some s => (parseBounded field s).map some

def clockSkewMs : ℤ := 5 * 60 * 1000

def parseTimestamp (env : Env) (ts : Millis) : Except Issue Millis :=
  if ts ≤ env.now + clockSkewMs then .ok ts
  else .error ("timestamp", "timestamp must not be in the future")

/-- `CreateTransactionBodySchema.safeParse` on a native candidate, up to its first issue. -/
def safeParse (env : Env) (c : Candidate) : Except Issue CreateTransactionBody := do
  let amount ← parseAmount "amount" c.amount
  let symbol ← parseSymbol "symbol" c.symbol
  let priceAtTime ← parseBounded "priceAtTime" c.priceAtTime
  let timestamp ← parseTimestamp env c.timestamp
  let transactionHash ← parseText "transactionHash" 255 c.transactionHash
  let fromAddr ← parseText "from" 255 c.fromAddr
  let toAddr ← parseText "to" 255 c.toAddr
  let gasFee ← parseOptional "gasFee" c.gasFee
  let notes ← parseText "notes" 2000 c.notes
  return {
    payload := .native { amount, symbol, priceAtTime := some priceAtTime }
    direction := c.direction
    timestamp, transactionHash, fromAddr, toAddr, gasFee, notes }

/-- The CSV column a field of the body was typed in. -/
def zodPathToTxColumn : String → Option String
  | "direction" => some "type"
  | "priceAtTime" => some "price"
  | "timestamp" => some "date"
  | "transactionHash" => some "transaction_hash"
  | "gasFee" => some "gas_fee"
  | "amount" => some "amount"
  | "symbol" => some "symbol"
  | "notes" => some "notes"
  | "from" => some "from"
  | "to" => some "to"
  | _ => none

/-! ## Cells of a transaction row -/

/-- `cellStr(raw, key) || null`. -/
def cellOpt (raw : BulkRow) (key : String) : Option String :=
  let s := cellStr raw key
  if s = "" then none else some s

def rowError (row : ℕ) (column message : String) : BulkRowError := ⟨row, some column, message⟩

def typeErrors (js : Js) (row : ℕ) (raw : BulkRow) : List BulkRowError :=
  let typeRaw := js.toLowerCase (cellStr raw "type")
  if typeRaw = "" then [rowError row "type" "type is required (buy or sell)"]
  else if typeRaw ≠ "buy" ∧ typeRaw ≠ "sell" then
    [rowError row "type" s!"must be buy or sell, got '{typeRaw}'"]
  else []

def symbolErrors (symbol : String) (token : Option Token) (row : ℕ) : List BulkRowError :=
  if symbol = "" then [rowError row "symbol" "symbol is required"]
  else if token.isNone then
    [rowError row "symbol" s!"'{symbol}' is not a recognized token"]
  else []

/-- A cell that must hold a positive number. -/
def numberErrors (row : ℕ) (column value : String) : List BulkRowError :=
  if value = "" then [rowError row column s!"{column} is required"]
  else (numberCellError value true).toList.map (rowError row column)

def dateErrors (env : Env) (row : ℕ) (raw : BulkRow) : List BulkRowError :=
  let date := cellStr raw "date"
  if date = "" then [rowError row "date" "date is required"]
  else (dateCellError date env.now).toList.map (rowError row "date")

def gasFeeErrors (row : ℕ) (raw : BulkRow) : List BulkRowError :=
  let gasFee := cellStr raw "gasFee"
  if gasFee = "" then []
  else (numberCellError gasFee false).toList.map (rowError row "gas_fee")

def rowSymbol (js : Js) (raw : BulkRow) : String := normalizeSymbol js (cellStr raw "symbol")

def rowToken (js : Js) (db : Db) (raw : BulkRow) : Option Token :=
  if rowSymbol js raw = "" then none else db.findTokenBySymbol (rowSymbol js raw)

def cellErrors (js : Js) (env : Env) (db : Db) (row : ℕ) (raw : BulkRow) : List BulkRowError :=
  typeErrors js row raw ++ symbolErrors (rowSymbol js raw) (rowToken js db raw) row ++
    numberErrors row "amount" (cellStr raw "amount") ++
    numberErrors row "price" (cellStr raw "price") ++
    dateErrors env row raw ++ gasFeeErrors row raw

def rowDirection (js : Js) (raw : BulkRow) : Direction :=
  if js.toLowerCase (cellStr raw "type") = "buy" then .buy else .sell

/-- The native body of a row whose cells are well formed. -/
def rowCandidate (js : Js) (env : Env) (symbol : String) (raw : BulkRow) : Candidate where
  direction := rowDirection js raw
  symbol := symbol
  amount := cellStr raw "amount"
  priceAtTime := cellStr raw "price"
  timestamp := (cellDate? (cellStr raw "date") env.now).getD 0
  notes := cellOpt raw "notes"
  fromAddr := cellOpt raw "from"
  toAddr := cellOpt raw "to"
  transactionHash := cellOpt raw "transactionHash"
  gasFee := cellOpt raw "gasFee"

/-! ## The forward pass over transaction rows -/

structure PreparedTxRow where
  row : ℕ
  tokenId : ℕ
  body : CreateTransactionBody
  usdValue : ℚ
  createAsset : Bool
  duplicate : Bool

/-- What the forward pass carries from row to row. -/
structure Batch where
  heldTokens : ℕ → Bool
  runningBalance : ℕ → ℚ
  seenHashes : List String := []
  errors : List BulkRowError := []
  prepared : List PreparedTxRow := []

namespace Batch

def addError (b : Batch) (row : ℕ) (column : Option String) (message : String) : Batch :=
  { b with errors := b.errors ++ [⟨row, column, message⟩] }

def setBalance (b : Batch) (tokenId : ℕ) (balance : ℚ) : Batch :=
  { b with runningBalance := Function.update b.runningBalance tokenId balance }

/-- The maps loaded before the pass. -/
def load (db : Db) (portfolioId : ℕ) : Batch where
  heldTokens tokenId := (db.findAsset portfolioId tokenId).isSome
  runningBalance tokenId := ((db.findAsset portfolioId tokenId).map Asset.balance).getD 0

end Batch

def hashTaken (db : Db) (portfolioId : ℕ) (hash : String) : Bool :=
  db.transactions.rows.any fun t => t.hashKey = some (portfolioId, hash)

/-- The business rules of a row on the running balance: the next batch and whether the
row creates the asset, or the column and message of the refusal. -/
def applyRunning (js : Js) (plan : Plan) (token : Token) (direction : Direction)
    (amountCell : String) (amount : ℚ) (b : Batch) : Except (String × String) (Batch × Bool) :=
  match direction with
  | .buy =>
      if b.heldTokens token.id then
        .ok (b.setBalance token.id (b.runningBalance token.id + amount), false)
      else if planRefuses plan token then
        .error ("symbol",
          s!"'{token.symbol}' needs a Pro plan (free plans are limited to top-10 tokens)")
      else
        let held := { b with heldTokens := Function.update b.heldTokens token.id true }
        .ok (held.setBalance token.id (0 + amount), true)
  | _ =>
      if ¬ b.heldTokens token.id then
        .error ("symbol", s!"you don't hold '{token.symbol}' yet. Import its buy first")
      else
        let bal := b.runningBalance token.id
        if bal < amount then
          .error ("amount", s!"can't sell {amountCell} {token.symbol}; only " ++
            js.numberToString bal ++ " available at this point")
        else .ok (b.setBalance token.id (bal - amount), false)

/-- Note a hash as seen; a row without one leaves the set alone. -/
def Batch.see (b : Batch) (hash : Option String) : Batch :=
  { b with seenHashes := b.seenHashes ++ hash.toList }

section Operations

variable (N : Numeric)

/-- One row of the forward pass. -/
def prepareRow (js : Js) (env : Env) (portfolio : Portfolio) (db : Db) (row : ℕ)
    (raw : BulkRow) (b : Batch) : Batch :=
  match cellErrors js env db row raw, rowToken js db raw with
  | [], some token =>
      match safeParse env (rowCandidate js env token.symbol raw) with
      | .error (field, message) => b.addError row (zodPathToTxColumn field) message
      | .ok body =>
          let duplicate := body.transactionHash.any fun hash =>
            hashTaken db portfolio.id hash || b.seenHashes.contains hash
          if duplicate then
            { b with
              prepared := b.prepared ++ [⟨row, token.id, body, 0, false, true⟩] }
          else
            let amountCell := cellStr raw "amount"
            let amount := (decimal? amountCell).getD 0
            let price := (decimal? (cellStr raw "price")).getD 0
            let b := b.see body.transactionHash
            match applyRunning js (env.plan portfolio.userId) token body.direction
                amountCell amount b with
            | .error (column, message) => b.addError row (some column) message
            | .ok (b, createAsset) =>
                let usdValue := computeUsdValue N env db token.symbol amount (some price)
                { b with
                  prepared := b.prepared ++
                    [⟨row, token.id, body, usdValue, createAsset, false⟩] }
  | errors, _ => { b with errors := b.errors ++ errors }

/-- The forward pass; rows are numbered from one. -/
def prepareRows (js : Js) (env : Env) (portfolio : Portfolio) (db : Db) :
    List BulkRow → ℕ → Batch → Batch
  | [], _, b => b
  | raw :: rows, row, b =>
      prepareRows js env portfolio db rows (row + 1)
        (prepareRow N js env portfolio db row raw b)

def insertPrepared (portfolioId : ℕ) (db : Db) (p : PreparedTxRow) : Except Failure Db := do
  let db ← createIfNeeded p.createAsset portfolioId p.tokenId db
  db.createTransactionRow (p.body.row N portfolioId p.usdValue)

/-- The number of distinct rows that an error names. -/
def erroredRows (errors : List BulkRowError) : ℕ := (errors.map BulkRowError.row).dedup.length

/-- Rows skipped for an error; an all-or-nothing import does not skip. -/
def skippedErrors (mode : BulkMode) (errors : List BulkRowError) : ℕ :=
  if mode = .skipInvalid then erroredRows errors else 0

/-- The write transaction of a bulk import: the rows, then each touched token once, then
the portfolio total once. -/
def writePrepared (portfolioId : ℕ) (toInsert : List PreparedTxRow) (db : Db) :
    Except Failure Db := do
  let db ← toInsert.foldlM (insertPrepared N portfolioId) db
  let affectedTokens := (toInsert.map PreparedTxRow.tokenId).dedup
  let db := affectedTokens.foldl (fun db tokenId => recalcAssetBalance N portfolioId tokenId db) db
  (recalcPortfolioNetDeposit N portfolioId db).commit N

def bulkCreateTransactions (js : Js) (env : Env) (portfolio : Portfolio) (body : BulkBody)
    (db : Db) : Except Failure (Db × BulkResult) := do
  ensure (portfolio.type = .manual) notManual
  ensure (body.rows.length ≤ bulkRowCap) tooManyRows
  let b := prepareRows N js env portfolio db body.rows 1 (Batch.load db portfolio.id)
  ensure (¬ (body.mode = .allOrNothing ∧ b.errors ≠ [])) (bulkValidationFailed b.errors)
  let toInsert := b.prepared.filter fun p => !p.duplicate
  let skipped := (b.prepared.filter PreparedTxRow.duplicate).length +
    skippedErrors body.mode b.errors
  if toInsert = [] then return (db, ⟨0, skipped, b.errors⟩)
  else
    let db ← writePrepared N portfolio.id toInsert db
    return (db, ⟨toInsert.length, skipped, b.errors⟩)

end Operations

end Neonfi.Ledger

import Neonfi.Ledger.Bulk

/-!
# Bulk import of opening positions

`bulkCreateAssets`: each row opens a position, its cost mode derived from the columns that
are filled in.
-/

namespace Neonfi.Ledger

open Lib

structure PreparedAssetRow where
  row : ℕ
  tokenId : ℕ
  balance : ℚ
  openingCostBasis : Option ℚ
  openingAt : Option Millis

structure AssetBatch where
  seenTokens : List ℕ := []
  errors : List BulkRowError := []
  prepared : List PreparedAssetRow := []

def AssetBatch.addError (b : AssetBatch) (row : ℕ) (column : Option String) (message : String) :
    AssetBatch :=
  { b with errors := b.errors ++ [⟨row, column, message⟩] }

inductive CostMode
  | avg
  | historical
  | none
  deriving DecidableEq, Repr

/-- A cost per unit wins over an acquisition date. -/
def costMode (raw : BulkRow) : CostMode :=
  if cellStr raw "costPerUnit" ≠ "" then .avg
  else if cellStr raw "acquiredDate" ≠ "" then .historical
  else .none

def costErrors (env : Env) (row : ℕ) (raw : BulkRow) : List BulkRowError :=
  match costMode raw with
  | .avg =>
      (numberCellError (cellStr raw "costPerUnit") true).toList.map (rowError row "cost_per_unit")
  | .historical =>
      (dateCellError (cellStr raw "acquiredDate") env.now).toList.map
        (rowError row "acquired_date")
  | .none => []

def assetCellErrors (js : Js) (env : Env) (db : Db) (row : ℕ) (raw : BulkRow) :
    List BulkRowError :=
  symbolErrors (rowSymbol js raw) (rowToken js db raw) row ++
    numberErrors row "quantity" (cellStr raw "quantity") ++ costErrors env row raw

def zodPathToAssetColumn : List String → Option String
  | "balance" :: _ => some "quantity"
  | "cost" :: "date" :: _ => some "acquired_date"
  | "cost" :: _ => some "cost_per_unit"
  | "tokenId" :: _ => some "symbol"
  | _ => none

/-- The cost union of a row whose cells are well formed. -/
def rowCost (env : Env) (raw : BulkRow) : Except (List String × String) Cost :=
  match costMode raw with
  | .avg =>
      match decimal? (cellStr raw "costPerUnit") with
      | some q => if h : 0 ≤ q then .ok (.avg ⟨q, h⟩) else .error (["cost", "avgCost"], notDecimal)
      | none => .error (["cost", "avgCost"], notDecimal)
  | .historical =>
      let date := cellStr raw "acquiredDate"
      match cellDate? date env.now with
      | some ms => .ok (.historical ⟨date ++ "T00:00:00.000Z", ms⟩)
      | none => .error (["cost", "date"], "cost.date must be an ISO 8601 datetime string")
  | .none => .ok .none

/-- `CreateAssetBodySchema.safeParse` on a row, up to its first issue. -/
def safeParseAsset (env : Env) (tokenId : ℕ) (raw : BulkRow) :
    Except (List String × String) CreateAssetBody :=
  if tokenId = 0 then .error (["tokenId"], "Number must be greater than 0")
  else
    match decimal? (cellStr raw "quantity") with
    | some q =>
        if h : 0 ≤ q then (rowCost env raw).map fun cost => ⟨tokenId, ⟨q, h⟩, cost⟩
        else .error (["balance"], notDecimal)
    | none => .error (["balance"], notDecimal)

section Operations

variable (N : Numeric)

def prepareAssetRow (js : Js) (env : Env) (userId : ℕ) (portfolio : Portfolio) (db : Db)
    (row : ℕ) (raw : BulkRow) (b : AssetBatch) : AssetBatch :=
  match assetCellErrors js env db row raw, rowToken js db raw with
  | [], some token =>
      if (db.findAsset portfolio.id token.id).isSome ∨ token.id ∈ b.seenTokens then
        b.addError row (some "symbol")
          s!"'{token.symbol}' already has a starting position in this portfolio"
      else if planRefuses (env.plan userId) token then
        b.addError row (some "symbol")
          s!"'{token.symbol}' needs a Pro plan (free plans are limited to top-10 tokens)"
      else
        match safeParseAsset env token.id raw with
        | .error (path, message) => b.addError row (zodPathToAssetColumn path) message
        | .ok body =>
            match resolveOpeningCost N env db token.id body.balance body.cost with
            | none =>
                let date := cellStr raw "acquiredDate"
                b.addError row (some "acquired_date")
                  s!"no price available for {date}. provide a cost per unit instead"
            | some opening =>
                { b with
                  seenTokens := b.seenTokens ++ [token.id]
                  prepared := b.prepared ++
                    [⟨row, token.id, body.balance, opening.1, opening.2⟩] }
  | errors, _ => { b with errors := b.errors ++ errors }

def prepareAssetRows (js : Js) (env : Env) (userId : ℕ) (portfolio : Portfolio) (db : Db) :
    List BulkRow → ℕ → AssetBatch → AssetBatch
  | [], _, b => b
  | raw :: rows, row, b =>
      prepareAssetRows js env userId portfolio db rows (row + 1)
        (prepareAssetRow N js env userId portfolio db row raw b)

def insertOpening (portfolioId : ℕ) (db : Db) (p : PreparedAssetRow) : Except Failure Db := do
  let db ← db.createAsset
    (openingAsset N portfolioId p.tokenId p.balance (p.openingCostBasis, p.openingAt))
  return recalcAssetBalance N portfolioId p.tokenId db

def writeOpenings (portfolioId : ℕ) (prepared : List PreparedAssetRow) (db : Db) :
    Except Failure Db := do
  let db ← prepared.foldlM (insertOpening N portfolioId) db
  (recalcPortfolioNetDeposit N portfolioId db).commit N

def bulkCreateAssets (js : Js) (env : Env) (userId : ℕ) (portfolio : Portfolio)
    (body : BulkBody) (db : Db) : Except Failure (Db × BulkResult) := do
  ensure (portfolio.type = .manual) notManual
  ensure (body.rows.length ≤ bulkRowCap) tooManyRows
  let b := prepareAssetRows N js env userId portfolio db body.rows 1 {}
  ensure (¬ (body.mode = .allOrNothing ∧ b.errors ≠ [])) (bulkValidationFailed b.errors)
  let skipped := skippedErrors body.mode b.errors
  if b.prepared = [] then return (db, ⟨0, skipped, b.errors⟩)
  else
    let db ← writeOpenings N portfolio.id b.prepared db
    return (db, ⟨b.prepared.length, skipped, b.errors⟩)

end Operations

end Neonfi.Ledger

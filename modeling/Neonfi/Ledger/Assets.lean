import Neonfi.Ledger.Transactions

/-!
# Opening positions

`addAsset`, `updateAsset` and `removeAsset`.  An opening position is a holding that was
there before the ledger: its quantity and its cost seed the average-cost fold.
-/

namespace Neonfi.Ledger

open Lib

/-- An ISO 8601 datetime string and the instant it names. -/
structure IsoDate where
  text : String
  ms : Millis
  deriving DecidableEq, Repr

/-- How the cost of an opening position is given. -/
inductive Cost
  | avg (avgCost : DecimalStr)
  | historical (date : IsoDate)
  | none

def Cost.dateInfo : Cost → List (String × String)
  | historical date => [("date", date.text)]
  | _ => []

structure CreateAssetBody where
  tokenId : ℕ
  balance : DecimalStr
  cost : Cost

structure UpdateAssetBody where
  netDeposit : Option DecimalStr := none
  balance : Option DecimalStr := none
  cost : Option Cost := none

def assertManualAssets (portfolio : Portfolio) : Except Failure Unit :=
  ensure (portfolio.type ≠ .connected)
    (transactionError 403 "CONNECTED_PORTFOLIO_READ_ONLY"
      "Assets in connected portfolios are read-only")

def invalidBalance : Failure :=
  transactionError 400 "INVALID_BALANCE" "Opening balance must be greater than 0"

def priceHistoryUnavailable (info : List (String × String)) : Failure :=
  .api 400 "PRICE_HISTORY_UNAVAILABLE"
    "No price available for the requested date. Choose average or no cost" info

/-- Stored history first, the price provider on demand. -/
def priceAtDate (env : Env) (db : Db) (tokenId : ℕ) (asOf : Millis) : Option ℚ :=
  (env.snapshotPrice tokenId asOf).or <|
    (db.findTokenById tokenId).bind fun token => env.historicalPrice token.symbol asOf

section Operations

variable (N : Numeric)

/-- The opening cost basis and date of a cost mode; `none` when there is no price. -/
def resolveOpeningCost (env : Env) (db : Db) (tokenId : ℕ) (balance : ℚ) :
    Cost → Option (Option ℚ × Option Millis)
  | .avg avgCost => some (some (N.fix (balance * avgCost)), none)
  | .historical date =>
      (priceAtDate env db tokenId date.ms).map fun price =>
        (some (N.fix (balance * price)), some date.ms)
  | .none => some (none, none)

/-- The row of a new opening position; its derived columns start at their defaults. -/
def openingAsset (portfolioId tokenId : ℕ) (balance : ℚ)
    (opening : Option ℚ × Option Millis) : Asset where
  portfolioId := portfolioId
  tokenId := tokenId
  openingBalance := N.fix balance
  openingCostBasis := opening.1
  openingAt := opening.2

/-- The plan refusal of `addAsset`, which names the token. -/
def openingPlanLimit (token : Token) : Failure :=
  .api 403 "PLAN_LIMIT_REACHED" "Your plan only allows tokens ranked in the top 10"
    [("tokenSymbol", token.symbol), ("plan", "free"), ("requiredRank", "10")]

def addAsset (userId : ℕ) (env : Env) (portfolio : Portfolio) (body : CreateAssetBody)
    (db : Db) : Except Failure Db := do
  assertManualAssets portfolio
  ensure (0 < body.balance.val) invalidBalance
  let token ← require (db.findTokenById body.tokenId)
    (transactionError 400 "INVALID_TOKEN" "Token not found")
  ensure (planRefuses (env.plan userId) token = false) (openingPlanLimit token)
  ensure (db.findAsset portfolio.id body.tokenId = none)
    (transactionError 409 "ASSET_ALREADY_EXISTS" "This token is already in the portfolio")
  let opening ← require (resolveOpeningCost N env db body.tokenId body.balance body.cost)
    (priceHistoryUnavailable (("tokenSymbol", token.symbol) :: body.cost.dateInfo))
  let db ← db.createAsset (openingAsset N portfolio.id body.tokenId body.balance opening)
  let db := recalcAssetBalance N portfolio.id body.tokenId db
  let db := recalcPortfolioNetDeposit N portfolio.id db
  db.commit N

def assetNotFound : Failure := transactionError 404 "ASSET_NOT_FOUND" "Asset not found"

/-- The asset row of a request, which must belong to its portfolio. -/
def findOwnAsset (portfolio : Portfolio) (assetId : ℕ × ℕ) (db : Db) :
    Except Failure Asset := do
  let existing ← require (db.assets.find? assetId) assetNotFound
  ensure (existing.portfolioId = portfolio.id) assetNotFound
  return existing

/-- A balance-only edit keeps the cost per unit. -/
def rescaledOpening (existing : Asset) (balance : ℚ) : Option ℚ × Option Millis :=
  let basis := existing.openingCostBasis.bind fun basis =>
    if 0 < existing.openingBalance then
      some (N.fix (balance * (basis / existing.openingBalance)))
    else none
  (basis, existing.openingAt)

def editedOpening (env : Env) (db : Db) (existing : Asset) (balance : ℚ) :
    Option Cost → Option (Option ℚ × Option Millis)
  | none => some (rescaledOpening N existing balance)
  | some cost => resolveOpeningCost N env db existing.tokenId balance cost

def setOpening (balance : ℚ) (opening : Option ℚ × Option Millis) (a : Asset) : Asset :=
  { a with
    openingBalance := N.fix balance
    openingCostBasis := opening.1
    openingAt := opening.2 }

def editOpening (env : Env) (portfolio : Portfolio) (existing : Asset) (balance : ℚ)
    (cost : Option Cost) (db : Db) : Except Failure Db := do
  ensure (0 < balance) invalidBalance
  let opening ← require (editedOpening N env db existing balance cost)
    (priceHistoryUnavailable ((cost.map Cost.dateInfo).getD []))
  let db := db.updateAssetRow existing.portfolioId existing.tokenId
    (setOpening N balance opening) fun _ => rfl
  let db := recalcAssetBalance N portfolio.id existing.tokenId db
  let db := recalcPortfolioNetDeposit N portfolio.id db
  db.commit N

def UpdateAssetBody.isOpeningEdit (body : UpdateAssetBody) : Bool :=
  body.balance.isSome || body.cost.isSome

/-- An edit with a balance or a cost rewrites the opening lot; otherwise `netDeposit` is
written as it is given. -/
def updateAsset (env : Env) (portfolio : Portfolio) (assetId : ℕ × ℕ) (body : UpdateAssetBody)
    (db : Db) : Except Failure Db := do
  assertManualAssets portfolio
  let existing ← findOwnAsset portfolio assetId db
  if body.isOpeningEdit then
    let balance := (body.balance.map Subtype.val).getD existing.openingBalance
    editOpening N env portfolio existing balance body.cost db
  else
    match body.netDeposit with
    | some netDeposit =>
        (db.updateAssetRow existing.portfolioId existing.tokenId
          (fun a => { a with netDeposit := N.fix netDeposit }) fun _ => rfl).commit N
    | none => return db

def removeAsset (portfolio : Portfolio) (assetId : ℕ × ℕ) (db : Db) : Except Failure Db := do
  assertManualAssets portfolio
  let existing ← findOwnAsset portfolio assetId db
  let db := recalcPortfolioNetDeposit N portfolio.id (db.deleteAsset existing.key)
  db.commit N

end Operations

end Neonfi.Ledger

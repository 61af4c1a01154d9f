import Neonfi.Ledger.Transactions

/-!
# Creating a manual portfolio

The manual branch of `createPortfolio`, after the plan cap and the name check: the
portfolio, its initial holdings and their acquisitions in one write transaction.
-/

namespace Neonfi.Ledger

open Lib

/-- An initial holding, with its acquisition when it has an amount. -/
structure SeedAsset where
  tokenId : ℕ
  amount : Option DecimalStr := none
  priceAtTime : Option DecimalStr := none
  timestamp : Option Millis := none
  notes : Option String := none

section Operations

variable (N : Numeric)

/-- The acquisition of a seed: a manual native buy. -/
def seedRow (portfolioId : ℕ) (symbol : String) (amount usdValue : ℚ) (timestamp : Millis)
    (seed : SeedAsset) : TransactionData where
  portfolioId := portfolioId
  direction := .buy
  timestamp := timestamp
  notes := seed.notes
  detail := .native
    { amount := N.fix amount
      symbol := symbol
      usdValue := usdValue
      priceAtTime := seed.priceAtTime.map fun price => N.fix price }

def seedAcquisitionInTx (env : Env) (portfolioId : ℕ) (token : Token) (amount : ℚ)
    (seed : SeedAsset) (db : Db) : Except Failure Db := do
  let usdValue := computeUsdValue N env db token.symbol amount
    (seed.priceAtTime.map Subtype.val)
  let db ← db.createTransactionRow
    (seedRow N portfolioId token.symbol amount usdValue (seed.timestamp.getD env.now) seed)
  let db := recalcAssetBalance N portfolioId token.id db
  return recalcPortfolioNetDeposit N portfolioId db

def duplicateAsset (tokenId : ℕ) : Failure :=
  .api 409 "DUPLICATE_ASSET" "Duplicate token in assets list" [("tokenId", toString tokenId)]

def invalidSeedToken (tokenId : ℕ) : Failure :=
  .api 400 "INVALID_TOKEN" "Token not found" [("tokenId", toString tokenId)]

def seedPlanLimit (token : Token) : Failure :=
  .api 403 "PLAN_LIMIT_REACHED" "Your plan only allows tokens ranked in the top 10"
    [("tokenSymbol", token.symbol), ("plan", "free"), ("requiredRank", "10")]

/-- One initial holding: its checks, its asset row, its acquisition. -/
def seedAsset (env : Env) (plan : Plan) (portfolioId : ℕ) (seenTokenIds : List ℕ)
    (seed : SeedAsset) (db : Db) : Except Failure Db := do
  ensure (seed.tokenId ∉ seenTokenIds) (duplicateAsset seed.tokenId)
  let token ← require (db.findTokenById seed.tokenId) (invalidSeedToken seed.tokenId)
  ensure (planRefuses plan token = false) (seedPlanLimit token)
  let db ← db.createAsset (emptyAsset portfolioId seed.tokenId)
  match seed.amount with
  | some amount =>
      if 0 < amount.val then seedAcquisitionInTx N env portfolioId token amount seed db
      else return db
  | none => return db

def seedAssets (env : Env) (plan : Plan) (portfolioId : ℕ) :
    List ℕ → List SeedAsset → Db → Except Failure Db
  | _, [], db => .ok db
  | seenTokenIds, seed :: seeds, db => do
      let db ← seedAsset N env plan portfolioId seenTokenIds seed db
      seedAssets env plan portfolioId (seed.tokenId :: seenTokenIds) seeds db

/-- The new row; `netDeposit` starts at the declared starting balance. -/
def manualPortfolio (userId : ℕ) (startingBalance : Option DecimalStr) (id : ℕ) : Portfolio where
  id := id
  userId := userId
  type := .manual
  startingBalance := startingBalance.map fun balance => N.fix balance
  netDeposit := (startingBalance.map fun balance => N.fix balance).getD 0

def createManualPortfolio (env : Env) (userId : ℕ) (startingBalance : Option DecimalStr)
    (assets : List SeedAsset) (db : Db) : Except Failure (ℕ × Db) := do
  let (portfolioId, db) ← db.createPortfolio (manualPortfolio N userId startingBalance)
    fun _ => rfl
  let db ← seedAssets N env (env.plan userId) portfolioId [] assets db
  let db ← db.commit N
  return (portfolioId, db)

end Operations

end Neonfi.Ledger

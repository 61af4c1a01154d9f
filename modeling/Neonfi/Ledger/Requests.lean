import Neonfi.Ledger.AssetsBulk
import Neonfi.Lib.Run

/-!
# Requests on the ledger

The routes under a portfolio, with the ownership middleware in front of them, and the
transition system they make: one step is one request that succeeds.
-/

namespace Neonfi.Ledger

open Lib

inductive Action
  | createTransaction (body : CreateTransactionBody)
  | updateTransaction (txId : ℕ) (body : UpdateTransactionBody)
  | deleteTransaction (txId : ℕ)
  | transfer (body : TransferBody)
  | bulkTransactions (body : BulkBody)
  | addAsset (body : CreateAssetBody)
  | updateAsset (assetId : ℕ × ℕ) (body : UpdateAssetBody)
  | removeAsset (assetId : ℕ × ℕ)
  | bulkAssets (body : BulkBody)

/-- A request of a user on a portfolio, with what the environment answers while it runs. -/
structure Request where
  userId : ℕ
  portfolioId : ℕ
  env : Env
  action : Action

def forbidden : Failure :=
  transactionError 403 "FORBIDDEN" "Portfolio not found or access denied"

def ownedPortfolio (userId portfolioId : ℕ) (db : Db) : Except Failure Portfolio := do
  let portfolio ← require (db.findPortfolioById portfolioId) forbidden
  ensure (portfolio.userId = userId) forbidden
  return portfolio

section Handler

variable (N : Numeric) (js : Js)

def dispatch (userId : ℕ) (env : Env) (portfolio : Portfolio) (db : Db) :
    Action → Except Failure Db
  | .createTransaction body => createTransaction N env portfolio body db
  | .updateTransaction txId body => updateTransaction N env portfolio txId body db
  | .deleteTransaction txId => deleteTransaction N portfolio txId db
  | .transfer body => createCrossPortfolioTransfer N env portfolio body db
  | .bulkTransactions body => (bulkCreateTransactions N js env portfolio body db).map Prod.fst
  | .addAsset body => addAsset N userId env portfolio body db
  | .updateAsset assetId body => updateAsset N env portfolio assetId body db
  | .removeAsset assetId => removeAsset N portfolio assetId db
  | .bulkAssets body => (bulkCreateAssets N js env userId portfolio body db).map Prod.fst

def handle (r : Request) (db : Db) : Except Failure Db := do
  let portfolio ← ownedPortfolio r.userId r.portfolioId db
  dispatch N js r.userId r.env portfolio db r.action

/-- One successful request. -/
def Step (db : Db) (r : Request) (db' : Db) : Prop := handle N js r db = .ok db'

end Handler

end Neonfi.Ledger

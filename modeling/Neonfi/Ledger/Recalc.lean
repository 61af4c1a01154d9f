import Neonfi.Ledger.Model
import Mathlib.Data.List.Sort

/-!
# Recalculation of an asset and of a portfolio total

`recalcAssetBalance` folds the opening lot and the native and erc20 transactions of one
token, oldest first, through the average-cost model and stores the result in the asset's
five derived columns.  `recalcPortfolioNetDeposit` stores the sum of the assets'
`netDeposit`.
-/

namespace Neonfi.Ledger

open Lib

/-! ## The average-cost fold -/

/-- One native or erc20 transaction, as the fold reads it. -/
structure LedgerEvent where
  dir : Direction
  amount : ℚ
  usd : ℚ
  isTransfer : Bool
  ts : Millis
  id : ℕ
  deriving DecidableEq, Repr

structure Totals where
  qty : ℚ
  costKnownQty : ℚ
  totalCost : ℚ
  realized : ℚ
  netDeposit : ℚ
  deriving DecidableEq, Repr

namespace Totals

/-- The totals of the opening lot. -/
def opening (openingBalance : ℚ) (openingCostBasis : Option ℚ) : Totals where
  qty := openingBalance
  costKnownQty := if openingCostBasis.isSome then openingBalance else 0
  totalCost := openingCostBasis.getD 0
  realized := 0
  netDeposit := openingCostBasis.getD 0

def avg? (s : Totals) : Option ℚ :=
  if 0 < s.costKnownQty then some (s.totalCost / s.costKnownQty) else none

def buy (s : Totals) (amount usd : ℚ) : Totals where
  qty := s.qty + amount
  costKnownQty := s.costKnownQty + amount
  totalCost := s.totalCost + usd
  realized := s.realized
  netDeposit := s.netDeposit + usd

/-- A sell takes cost-known units out at their average; a transfer leg realizes nothing. -/
def sell (s : Totals) (amount usd : ℚ) (isTransfer : Bool) : Totals :=
  match s.avg? with
  | some avg =>
      let sold := min amount s.costKnownQty
      let price := if 0 < amount then usd / amount else 0
      { qty := s.qty - amount
        costKnownQty := s.costKnownQty - sold
        totalCost := s.totalCost - sold * avg
        realized := if isTransfer then s.realized else s.realized + sold * (price - avg)
        netDeposit := s.netDeposit - usd }
  | none => { s with qty := s.qty - amount, netDeposit := s.netDeposit - usd }

def step (s : Totals) (e : LedgerEvent) : Totals :=
  match e.dir with
  | .buy => s.buy e.amount e.usd
  | .sell => s.sell e.amount e.usd e.isTransfer
  | .transfer => s

end Totals

/-- The five derived columns of an asset. -/
structure Derived where
  balance : ℚ
  netDeposit : ℚ
  realizedPnl : ℚ
  avgCost : Option ℚ
  costBasis : ℚ
  deriving DecidableEq, Repr

def Asset.derived (a : Asset) : Derived where
  balance := a.balance
  netDeposit := a.netDeposit
  realizedPnl := a.realizedPnl
  avgCost := a.avgCost
  costBasis := a.costBasis

def Asset.setDerived (a : Asset) (d : Derived) : Asset :=
  { a with
    balance := d.balance
    netDeposit := d.netDeposit
    realizedPnl := d.realizedPnl
    avgCost := d.avgCost
    costBasis := d.costBasis }

@[simp] theorem Asset.key_setDerived (a : Asset) (d : Derived) :
    (a.setDerived d).key = a.key := rfl

@[simp] theorem Asset.derived_setDerived (a : Asset) (d : Derived) :
    (a.setDerived d).derived = d := rfl

/-! ## Events of one token -/

def TransactionData.event? (t : TransactionData) (id : ℕ) (trade? : Option TradeDetail)
    (symbol : String) : Option LedgerEvent :=
  match trade? with
  | none => none
  | some d =>
      if d.symbol = symbol then
        some
          { dir := t.direction
            amount := d.amount
            usd := d.usdValue
            isTransfer := t.transferGroupId.isSome
            ts := t.timestamp
            id }
      else none

def Detail.native? : Detail → Option TradeDetail
  | .native d => some d
  | _ => none

def Detail.erc20? : Detail → Option TradeDetail
  | .erc20 d _ => some d
  | _ => none

/-- A row as an event of a token of a portfolio, read through one of the detail tables. -/
def Transaction.eventOf (detail? : Detail → Option TradeDetail) (portfolioId : ℕ)
    (symbol : String) (t : Transaction) : Option LedgerEvent :=
  if t.portfolioId = portfolioId then t.event? t.id (detail? t.detail) symbol else none

def LedgerEvent.before (a b : LedgerEvent) : Prop :=
  a.ts < b.ts ∨ a.ts = b.ts ∧ a.id ≤ b.id

instance : DecidableRel LedgerEvent.before := fun a b =>
  inferInstanceAs (Decidable (a.ts < b.ts ∨ a.ts = b.ts ∧ a.id ≤ b.id))

/-- The native and the erc20 query, before sorting. -/
def eventRows (rows : List Transaction) (portfolioId : ℕ) (symbol : String) :
    List LedgerEvent :=
  rows.filterMap (Transaction.eventOf Detail.native? portfolioId symbol) ++
    rows.filterMap (Transaction.eventOf Detail.erc20? portfolioId symbol)

/-- The events of a token of a portfolio, oldest first, ties by id. -/
def ledgerEvents (db : Db) (portfolioId : ℕ) (symbol : String) : List LedgerEvent :=
  (eventRows db.transactions.rows portfolioId symbol).insertionSort LedgerEvent.before

/-- The totals after the opening lot of an asset and the events of its token. -/
def replay (a : Asset) (events : List LedgerEvent) : Totals :=
  events.foldl Totals.step (Totals.opening a.openingBalance a.openingCostBasis)

section Writes

variable (N : Numeric)

/-- The totals as they are stored. -/
def Totals.stored (s : Totals) : Derived where
  balance := N.fix s.qty
  netDeposit := N.fix s.netDeposit
  realizedPnl := N.fix s.realized
  avgCost := s.avg?.map N.fix
  costBasis := N.fix s.totalCost

/-! ## Recalculation -/

/-- Connected portfolios keep what the provider summary wrote. -/
def recalcAssetBalance (portfolioId tokenId : ℕ) (db : Db) : Db :=
  if (db.findPortfolioById portfolioId).map Portfolio.type = some .connected then db
  else
    match db.findTokenById tokenId with
    | none => db
    | some token =>
        db.updateAssetRow portfolioId tokenId
          (fun a => a.setDerived
            ((replay a (ledgerEvents db portfolioId token.symbol)).stored N))
          fun _ => rfl

def assetsOf (db : Db) (portfolioId : ℕ) : List Asset :=
  db.assets.rows.filter fun a => a.portfolioId = portfolioId

def netDepositSum (db : Db) (portfolioId : ℕ) : ℚ :=
  ((assetsOf db portfolioId).map Asset.netDeposit).sum

def recalcPortfolioNetDeposit (portfolioId : ℕ) (db : Db) : Db :=
  db.setNetDeposit portfolioId (N.fix (netDepositSum db portfolioId))

/-! ## Value at write time -/

/-- What a request reads from outside the ledger tables. -/
structure Env where
  now : Millis
  plan : ℕ → Plan
  cachedPrice : String → Option ℚ
  snapshotPrice : ℕ → Millis → Option ℚ
  historicalPrice : String → Millis → Option ℚ
  uuid : String

/-- The live cache, else the catalog. -/
def livePrice (env : Env) (db : Db) (symbol : String) : Option ℚ :=
  (env.cachedPrice symbol).or ((db.findTokenBySymbol symbol).map Token.currentPrice)

/-- A non-negative price entered by the user wins over the live price. -/
def computeUsdValue (env : Env) (db : Db) (symbol : String) (amount : ℚ)
    (priceAtTime : Option ℚ) : ℚ :=
  match (priceAtTime.filter fun price => 0 ≤ price).or (livePrice env db symbol) with
  | some price => N.fix (amount * price)
  | none => 0

end Writes

end Neonfi.Ledger

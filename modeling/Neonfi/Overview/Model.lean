import Neonfi.Ledger.Derive
import Neonfi.Lib.Tally
import Neonfi.Portfolios.Model

/-!
# The overview

`buildOverview` of `overview.service.ts` puts the portfolios of a user together: totals, a row
for each portfolio, the allocation of the net worth by symbol and the positions behind it.
`buildHoldings` of `analytics.service.ts` is the allocation of one portfolio.  Each result is
modelled before its rounding and then rounded.  The recent transactions are not modelled, and a
cached result is the one of the state it was computed in.
-/

namespace Neonfi.Overview

open Lib Ledger
open Portfolios (slugify)

/-! ## What is read -/

/-- A row of `findPortfoliosByUserId`.  A connected one has the wallet and the chain it was
created with. -/
structure PortfolioWithRelations extends Portfolio where
  name : String
  chainName : Option String
  createdAt : Millis
  externalTxCount : Option ℕ
  wallet : type = .connected → walletAddress.any (· ≠ "") ∧ chainId.isSome

/-- The tables, the parsed price ticks, the value of the snapshot nearest to a number of days ago,
and what the runtime does to texts. -/
structure Sources where
  db : Db
  tick : String → Option ℚ
  findSnapshotNearDaysAgo : ℕ → ℕ → Option ℚ
  toLowerCase : String → String
  localeLe : String → String → Bool

namespace Sources

variable (src : Sources)

/-- `getLivePriceMap`: only a positive tick counts. -/
def live (symbol : String) : Option ℚ := (src.tick symbol).filter (0 < ·)

def price (token : Token) : ℚ := (src.live token.symbol).getD token.currentPrice

/-- `findAllAssetsByPortfolioId` -/
def assetsWithTokens (portfolioId : ℕ) : List (Asset × Token) :=
  (assetsOf src.db portfolioId).filterMap fun a =>
    (src.db.findTokenById a.tokenId).map fun token => (a, token)

/-- The assets that count as held. -/
def held (portfolioId : ℕ) : List (Asset × Token) :=
  (src.assetsWithTokens portfolioId).filter fun a => 0 < a.1.balance

/-- `countTransactionsByPortfolioForUser` -/
def dbTxCount (portfolioId : ℕ) : ℕ :=
  src.db.transactions.rows.countP fun t => t.portfolioId = portfolioId

/-- `findEarliestTransactionDatesByPortfolioForUser` -/
def earliestTxDate (portfolioId : ℕ) : Option Millis :=
  ((src.db.transactions.rows.filter fun t => t.portfolioId = portfolioId).map
    fun t => t.timestamp).min?

end Sources

/-! ## Derived fields with their windows -/

structure ShortTermPnl where
  pnl24h : Option ℚ
  pnl24hValue : Option ℚ
  pnl7d : Option ℚ
  pnl7dValue : Option ℚ
  pnl30d : Option ℚ
  pnl30dValue : Option ℚ
  deriving DecidableEq, Repr

/-- Value and percentage over a baseline. -/
def snapshotDelta (totalValue : ℚ) (base : Option ℚ) : Option ℚ × Option ℚ :=
  (base.map fun b => totalValue - b, base.map fun b => percentOf (totalValue - b) b)

structure DerivedPortfolio extends DerivedFields, ShortTermPnl
  deriving DecidableEq, Repr

def computeShortTermDeltas (src : Sources) (portfolioId : ℕ) (totalValue : ℚ) : ShortTermPnl :=
  let d1 := snapshotDelta totalValue (src.findSnapshotNearDaysAgo portfolioId 1)
  let d7 := snapshotDelta totalValue (src.findSnapshotNearDaysAgo portfolioId 7)
  let d30 := snapshotDelta totalValue (src.findSnapshotNearDaysAgo portfolioId 30)
  { pnl24h := d1.2, pnl24hValue := d1.1, pnl7d := d7.2, pnl7dValue := d7.1, pnl30d := d30.2
    pnl30dValue := d30.1 }

def computeDerived (src : Sources) (portfolioId : ℕ) : DerivedPortfolio :=
  let derived := computeFromDb src.live portfolioId src.db
  { toDerivedFields := derived
    toShortTermPnl := computeShortTermDeltas src portfolioId derived.totalValue }

/-! ## Rounding and percentages -/

/-- `Math.round(n * 100) / 100` -/
def round (n : ℚ) : ℚ := ⌊n * 100 + 1 / 2⌋ / 100

/-- The all-time measure of a portfolio. -/
structure AllTime where
  value : Option ℚ
  pct : Option ℚ
  deriving DecidableEq, Repr

def canonicalAllTime (type : PortfolioType) (d : DerivedFields) : AllTime :=
  if type = .connected then ⟨d.pnlAllTimeValue, d.pnlAllTime⟩
  else ⟨some d.allTimePnlValue, some d.unrealizedPnlPct⟩

/-- No percentage without a positive base, below -100, or with the other sign. -/
def aggregateAllTimePct (numerator base : ℚ) : Option ℚ :=
  if ¬ 0 < base then none
  else
    let pct := numerator / base * 100
    if pct < -100 then none
    else if (0 < numerator ∧ pct < 0) ∨ (numerator < 0 ∧ 0 < pct) then none
    else some pct

/-! ## The portfolio rows -/

structure Holding where
  symbol : String
  balance : ℚ
  avgCost : Option ℚ
  costBasis : ℚ
  realizedPnl : ℚ
  deriving DecidableEq, Repr

structure PortfolioRow where
  id : ℕ
  name : String
  slug : String
  type : PortfolioType
  chainId : Option ℕ
  chainName : Option String
  inceptionDate : Millis
  assetCount : ℕ
  totalValue : ℚ
  pnl24h : Option ℚ
  pnl24hValue : Option ℚ
  pnlAllTime : Option ℚ
  pnlAllTimeValue : Option ℚ
  unrealizedPnlValue : ℚ
  unrealizedPnlPct : ℚ
  realizedPnlValue : ℚ
  allTimePnlValue : ℚ
  holdings : List Holding
  deriving DecidableEq, Repr

def holdingOf (a : Asset × Token) : Holding :=
  ⟨a.2.symbol, a.1.balance, a.1.avgCost, a.1.costBasis, a.1.realizedPnl⟩

/-- The row of a portfolio before its rounding. -/
def portfolioRow (src : Sources) (p : PortfolioWithRelations) : PortfolioRow :=
  let d := computeDerived src p.id
  let canon := canonicalAllTime p.type d.toDerivedFields
  let holdings := (src.held p.id).map holdingOf
  { id := p.id, name := p.name, slug := slugify src.toLowerCase p.name, type := p.type
    chainId := p.chainId, chainName := p.chainName
    inceptionDate := match src.earliestTxDate p.id with
      | some earliestTx => if earliestTx < p.createdAt then earliestTx else p.createdAt
      | none => p.createdAt
    assetCount := holdings.length
    totalValue := d.totalValue, pnl24h := d.pnl24h, pnl24hValue := d.pnl24hValue
    pnlAllTime := canon.pct, pnlAllTimeValue := canon.value
    unrealizedPnlValue := d.unrealizedPnlValue, unrealizedPnlPct := d.unrealizedPnlPct
    realizedPnlValue := d.realizedPnlValue, allTimePnlValue := d.allTimePnlValue, holdings }

def PortfolioRow.rounded (row : PortfolioRow) : PortfolioRow :=
  { row with
    totalValue := round row.totalValue
    pnl24h := row.pnl24h.map round
    pnl24hValue := row.pnl24hValue.map round
    pnlAllTime := row.pnlAllTime.map round
    pnlAllTimeValue := row.pnlAllTimeValue.map round
    unrealizedPnlValue := round row.unrealizedPnlValue
    unrealizedPnlPct := round row.unrealizedPnlPct
    realizedPnlValue := round row.realizedPnlValue
    allTimePnlValue := round row.allTimePnlValue }

/-! ## The totals -/

structure OverviewTotals where
  totalValue : ℚ
  pnl24h : ℚ
  pnl24hValue : ℚ
  pnlAllTime : Option ℚ
  pnlAllTimeValue : ℚ
  unrealizedPnlValue : ℚ
  unrealizedPnlPct : ℚ
  realizedPnlValue : ℚ
  allTimePnlValue : ℚ
  portfolioCount : ℕ
  transactionCount : ℕ
  deriving DecidableEq, Repr

/-- The transactions counted so far, and the wallets they are of. -/
structure TxCounter where
  transactionCount : ℕ := 0
  countedWallets : List String := []

/-- A manual portfolio counts its rows, a wallet its provider's total once.  An accepted address is
ASCII. -/
def TxCounter.step (src : Sources) (c : TxCounter) (p : PortfolioWithRelations) : TxCounter :=
  if p.type = .connected then
    match p.externalTxCount with
    | none => c
    | some count =>
        let walletKey := (p.walletAddress.getD "").toLower
        if walletKey ≠ "" ∧ walletKey ∈ c.countedWallets then c
        else
          { transactionCount := c.transactionCount + count
            countedWallets := if walletKey ≠ "" then walletKey :: c.countedWallets
              else c.countedWallets }
  else { c with transactionCount := c.transactionCount + src.dbTxCount p.id }

def transactionCount (src : Sources) (portfolios : List PortfolioWithRelations) : ℕ :=
  (portfolios.foldl (TxCounter.step src) {}).transactionCount

/-- What the all-time percentage is taken of. -/
structure AllTimeSums where
  pnlAllTimeValue : ℚ := 0
  pctNumerator : ℚ := 0
  pctBaseValueNow : ℚ := 0

/-- Every known value counts towards the value, those of manual portfolios also towards the
percentage. -/
def AllTimeSums.step (src : Sources) (s : AllTimeSums) (p : PortfolioWithRelations) :
    AllTimeSums :=
  let d := computeDerived src p.id
  match (canonicalAllTime p.type d.toDerivedFields).value with
  | none => s
  | some value =>
      if p.type ≠ .connected then
        { pnlAllTimeValue := s.pnlAllTimeValue + value
          pctNumerator := s.pctNumerator + value
          pctBaseValueNow := s.pctBaseValueNow + d.totalValue }
      else { s with pnlAllTimeValue := s.pnlAllTimeValue + value }

/-- The totals before their rounding. -/
def totals (src : Sources) (portfolios : List PortfolioWithRelations) : OverviewTotals :=
  let derivedList := portfolios.map fun p => computeDerived src p.id
  let allTime := portfolios.foldl (AllTimeSums.step src) {}
  let costBasisAll := allTime.pctBaseValueNow - allTime.pctNumerator
  let unrealizedPnlValue := (derivedList.map fun d => d.unrealizedPnlValue).sum
  let realizedPnlValue := (derivedList.map fun d => d.realizedPnlValue).sum
  let baselines := derivedList.filterMap fun d =>
    d.pnl24hValue.map fun value => (d.totalValue, d.totalValue - value)
  let valueNowWithBaseline := (baselines.map Prod.fst).sum
  let value24hAgo := (baselines.map Prod.snd).sum
  let pnl24hValue := if baselines ≠ [] then valueNowWithBaseline - value24hAgo else 0
  let unrealizedCostBasisSum := ((portfolios.flatMap fun p => src.held p.id).map fun a =>
    if a.1.avgCost.isSome then a.1.costBasis else 0).sum
  { totalValue := (derivedList.map fun d => d.totalValue).sum
    pnl24h := if baselines ≠ [] ∧ 0 < value24hAgo then pnl24hValue / value24hAgo * 100 else 0
    pnl24hValue
    pnlAllTime := aggregateAllTimePct allTime.pctNumerator costBasisAll
    pnlAllTimeValue := allTime.pnlAllTimeValue
    unrealizedPnlValue
    unrealizedPnlPct := percentOf unrealizedPnlValue unrealizedCostBasisSum
    realizedPnlValue
    allTimePnlValue := unrealizedPnlValue + realizedPnlValue
    portfolioCount := portfolios.length
    transactionCount := transactionCount src portfolios }

def OverviewTotals.rounded (t : OverviewTotals) : OverviewTotals :=
  { t with
    totalValue := round t.totalValue
    pnl24h := round t.pnl24h
    pnl24hValue := round t.pnl24hValue
    pnlAllTime := t.pnlAllTime.map round
    pnlAllTimeValue := round t.pnlAllTimeValue
    unrealizedPnlValue := round t.unrealizedPnlValue
    unrealizedPnlPct := round t.unrealizedPnlPct
    realizedPnlValue := round t.realizedPnlValue
    allTimePnlValue := round t.allTimePnlValue }

/-! ## Allocation and positions -/

structure AllocationRow where
  symbol : String
  value : ℚ
  percentage : ℚ
  deriving DecidableEq, Repr

def AllocationRow.rounded (row : AllocationRow) : AllocationRow :=
  { row with value := round row.value, percentage := round row.percentage }

/-- The amounts that the held assets of the portfolios add to their symbols. -/
def bySymbol (src : Sources) (portfolios : List PortfolioWithRelations)
    (amount : Asset × Token → ℚ) : List (String × ℚ) :=
  (portfolios.flatMap fun p => src.held p.id).map fun a => (a.2.symbol, amount a)

def heldValue (src : Sources) (a : Asset × Token) : ℚ := a.1.balance * src.price a.2

/-- The allocation before its rounding, largest value first. -/
def allocation (src : Sources) (portfolios : List PortfolioWithRelations) : List AllocationRow :=
  let values := bySymbol src portfolios (heldValue src)
  let grandTotal := (values.map Prod.snd).sum
  (((Tally.of values).filter fun e => 0 < e.2).map fun e =>
    { symbol := e.1, value := e.2
      percentage := if grandTotal = 0 then 0 else e.2 / grandTotal * 100 }).mergeSort
    fun a b => b.value ≤ a.value

/-- The positions by symbol; the average cost is weighted by the balances whose cost is known. -/
def holdings (src : Sources) (portfolios : List PortfolioWithRelations) : List Holding :=
  let sumOf := fun amount => Tally.of (bySymbol src portfolios amount)
  let tracked := fun (amount : Asset × Token → ℚ → ℚ) => Tally.of
    ((portfolios.flatMap fun p => src.held p.id).filterMap fun a =>
      a.1.avgCost.map fun avgCost => (a.2.symbol, amount a avgCost))
  let avgCostNumerator := tracked fun a avgCost => avgCost * a.1.balance
  let costTrackedQty := tracked fun a _ => a.1.balance
  ((sumOf fun a => a.1.balance).map fun e =>
    { symbol := e.1, balance := e.2
      avgCost := if 0 < Tally.get costTrackedQty e.1 then
          some (Tally.get avgCostNumerator e.1 / Tally.get costTrackedQty e.1)
        else none
      costBasis := Tally.get (sumOf fun a => a.1.costBasis) e.1
      realizedPnl := Tally.get (sumOf fun a => a.1.realizedPnl) e.1 }).mergeSort
    fun a b => src.localeLe a.symbol b.symbol

/-! ## The overview -/

structure OverviewAggregate where
  totals : OverviewTotals
  portfolios : List PortfolioRow
  allocation : List AllocationRow
  holdings : List Holding
  deriving DecidableEq, Repr

def emptyOverview : OverviewAggregate where
  totals := ⟨0, 0, 0, some 0, 0, 0, 0, 0, 0, 0, 0⟩
  portfolios := []
  allocation := []
  holdings := []

def buildOverview (src : Sources) (portfolios : List PortfolioWithRelations) :
    OverviewAggregate :=
  if portfolios = [] then emptyOverview
  else
    { totals := (totals src portfolios).rounded
      portfolios := portfolios.map fun p => (portfolioRow src p).rounded
      allocation := (allocation src portfolios).map AllocationRow.rounded
      holdings := holdings src portfolios }

/-- The early answer without portfolios is the general one but for its all-time percentage, which is
zero where there is none. -/
theorem buildOverview_eq (src : Sources) (portfolios : List PortfolioWithRelations) :
    buildOverview src portfolios =
      { totals :=
          { (totals src portfolios).rounded with
            pnlAllTime := if portfolios = [] then some 0
              else (totals src portfolios).rounded.pnlAllTime }
        portfolios := portfolios.map fun p => (portfolioRow src p).rounded
        allocation := (allocation src portfolios).map AllocationRow.rounded
        holdings := holdings src portfolios } := by
  unfold buildOverview
  by_cases hempty : portfolios = []
  · subst hempty
    have hround : round 0 = 0 := by
      unfold round
      norm_num
    have htotals : (totals src []).rounded =
        { emptyOverview.totals with pnlAllTime := none } := by
      unfold OverviewTotals.rounded totals emptyOverview
      simp [hround, percentOf, transactionCount, aggregateAllTimePct]
    have hallocation : allocation src [] = [] :=
      List.mergeSort_nil
    have hholdings : holdings src [] = [] :=
      List.mergeSort_nil
    rw [if_pos rfl, if_pos rfl, htotals, hallocation, hholdings]
    rfl
  · rw [if_neg hempty, if_neg hempty]

/-! ## The holdings of one portfolio -/

structure HoldingShare where
  symbol : String
  value : ℚ
  portfolioPercentage : ℚ
  deriving DecidableEq, Repr

def computeTotalValue (src : Sources) (portfolioId : ℕ) : ℚ :=
  ((src.assetsWithTokens portfolioId).map (heldValue src)).sum

/-- The holdings before their rounding, largest value first. -/
def holdingShares (src : Sources) (portfolioId : ℕ) : List HoldingShare :=
  let totalValue := computeTotalValue src portfolioId
  ((src.held portfolioId).map fun a =>
    let value := heldValue src a
    { symbol := a.2.symbol, value
      portfolioPercentage := if 0 < totalValue then value / totalValue * 100 else 0 }).mergeSort
    fun a b => b.value ≤ a.value

def HoldingShare.rounded (share : HoldingShare) : HoldingShare :=
  { share with
    value := round share.value, portfolioPercentage := round share.portfolioPercentage }

def buildHoldings (src : Sources) (portfolioId : ℕ) : ℕ × List HoldingShare :=
  (portfolioId, (holdingShares src portfolioId).map HoldingShare.rounded)

end Neonfi.Overview

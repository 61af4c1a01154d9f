import Neonfi.Ledger.History

/-!
# The lots that come in

Cost enters the ledger in lots: a buy row, an opening position, the incoming leg of a
transfer.  As long as every lot has a non-negative cost, and none when its quantity is
stored as zero, the average-cost fold keeps its cost non-negative and all of it on units of
known cost.
-/

namespace Neonfi.Ledger

open Lib

/-- A quantity that comes in, as it is stored, and the cost it comes in at. -/
structure Lot where
  amount : ℚ
  cost : ℚ
  deriving DecidableEq, Repr

/-- The lot has a cost it can be carried at. -/
def Lot.Sound (lot : Lot) : Prop := 0 ≤ lot.cost ∧ (lot.amount = 0 → lot.cost = 0)

instance (lot : Lot) : Decidable lot.Sound := inferInstanceAs (Decidable (_ ∧ _))

/-- A buy row brings in one lot; no other row does. -/
def TransactionData.lots (t : TransactionData) : List Lot :=
  match t.direction, t.detail.trade? with
  | .buy, some d => [⟨d.amount, d.usdValue⟩]
  | _, _ => []

/-- The opening lot of an asset, when its cost is known. -/
def Asset.openingLots (a : Asset) : List Lot :=
  a.openingCostBasis.toList.map fun cost => ⟨a.openingBalance, cost⟩

/-! ## The fold over sound lots -/

/-- Known units and their cost are not negative, and without known units there is no cost. -/
structure Totals.Carried (s : Totals) : Prop where
  costKnownQty_nonneg : 0 ≤ s.costKnownQty
  totalCost_nonneg : 0 ≤ s.totalCost
  cost_of_empty : s.costKnownQty = 0 → s.totalCost = 0

namespace Totals.Carried

variable {s : Totals}

theorem opening {a : Asset} (hbalance : 0 ≤ a.openingBalance)
    (hlots : ∀ lot ∈ a.openingLots, lot.Sound) :
    (Totals.opening a.openingBalance a.openingCostBasis).Carried := by
  unfold Asset.openingLots at hlots
  unfold Totals.opening
  cases hcost : a.openingCostBasis with
  | none => exact ⟨le_rfl, le_rfl, fun _ => rfl⟩
  | some cost =>
      rw [hcost] at hlots
      obtain ⟨hnonneg, hempty⟩ := hlots ⟨a.openingBalance, cost⟩ (by simp)
      exact ⟨hbalance, hnonneg, hempty⟩

theorem buy (h : s.Carried) {amount usd : ℚ} (hamount : 0 ≤ amount)
    (hlot : (⟨amount, usd⟩ : Lot).Sound) : (s.buy amount usd).Carried := by
  obtain ⟨hnonneg, hempty⟩ := hlot
  change 0 ≤ usd at hnonneg
  change amount = 0 → usd = 0 at hempty
  refine ⟨add_nonneg h.costKnownQty_nonneg hamount, add_nonneg h.totalCost_nonneg hnonneg, ?_⟩
  intro hzero
  change s.costKnownQty + amount = 0 at hzero
  have hknown := h.costKnownQty_nonneg
  have hold : s.costKnownQty = 0 := by linarith
  have hnew : amount = 0 := by linarith
  show s.totalCost + usd = 0
  rw [h.cost_of_empty hold, hempty hnew, add_zero]

/-- Units leave at their average cost, so what stays keeps its share of the cost. -/
theorem sell (h : s.Carried) {amount usd : ℚ} {isTransfer : Bool} :
    (s.sell amount usd isTransfer).Carried := by
  unfold Totals.sell Totals.avg?
  by_cases hpos : 0 < s.costKnownQty
  · have hsold : min amount s.costKnownQty ≤ s.costKnownQty := min_le_right _ _
    have hcost : s.totalCost - min amount s.costKnownQty * (s.totalCost / s.costKnownQty) =
        (s.costKnownQty - min amount s.costKnownQty) * (s.totalCost / s.costKnownQty) := by
      rw [sub_mul, mul_div_cancel₀ _ hpos.ne']
    rw [if_pos hpos]
    refine ⟨sub_nonneg.mpr hsold, ?_, fun hzero => ?_⟩
    · show 0 ≤ s.totalCost - _
      rw [hcost]
      exact mul_nonneg (sub_nonneg.mpr hsold) (div_nonneg h.totalCost_nonneg hpos.le)
    · change s.costKnownQty - min amount s.costKnownQty = 0 at hzero
      show s.totalCost - _ = 0
      rw [hcost, hzero, zero_mul]
  · rw [if_neg hpos]
    exact ⟨h.costKnownQty_nonneg, h.totalCost_nonneg, h.cost_of_empty⟩

theorem step (h : s.Carried) {e : LedgerEvent} (hamount : 0 ≤ e.amount)
    (hbuy : e.dir = .buy → (⟨e.amount, e.usd⟩ : Lot).Sound) : (s.step e).Carried := by
  unfold Totals.step
  cases hdir : e.dir with
  | buy => exact h.buy hamount (hbuy hdir)
  | sell => exact h.sell
  | transfer => exact h

theorem foldl (h : s.Carried) {events : List LedgerEvent} (hamount : ∀ e ∈ events, 0 ≤ e.amount)
    (hbuy : ∀ e ∈ events, e.dir = .buy → (⟨e.amount, e.usd⟩ : Lot).Sound) :
    (events.foldl Totals.step s).Carried := by
  induction events generalizing s with
  | nil => exact h
  | cons e events ih =>
      have hmem := @List.mem_cons_self _ e events
      exact ih (h.step (hamount e hmem) (hbuy e hmem))
        (fun x hx => hamount x (List.mem_cons_of_mem e hx))
        fun x hx => hbuy x (List.mem_cons_of_mem e hx)

end Totals.Carried

/-! ## What is stored of a carried cost -/

/-- The stored cost of an asset with `known` units of known cost: nothing is negative, and
the cost basis is the average cost of those units up to the rounding of both columns. -/
structure Asset.CostSound (a : Asset) (known : ℚ) : Prop where
  costBasis_nonneg : 0 ≤ a.costBasis
  avgCost_nonneg : ∀ avg, a.avgCost = some avg → 0 ≤ avg
  costBasis_of_none : a.avgCost = none → a.costBasis = 0
  costBasis_of_some : ∀ avg, a.avgCost = some avg →
    |a.costBasis - avg * known| ≤ (1 + known) / 2 / 10 ^ 8

theorem Totals.Carried.costSound {s : Totals} {a : Asset} (h : s.Carried)
    (havg : a.avgCost = (s.stored decimal20_8).avgCost)
    (hcost : a.costBasis = (s.stored decimal20_8).costBasis) : a.CostSound s.costKnownQty := by
  change a.avgCost = s.avg?.map decimal20_8.fix at havg
  change a.costBasis = decimal20_8.fix s.totalCost at hcost
  unfold Totals.avg? at havg
  by_cases hpos : 0 < s.costKnownQty
  · rw [if_pos hpos, Option.map_some] at havg
    have hquotient : 0 ≤ s.totalCost / s.costKnownQty := div_nonneg h.totalCost_nonneg hpos.le
    have hsplit : s.totalCost / s.costKnownQty * s.costKnownQty = s.totalCost :=
      div_mul_cancel₀ _ hpos.ne'
    refine ⟨?_, fun avg heq => ?_, fun hnone => ?_, fun avg heq => ?_⟩
    · rw [hcost]
      exact Numeric.fix_nonneg h.totalCost_nonneg
    · rw [havg] at heq
      rw [← Option.some.inj heq]
      exact Numeric.fix_nonneg hquotient
    · rw [havg] at hnone
      cases hnone
    · rw [havg] at heq
      rw [← Option.some.inj heq, hcost]
      -- Both columns are rounded; the error of the average counts once for each known unit.
      have hbasis := Numeric.abs_decimal_fix_sub_le 12 8 s.totalCost
      have haverage := Numeric.abs_decimal_fix_sub_le 12 8 (s.totalCost / s.costKnownQty)
      rw [abs_le] at hbasis haverage ⊢
      have hlow := mul_le_mul_of_nonneg_right haverage.1 hpos.le
      have hhigh := mul_le_mul_of_nonneg_right haverage.2 hpos.le
      rw [sub_mul, hsplit] at hlow hhigh
      constructor <;> linarith [hbasis.1, hbasis.2]
  · have hzero : s.costKnownQty = 0 := le_antisymm (not_lt.mp hpos) h.costKnownQty_nonneg
    have hnothing : a.costBasis = 0 := by
      rw [hcost, h.cost_of_empty hzero, Numeric.fix_zero]
    rw [if_neg hpos, Option.map_none] at havg
    refine ⟨hnothing.ge, fun avg heq => ?_, fun _ => hnothing, fun avg heq => ?_⟩
    · rw [havg] at heq
      cases heq
    · rw [havg] at heq
      cases heq

/-! ## The lots a request brings in -/

section Requests

variable (N : Numeric) (js : Js) (db : Db)

/-- The row of a create, with the value it is given. -/
def CreateTransactionBody.bookedRow (env : Env) (body : CreateTransactionBody)
    (portfolioId : ℕ) : TransactionData :=
  body.row N portfolioId <|
    match body.payload.trade? with
    | some trade => computeUsdValue N env db trade.symbol trade.amount
        (trade.priceAtTime.map Subtype.val)
    | none => 0

/-- The incoming leg of a transfer. -/
def TransferBody.incomingLots (body : TransferBody) (sourceId : ℕ) : List Lot :=
  match (db.findTokenBySymbol body.symbol).bind fun token => db.findAsset sourceId token.id with
  | some sourceAsset =>
      [⟨N.fix body.amount, N.fix (body.amount * sourceAsset.netDeposit / sourceAsset.balance)⟩]
  | none => []

/-- The lot of an opening position. -/
def openingLots (balance : ℚ) (opening? : Option (Option ℚ × Option Millis)) : List Lot :=
  match opening? with
  | some opening => opening.1.toList.map fun cost => ⟨N.fix balance, cost⟩
  | none => []

/-- The rows an import inserts. -/
def insertedRows (env : Env) (portfolio : Portfolio) (body : BulkBody) : List PreparedTxRow :=
  (prepareRows N js env portfolio db body.rows 1 (Batch.load db portfolio.id)).prepared.filter
    fun p => !p.duplicate

/-- The lots an action on a portfolio brings into it. -/
def Action.lots (userId : ℕ) (env : Env) (portfolio : Portfolio) : Action → List Lot
  | .createTransaction body => (body.bookedRow N db env portfolio.id).lots
  | .updateTransaction txId body =>
      (db.transactions.rows.filter fun t => t.id = txId).flatMap fun t =>
        (body.apply N env db t).lots
  | .bulkTransactions body =>
      (insertedRows N js db env portfolio body).flatMap fun r =>
        (r.body.row N portfolio.id r.usdValue).lots
  | .addAsset body =>
      openingLots N body.balance (resolveOpeningCost N env db body.tokenId body.balance body.cost)
  | .updateAsset assetId body =>
      match body.isOpeningEdit, db.assets.find? assetId with
      | true, some existing =>
          let balance := (body.balance.map Subtype.val).getD existing.openingBalance
          openingLots N balance (editedOpening N env db existing balance body.cost)
      | _, _ => []
  | .bulkAssets body =>
      (prepareAssetRows N js env userId portfolio db body.rows 1 {}).prepared.flatMap fun r =>
        openingLots N r.balance (some (r.openingCostBasis, r.openingAt))
  | .transfer _ => []
  | .deleteTransaction _ => []
  | .removeAsset _ => []

/-- The lots a request brings into portfolio `p`. -/
def Request.lotsInto (p : ℕ) (r : Request) : List Lot :=
  (if r.portfolioId = p then
    match db.findPortfolioById r.portfolioId with
    | some portfolio => r.action.lots N js db r.userId r.env portfolio
    | none => []
  else []) ++
  match r.action with
  | .transfer body =>
      if body.destPortfolioId = p then body.incomingLots N db r.portfolioId else []
  | _ => []

/-- The lots of the initial holdings of a portfolio. -/
def seedLots (env : Env) (seeds : List SeedAsset) : List Lot :=
  seeds.flatMap fun seed =>
    match db.findTokenById seed.tokenId, seed.amount with
    | some token, some amount =>
        [⟨N.fix amount, computeUsdValue N env db token.symbol amount
          (seed.priceAtTime.map Subtype.val)⟩]
    | _, _ => []

end Requests

end Neonfi.Ledger

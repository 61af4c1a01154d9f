import Neonfi.Ledger.Derive
import Neonfi.Lib.Walk

/-!
# Where the cash of a holding went

The replay of an asset keeps four accumulators.  Every buy moves cost and net deposit alike;
a sell takes cost out at the average, books the profit and pays the cash back.  What the cost
basis keeps over net deposit and realized profit is then what the sells took in for units the
replay could not take out, and, at transfer legs, over their average cost.
-/

namespace Neonfi.Ledger

open Lib

/-! ## What a sell takes out -/

namespace Totals

variable (s : Totals)

/-- The units of known cost that a sell of an amount takes out. -/
def sold (amount : ℚ) : ℚ := if 0 < s.costKnownQty then min amount s.costKnownQty else 0

/-- What a sale takes in beyond the units it takes out. -/
def saleExcess (e : LedgerEvent) : ℚ := e.usd - s.sold e.amount * (e.usd / e.amount)

/-- What a transfer leg carries beyond the cost it takes out. -/
def legExcess (e : LedgerEvent) : ℚ := e.usd - s.sold e.amount * s.avg?.getD 0

end Totals

def LedgerEvent.isSale (e : LedgerEvent) : Bool := e.dir = .sell && !e.isTransfer

def LedgerEvent.isTransferLeg (e : LedgerEvent) : Bool := e.dir = .sell && e.isTransfer

/-- What an event moves the cost basis by, beyond net deposit and realized profit. -/
def Totals.excess (s : Totals) (e : LedgerEvent) : ℚ :=
  (if e.isSale then s.saleExcess e else 0) + if e.isTransferLeg then s.legExcess e else 0

namespace Totals

variable {s : Totals}

theorem sold_of_avg?_eq_none (h : s.avg? = none) (amount : ℚ) : s.sold amount = 0 := by
  unfold sold
  unfold avg? at h
  split at h
  · cases h
  · next hpos => rw [if_neg hpos]

theorem sold_of_avg?_eq_some {avg : ℚ} (h : s.avg? = some avg) (amount : ℚ) :
    s.sold amount = min amount s.costKnownQty := by
  unfold sold
  unfold avg? at h
  split at h
  · next hpos => rw [if_pos hpos]
  · cases h

/-- A sell moves cost, profit and net deposit by amounts that leave its excess over. -/
theorem unsettled_sell (s : Totals) {e : LedgerEvent} (hpos : 0 < e.amount) :
    (s.sell e.amount e.usd e.isTransfer).unsettled =
      s.unsettled + if e.isTransfer then s.legExcess e else s.saleExcess e := by
  unfold sell legExcess saleExcess
  cases havg : s.avg? with
  | none =>
      rw [sold_of_avg?_eq_none havg]
      simp only [unsettled, zero_mul, sub_zero, ite_self]
      ring
  | some avg =>
      rw [sold_of_avg?_eq_some havg, Option.getD_some]
      simp only [unsettled, if_pos hpos]
      cases e.isTransfer with
      | true =>
          simp only [if_true]
          ring
      | false =>
          simp only [Bool.false_eq_true, if_false]
          ring

theorem unsettled_step (s : Totals) {e : LedgerEvent} (hpos : 0 < e.amount) :
    (s.step e).unsettled = s.unsettled + s.excess e := by
  unfold step excess LedgerEvent.isSale LedgerEvent.isTransferLeg
  cases e.dir with
  | buy => simp [unsettled_buy]
  | sell =>
      dsimp only
      rw [unsettled_sell s hpos]
      cases e.isTransfer <;> simp
  | transfer => simp

/-- Over a replay, what is left unsettled is the sum of the excesses. -/
theorem unsettled_replay (s : Totals) {events : List LedgerEvent}
    (hamount : ∀ e ∈ events, 0 < e.amount) :
    (events.foldl step s).unsettled =
      s.unsettled + ((trace step s events).map fun p => p.1.excess p.2).sum :=
  foldl_eq_add_sum_trace (fun t e he => unsettled_step t (hamount e he)) s

end Totals

/-! ## The identity -/

/-- The sells of a replay that pass a test, each with the totals before it, summed up. -/
def sumOver (test : LedgerEvent → Bool) (excess : Totals → LedgerEvent → ℚ) (s : Totals)
    (events : List LedgerEvent) : ℚ :=
  (((trace Totals.step s events).filter fun p => test p.2).map fun p => excess p.1 p.2).sum

theorem sum_excess (s : Totals) (events : List LedgerEvent) :
    ((trace Totals.step s events).map fun p => p.1.excess p.2).sum =
      sumOver LedgerEvent.isSale Totals.saleExcess s events +
        sumOver LedgerEvent.isTransferLeg Totals.legExcess s events := by
  unfold sumOver
  rw [sum_map_filter, sum_map_filter, ← List.sum_map_add]
  rfl

/-- Whatever the opening lot and the events: the cost basis is net deposit and realized profit,
what the sales took in beyond the units they took out, and what the transfer legs carried
beyond the cost they took out. -/
theorem replay_cashIdentity (a : Asset) (events : List LedgerEvent)
    (hamount : ∀ e ∈ events, 0 < e.amount) :
    let ordered := events.insertionSort LedgerEvent.before
    let start := Totals.opening a.openingBalance a.openingCostBasis
    (replay a ordered).totalCost =
      (replay a ordered).netDeposit + (replay a ordered).realized +
        sumOver LedgerEvent.isSale Totals.saleExcess start ordered +
        sumOver LedgerEvent.isTransferLeg Totals.legExcess start ordered := by
  intro ordered start
  have hsorted : ∀ e ∈ ordered, 0 < e.amount := by
    intro e he
    exact hamount e ((List.mem_insertionSort _).mp he)
  have hrun := Totals.unsettled_replay start hsorted
  rw [sum_excess, Totals.unsettled_opening] at hrun
  change (replay a ordered).totalCost - (replay a ordered).realized -
    (replay a ordered).netDeposit = _ at hrun
  linarith

/-! ## An oversold lot -/

/-- An opening lot of two units at a cost of 20. -/
def pairAtTen : Asset where
  portfolioId := 1
  tokenId := 1
  openingBalance := 2
  openingCostBasis := some 20

/-- One unit sold at 30, half a unit moved out with 10, and five more sold at 8 each. -/
def oversellingEvents : List LedgerEvent :=
  [⟨.sell, 5, 40, false, 3, 3⟩, ⟨.sell, 1, 30, false, 1, 1⟩, ⟨.sell, 1 / 2, 10, true, 2, 2⟩]

theorem replay_cashIdentity_oversold :
    let ordered := oversellingEvents.insertionSort LedgerEvent.before
    let start := Totals.opening pairAtTen.openingBalance pairAtTen.openingCostBasis
    (replay pairAtTen ordered).totalCost =
      (replay pairAtTen ordered).netDeposit + (replay pairAtTen ordered).realized +
        sumOver LedgerEvent.isSale Totals.saleExcess start ordered +
        sumOver LedgerEvent.isTransferLeg Totals.legExcess start ordered :=
  replay_cashIdentity pairAtTen oversellingEvents (by decide +kernel)

end Neonfi.Ledger

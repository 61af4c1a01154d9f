import Mathlib.Algebra.Order.Field.Basic
import Mathlib.Tactic.FieldSimp
import Mathlib.Tactic.Linarith
import Mathlib.Tactic.Ring

/-!
# Average-cost positions

A position is a quantity held and the cost it is carried at.  Units come in at the cost
they are given and leave at the average cost.  Moving units from one position to another
keeps the total cost, and with it the total gain at every price, exactly when they arrive
at the average cost they left at.
-/

namespace Lib

variable {K : Type*} [Field K] [LinearOrder K]

/-- A held quantity and its cost.  Nothing held carries no cost. -/
structure Position (K : Type*) [Field K] [LinearOrder K] where
  qty : K
  cost : K
  qty_nonneg : 0 ≤ qty
  cost_of_empty : qty = 0 → cost = 0

namespace Position

@[simps]
def empty : Position K := ⟨0, 0, le_rfl, fun _ => rfl⟩

def unitCost (p : Position K) : K := p.cost / p.qty

/-- What the held units are worth over their cost at a price. -/
def gain (p : Position K) (price : K) : K := p.qty * price - p.cost

/-- With units held, the gain is the quantity times the margin over the average cost. -/
theorem gain_eq_mul (p : Position K) (price : K) (h : 0 < p.qty) :
    p.gain price = p.qty * (price - p.unitCost) := by
  have hcost : p.qty * p.unitCost = p.cost := by
    rw [unitCost]
    exact mul_div_cancel₀ _ h.ne'
  rw [gain, mul_sub, hcost]

theorem gain_of_qty_eq_zero (p : Position K) (price : K) (h : p.qty = 0) : p.gain price = 0 := by
  rw [gain, h, p.cost_of_empty h, zero_mul, sub_zero]

variable [IsStrictOrderedRing K]

/-- Units come in at the given cost. -/
@[simps]
def add (p : Position K) (x c : K) (hx : 0 < x) : Position K where
  qty := p.qty + x
  cost := p.cost + c
  qty_nonneg := add_nonneg p.qty_nonneg hx.le
  cost_of_empty h := absurd h (add_pos_of_nonneg_of_pos p.qty_nonneg hx).ne'

/-- Units leave at the average cost. -/
@[simps]
def remove (p : Position K) (x : K) (hx : 0 < x) (hle : x ≤ p.qty) : Position K where
  qty := p.qty - x
  cost := p.cost - x * p.unitCost
  qty_nonneg := sub_nonneg.mpr hle
  cost_of_empty h := by
    have hall : x = p.qty := (sub_eq_zero.mp h).symm
    have hne : p.qty ≠ 0 := (hx.trans_le hle).ne'
    rw [hall, unitCost, mul_div_cancel₀ _ hne, sub_self]

section Move

variable (p q : Position K) {x c : K} (hx : 0 < x) (hle : x ≤ p.qty)

theorem cost_move :
    (p.remove x hx hle).cost + (q.add x c hx).cost =
      p.cost + q.cost + (c - x * p.unitCost) := by
  simp only [remove_cost, add_cost]
  ring

theorem gain_move (price : K) :
    (p.remove x hx hle).gain price + (q.add x c hx).gain price =
      p.gain price + q.gain price - (c - x * p.unitCost) := by
  simp only [gain, remove_cost, add_cost, remove_qty, add_qty]
  ring

end Move

end Position

end Lib

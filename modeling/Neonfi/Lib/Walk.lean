import Mathlib.Algebra.BigOperators.Group.List.Basic
import Mathlib.Algebra.Order.Group.MinMax
import Mathlib.Tactic.Abel
import Mathlib.Tactic.GCongr

/-!
# Folds step by step

The trace of a fold keeps every element with the state it meets, so a quantity that every step
moves by a known amount is its start plus the sum of those amounts.  A clamped walk adds
amounts but never goes below zero; where it ends is a closed form of its amounts, through their
drawdown: how far their partial sums fall below zero.
-/

namespace Lib

/-! ## Traces -/

section Trace

variable {σ α M : Type*}

/-- Every element of a fold with the state before it. -/
def trace (step : σ → α → σ) : σ → List α → List (σ × α)
  | _, [] => []
  | s, a :: as => (s, a) :: trace step (step s a) as

/-- A step of a trace splits it. -/
theorem exists_of_mem_trace {step : σ → α → σ} {s : σ} {as : List α} {x : σ × α}
    (hx : x ∈ trace step s as) :
    ∃ before after, as = before ++ x.2 :: after ∧ x.1 = before.foldl step s := by
  induction as generalizing s with
  | nil => cases hx
  | cons a as ih =>
      rcases List.mem_cons.mp hx with rfl | hx
      · exact ⟨[], as, rfl, rfl⟩
      · obtain ⟨before, after, hsplit, hstate⟩ := ih hx
        exact ⟨a :: before, after, by rw [hsplit, List.cons_append], hstate⟩

/-- What each step moves by a known amount, a fold moves by the sum along its trace. -/
theorem foldl_eq_add_sum_trace [AddCommGroup M] {step : σ → α → σ} {value : σ → M}
    {gain : σ → α → M} {as : List α}
    (hstep : ∀ s, ∀ a ∈ as, value (step s a) = value s + gain s a) (s : σ) :
    value (as.foldl step s) =
      value s + ((trace step s as).map fun p => gain p.1 p.2).sum := by
  induction as generalizing s with
  | nil => simp [trace]
  | cons a as ih =>
      have hfirst := hstep s a List.mem_cons_self
      have hrest := ih (fun s b hb => hstep s b (List.mem_cons_of_mem a hb)) (step s a)
      calc value ((a :: as).foldl step s)
          = value (step s a) + ((trace step (step s a) as).map fun p => gain p.1 p.2).sum := hrest
        _ = value s + (gain s a + ((trace step (step s a) as).map fun p => gain p.1 p.2).sum) := by
            rw [hfirst, add_assoc]

/-- A sum over a part of a list, as a sum over the list. -/
theorem sum_map_filter [AddCommGroup M] (p : α → Bool) (f : α → M) (as : List α) :
    ((as.filter p).map f).sum = (as.map fun a => if p a then f a else 0).sum := by
  induction as with
  | nil => rfl
  | cons a as ih =>
      cases hp : p a with
      | false => simp [hp, ih]
      | true => simp [hp, ih]

end Trace

/-! ## Clamped walks -/

section Clamped

variable {M : Type*} [AddCommGroup M] [LinearOrder M] [IsOrderedAddMonoid M]

/-- Add an amount, but never go below zero. -/
def clampedAdd (w x : M) : M := max 0 (w + x)

/-- How far the partial sums of the amounts fall below zero. -/
def drawdown : List M → M
  | [] => 0
  | x :: xs => max 0 (drawdown xs - x)

omit [IsOrderedAddMonoid M] in
theorem drawdown_nonneg (xs : List M) : 0 ≤ drawdown xs := by
  cases xs with
  | nil => exact le_rfl
  | cons x xs => exact le_max_left _ _

/-- A clamped walk ends at the sum of its amounts and what the clamping has spared it. -/
theorem foldl_clampedAdd (xs : List M) {w : M} (hw : 0 ≤ w) :
    xs.foldl clampedAdd w = w + xs.sum + max 0 (drawdown xs - w) := by
  induction xs generalizing w with
  | nil => simp [drawdown, hw]
  | cons x xs ih =>
      have hnext : 0 ≤ clampedAdd w x := le_max_left _ _
      rw [List.foldl_cons, ih hnext, List.sum_cons, drawdown]
      rcases le_total 0 (w + x) with hx | hx
      · -- The first amount is not clamped; what is spared is the same seen from its start.
        have hstart : clampedAdd w x = w + x := max_eq_right hx
        have hspared : max 0 (drawdown xs - (w + x)) = max 0 (max 0 (drawdown xs - x) - w) := by
          rw [← max_sub_sub_right, zero_sub, ← max_assoc, max_eq_left (neg_nonpos.mpr hw)]
          congr 1
          abel
        rw [hstart, hspared]
        abel
      · -- The first amount is clamped, so the whole drawdown of the rest is spared.
        have hstart : clampedAdd w x = 0 := max_eq_left hx
        have hneg : w ≤ -x := le_neg_iff_add_nonpos_right.mpr hx
        have hdeep : w ≤ drawdown xs - x := by
          calc w ≤ -x := hneg
            _ = 0 - x := (zero_sub x).symm
            _ ≤ drawdown xs - x := by gcongr; exact drawdown_nonneg xs
        have hspared : max 0 (max 0 (drawdown xs - x) - w) = drawdown xs - x - w := by
          rw [max_eq_right (hw.trans hdeep), max_eq_right (sub_nonneg.mpr hdeep)]
        rw [hstart, hspared, sub_zero, max_eq_right (drawdown_nonneg xs)]
        abel

end Clamped

end Lib

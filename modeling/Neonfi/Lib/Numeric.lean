import Mathlib.Algebra.BigOperators.Group.List.Basic
import Mathlib.Algebra.Order.Floor.Ring
import Mathlib.Data.Int.ConditionallyCompleteOrder
import Mathlib.Data.Rat.Floor
import Mathlib.Tactic.FieldSimp
import Mathlib.Tactic.Linarith
import Mathlib.Tactic.Positivity
import Mathlib.Tactic.Ring

/-!
# Numeric column types

A fixed-point column stores a rational rounded onto a grid and refuses the
magnitudes it has no digits for.  `Numeric` keeps the two apart: `fix` is the
rounding, `fits` the range check.  The laws say that the grid is closed under
addition and negation and that rounding is monotone; nothing else about the
rounding mode is used by the results that only need a grid.
-/

namespace Lib

/-- A numeric column type over the rationals. -/
structure Numeric where
  fix : ℚ → ℚ
  fits : ℚ → Bool
  fix_add : ∀ x y, fix (fix x + fix y) = fix x + fix y
  fix_neg : ∀ x, fix (-x) = -fix x
  mono : Monotone fix

namespace Numeric

variable (N : Numeric)

/-- `x` is a value the column can hold without rounding. -/
def OnGrid (x : ℚ) : Prop := N.fix x = x

@[simp] theorem fix_zero : N.fix 0 = 0 := by
  have h := N.fix_neg 0
  rw [neg_zero] at h
  linarith

@[simp] theorem fix_fix (x : ℚ) : N.fix (N.fix x) = N.fix x := by
  simpa using N.fix_add x 0

theorem onGrid_fix (x : ℚ) : N.OnGrid (N.fix x) := N.fix_fix x

theorem onGrid_zero : N.OnGrid 0 := N.fix_zero

variable {N}

theorem OnGrid.add {x y : ℚ} (hx : N.OnGrid x) (hy : N.OnGrid y) : N.OnGrid (x + y) := by
  have h := N.fix_add x y
  rwa [hx, hy] at h

theorem OnGrid.neg {x : ℚ} (hx : N.OnGrid x) : N.OnGrid (-x) := by
  have h := N.fix_neg x
  rwa [hx] at h

theorem OnGrid.sub {x y : ℚ} (hx : N.OnGrid x) (hy : N.OnGrid y) : N.OnGrid (x - y) := by
  rw [sub_eq_add_neg]
  exact hx.add hy.neg

theorem onGrid_sum {xs : List ℚ} (h : ∀ x ∈ xs, N.OnGrid x) : N.OnGrid xs.sum := by
  induction xs with
  | nil => exact N.onGrid_zero
  | cons x xs ih =>
      rw [List.sum_cons]
      exact (h x (by simp)).add (ih fun y hy => h y (by simp [hy]))

theorem fix_nonneg {x : ℚ} (hx : 0 ≤ x) : 0 ≤ N.fix x := by
  simpa using N.mono hx

/-- Rounding cannot cross a value of the grid. -/
theorem fix_le_of_le {x y : ℚ} (hy : N.OnGrid y) (h : x ≤ y) : N.fix x ≤ y := by
  calc N.fix x ≤ N.fix y := N.mono h
    _ = y := hy

/-! ## Exact columns -/

/-- The column of the exact-arithmetic reading: every rational is stored as it is. -/
def exact : Numeric where
  fix := id
  fits _ := true
  fix_add _ _ := rfl
  fix_neg _ := rfl
  mono := monotone_id

@[simp] theorem exact_fix (x : ℚ) : exact.fix x = x := rfl

@[simp] theorem exact_fits (x : ℚ) : exact.fits x = true := rfl

/-! ## Decimal columns, rounding half away from zero -/

/-- Nearest integer, ties away from zero. -/
def roundAway (x : ℚ) : ℤ := if x < 0 then -⌊-x + 1 / 2⌋ else ⌊x + 1 / 2⌋

theorem floor_intCast_add_half (n : ℤ) : ⌊(n : ℚ) + 1 / 2⌋ = n := by
  rw [Int.floor_eq_iff]
  constructor <;> linarith

theorem roundAway_intCast (n : ℤ) : roundAway n = n := by
  unfold roundAway
  split_ifs
  · have h := floor_intCast_add_half (-n)
    push_cast at h
    rw [h, neg_neg]
  · exact floor_intCast_add_half n

theorem roundAway_neg (x : ℚ) : roundAway (-x) = -roundAway x := by
  rcases lt_trichotomy x 0 with hx | rfl | hx
  · have hn : ¬ -x < 0 := by linarith
    rw [roundAway, roundAway, if_neg hn, if_pos hx, neg_neg]
  · have h : roundAway 0 = 0 := by simpa using roundAway_intCast 0
    simp [h]
  · have hn : -x < 0 := by linarith
    rw [roundAway, roundAway, if_pos hn, if_neg hx.le.not_gt, neg_neg]

theorem roundAway_nonneg {x : ℚ} (hx : 0 ≤ x) : 0 ≤ roundAway x := by
  rw [roundAway, if_neg hx.not_gt]
  exact Int.floor_nonneg.mpr (by linarith)

theorem roundAway_mono : Monotone roundAway := by
  intro x y hxy
  rcases lt_or_ge x 0 with hx | hx
  · rcases lt_or_ge y 0 with hy | hy
    · rw [roundAway, roundAway, if_pos hx, if_pos hy]
      exact neg_le_neg (Int.floor_le_floor (by linarith))
    · have hneg : 0 ≤ roundAway (-x) := roundAway_nonneg (by linarith)
      rw [roundAway_neg] at hneg
      have hpos : 0 ≤ roundAway y := roundAway_nonneg hy
      omega
  · rw [roundAway, roundAway, if_neg hx.not_gt, if_neg (hx.trans hxy).not_gt]
    exact Int.floor_le_floor (by linarith)

/-- Rounding to an integer moves a value by at most one half. -/
theorem abs_roundAway_sub_le (x : ℚ) : |(roundAway x : ℚ) - x| ≤ 1 / 2 := by
  unfold roundAway
  split_ifs
  · have hle := Int.floor_le (-x + 1 / 2)
    have hlt := Int.lt_floor_add_one (-x + 1 / 2)
    rw [abs_le]
    push_cast
    constructor <;> linarith
  · have hle := Int.floor_le (x + 1 / 2)
    have hlt := Int.lt_floor_add_one (x + 1 / 2)
    rw [abs_le]
    constructor <;> linarith

/-- `numeric(digits + scale, scale)`: `scale` digits after the point, `digits` before it. -/
def decimal (digits scale : ℕ) : Numeric where
  fix x := roundAway (x * 10 ^ scale) / 10 ^ scale
  fits x := decide (|x| < 10 ^ digits)
  fix_add x y := by
    have h : ((roundAway (x * 10 ^ scale) : ℚ) / 10 ^ scale +
        roundAway (y * 10 ^ scale) / 10 ^ scale) * 10 ^ scale =
        ((roundAway (x * 10 ^ scale) + roundAway (y * 10 ^ scale) : ℤ) : ℚ) := by
      push_cast
      field_simp
    rw [h, roundAway_intCast]
    push_cast
    rw [add_div]
  fix_neg x := by
    rw [neg_mul, roundAway_neg]
    push_cast
    rw [neg_div]
  mono x y hxy := by
    have h : x * 10 ^ scale ≤ y * 10 ^ scale := by gcongr
    have hround : (roundAway (x * 10 ^ scale) : ℚ) ≤ roundAway (y * 10 ^ scale) := by
      exact_mod_cast roundAway_mono h
    change (roundAway (x * 10 ^ scale) : ℚ) / 10 ^ scale ≤
      roundAway (y * 10 ^ scale) / 10 ^ scale
    gcongr

/-- A decimal column is off by at most half a unit of its last place. -/
theorem abs_decimal_fix_sub_le (digits scale : ℕ) (x : ℚ) :
    |(decimal digits scale).fix x - x| ≤ 1 / 2 / 10 ^ scale := by
  have hpos : (0 : ℚ) < 10 ^ scale := by positivity
  have h := abs_roundAway_sub_le (x * 10 ^ scale)
  have hsplit : (decimal digits scale).fix x - x =
      (roundAway (x * 10 ^ scale) - x * 10 ^ scale) / 10 ^ scale := by
    change (roundAway (x * 10 ^ scale) : ℚ) / 10 ^ scale - x = _
    field_simp
  rw [hsplit, abs_div, abs_of_pos hpos]
  gcongr

example : (decimal 12 8).fix (1 / 3) = 33333333 / 100000000 := by decide +kernel

end Numeric

end Lib

import Mathlib.Algebra.Order.Field.Power
import Mathlib.Algebra.Order.Floor.Ring
import Mathlib.Data.Int.Log
import Mathlib.Data.Rat.Floor
import Mathlib.Tactic.FieldSimp
import Mathlib.Tactic.Linarith
import Mathlib.Tactic.NormNum
import Mathlib.Tactic.Positivity
import Mathlib.Tactic.Ring

/-!
# Binary64 numbers

A finite double is a rational `m * 2 ^ e` with 53 bits.  `nearest` rounds a rational to the nearest
one, ties to the even significand, in an exponent range that is open upwards; `toDouble` has no
result where that overflows.
-/

namespace Lib

/-! ## Rounding to an integer -/

/-- The nearest integer, of two the even one. -/
def roundEven (q : ℚ) : ℤ :=
  if q - ⌊q⌋ < 1 / 2 then ⌊q⌋
  else if 1 / 2 < q - ⌊q⌋ then ⌊q⌋ + 1
  else if Even ⌊q⌋ then ⌊q⌋ else ⌊q⌋ + 1

/-- `n` is nearest to `q`, and even if another integer is as near. -/
def IsNearest (q : ℚ) (n : ℤ) : Prop := |q - n| < 1 / 2 ∨ |q - n| = 1 / 2 ∧ Even n

section RoundEven

variable {q r : ℚ} {n m : ℤ}

theorem IsNearest.le (h : IsNearest q n) : |q - n| ≤ 1 / 2 := by
  rcases h with h | ⟨h, -⟩
  · exact h.le
  · exact h.le

theorem IsNearest.unique (hn : IsNearest q n) (hm : IsNearest q m) : n = m := by
  have hn' := abs_le.mp hn.le
  have hm' := abs_le.mp hm.le
  by_contra hne
  -- They are one apart, so both are as far as can be, and both even.
  have hfar : |q - n| = 1 / 2 ∧ |q - m| = 1 / 2 := by
    rcases lt_or_gt_of_ne hne with hlt | hlt
    · have hgap : (n : ℚ) + 1 ≤ m := by exact_mod_cast hlt
      rw [abs_of_nonneg (by linarith), abs_of_nonpos (by linarith)]
      constructor <;> linarith
    · have hgap : (m : ℚ) + 1 ≤ n := by exact_mod_cast hlt
      rw [abs_of_nonpos (by linarith), abs_of_nonneg (by linarith)]
      constructor <;> linarith
  have hneven : Even n := (hn.resolve_left hfar.1.not_lt).2
  have hmeven : Even m := (hm.resolve_left hfar.2.not_lt).2
  have hdist : n - m ≤ 1 ∧ m - n ≤ 1 := by
    constructor
    · have hle : ((n - m : ℤ) : ℚ) ≤ 1 := by
        push_cast
        linarith
      exact_mod_cast hle
    · have hle : ((m - n : ℤ) : ℚ) ≤ 1 := by
        push_cast
        linarith
      exact_mod_cast hle
  obtain ⟨a, rfl⟩ := hneven
  obtain ⟨b, rfl⟩ := hmeven
  omega

theorem isNearest_roundEven (q : ℚ) : IsNearest q (roundEven q) := by
  have hlow := Int.floor_le q
  have hhigh := Int.lt_floor_add_one q
  unfold IsNearest roundEven
  split
  · left
    rw [abs_of_nonneg (by linarith)]
    assumption
  · split
    · left
      push_cast
      rw [abs_of_nonpos (by linarith)]
      linarith
    · have htie : q - ⌊q⌋ = 1 / 2 := by linarith
      right
      split
      · next heven => exact ⟨by rw [htie, abs_of_nonneg (by norm_num)], heven⟩
      · next hodd =>
          refine ⟨?_, (Int.not_even_iff_odd.mp hodd).add_one⟩
          push_cast
          rw [abs_of_nonpos (by linarith)]
          linarith

theorem roundEven_eq (h : IsNearest q n) : roundEven q = n :=
  (isNearest_roundEven q).unique h

@[simp] theorem roundEven_intCast (n : ℤ) : roundEven n = n :=
  roundEven_eq (.inl (by simp))

@[simp] theorem roundEven_neg (q : ℚ) : roundEven (-q) = -roundEven q := by
  apply roundEven_eq
  have hswap : |-q - (-roundEven q : ℤ)| = |q - roundEven q| := by
    push_cast
    rw [← abs_neg]
    congr 1
    ring
  unfold IsNearest
  rw [hswap, even_neg]
  exact isNearest_roundEven q

theorem roundEven_mono (h : q ≤ r) : roundEven q ≤ roundEven r := by
  by_contra hlt
  have hgap : (roundEven r : ℚ) + 1 ≤ roundEven q := by exact_mod_cast not_le.mp hlt
  have hq := abs_le.mp (isNearest_roundEven q).le
  have hr := abs_le.mp (isNearest_roundEven r).le
  have heq : q = r := by linarith
  rw [heq] at hlt
  exact hlt le_rfl

/-- No integer is nearer. -/
theorem abs_sub_roundEven_le (q : ℚ) (n : ℤ) : |q - roundEven q| ≤ |q - n| := by
  by_cases hnear : |q - n| < 1 / 2
  · rw [roundEven_eq (.inl hnear)]
  · exact (isNearest_roundEven q).le.trans (not_lt.mp hnear)

/-- What rounds below `n` is below the midpoint under `n`, and back unless it ties. -/
theorem roundEven_lt_of_lt (h : q < n - 1 / 2) : roundEven q < n := by
  have hq := abs_le.mp (isNearest_roundEven q).le
  have hlt : (roundEven q : ℚ) < n := by linarith
  exact_mod_cast hlt

end RoundEven

/-! ## Rounding to a double -/

/-- The exponent of the last bit of the significand. -/
def lastBit (x : ℚ) : ℤ := max (Int.log 2 |x| - 52) (-1074)

def nearest (x : ℚ) : ℚ := roundEven (x / 2 ^ lastBit x) * 2 ^ lastBit x

/-- A value of 53 bits whose last bit is not below the smallest one. -/
def Representable (x : ℚ) : Prop :=
  ∃ m e : ℤ, |m| < 2 ^ 53 ∧ -1074 ≤ e ∧ x = m * 2 ^ e

section Nearest

variable {x y : ℚ}

theorem scale_pos (e : ℤ) : (0 : ℚ) < 2 ^ e := zpow_pos (by norm_num) e

@[simp] theorem lastBit_neg (x : ℚ) : lastBit (-x) = lastBit x := by
  unfold lastBit
  rw [abs_neg]

@[simp] theorem nearest_neg (x : ℚ) : nearest (-x) = -nearest x := by
  unfold nearest
  rw [lastBit_neg, neg_div, roundEven_neg]
  push_cast
  ring

@[simp] theorem nearest_zero : nearest 0 = 0 := by
  have hround : roundEven 0 = 0 := by simpa using roundEven_intCast 0
  unfold nearest
  rw [zero_div, hround, Int.cast_zero, zero_mul]

/-- The significand has at most 53 bits. -/
theorem abs_lt_significand (x : ℚ) : |x| < 2 ^ (lastBit x + 53) := by
  have hlog := Int.lt_zpow_succ_log_self (b := 2) (by decide) |x|
  push_cast at hlog
  apply hlog.trans_le
  apply zpow_le_zpow_right₀ (by norm_num)
  unfold lastBit
  omega

/-- Above the smallest last bit it has all of them. -/
theorem significand_le_abs (hx : x ≠ 0) (hbit : -1074 < lastBit x) :
    2 ^ (lastBit x + 52) ≤ |x| := by
  have hlog := Int.zpow_log_le_self (b := 2) (by decide) (abs_pos.mpr hx)
  push_cast at hlog
  refine le_trans (zpow_le_zpow_right₀ (by norm_num) ?_) hlog
  unfold lastBit at hbit ⊢
  omega

/-- The distance from a multiple of the last bit, in units of it. -/
theorem abs_sub_mul_scale (x : ℚ) (n : ℤ) :
    |x - n * 2 ^ lastBit x| = |x / 2 ^ lastBit x - n| * 2 ^ lastBit x := by
  have hpos := scale_pos (lastBit x)
  rw [← abs_of_pos hpos, ← abs_mul, abs_of_pos hpos]
  congr 1
  field_simp

theorem abs_sub_nearest_le_grid (x : ℚ) (n : ℤ) :
    |x - nearest x| ≤ |x - n * 2 ^ lastBit x| := by
  unfold nearest
  rw [abs_sub_mul_scale, abs_sub_mul_scale]
  exact mul_le_mul_of_nonneg_right (abs_sub_roundEven_le _ n) (scale_pos _).le

/-- No representable value is nearer. -/
theorem abs_sub_nearest_le (x : ℚ) (hy : Representable y) : |x - nearest x| ≤ |x - y| := by
  obtain ⟨m, e, hm, he, rfl⟩ := hy
  rcases eq_or_ne x 0 with rfl | hx
  · rw [nearest_zero, sub_zero, abs_zero]
    exact abs_nonneg _
  by_cases hbit : lastBit x ≤ e
  · -- The value is a multiple of the last bit.
    have hmul : (m : ℚ) * 2 ^ e = (m * 2 ^ (e - lastBit x).toNat : ℤ) * 2 ^ lastBit x := by
      push_cast
      rw [mul_assoc, ← zpow_natCast, ← zpow_add₀ (by norm_num)]
      congr 2
      omega
    rw [hmul]
    exact abs_sub_nearest_le_grid x _
  · -- The value is below the smallest one with the leading bit of `x`, which is a multiple.
    have hlead : (2 : ℚ) ^ (lastBit x + 52) = (2 ^ 52 : ℤ) * 2 ^ lastBit x := by
      rw [zpow_add₀ (by norm_num), mul_comm]
      norm_num
    have hsmall : |(m : ℚ) * 2 ^ e| < 2 ^ (lastBit x + 52) := by
      have hm' : |(m : ℚ)| < 2 ^ (53 : ℤ) := by exact_mod_cast hm
      calc |(m : ℚ) * 2 ^ e| = |(m : ℚ)| * 2 ^ e := by rw [abs_mul, abs_of_pos (scale_pos e)]
        _ < 2 ^ (53 : ℤ) * 2 ^ e := mul_lt_mul_of_pos_right hm' (scale_pos e)
        _ = 2 ^ (53 + e) := (zpow_add₀ (by norm_num) _ _).symm
        _ ≤ 2 ^ (lastBit x + 52) := zpow_le_zpow_right₀ (by norm_num) (by omega)
    have hlarge := significand_le_abs hx (by omega)
    obtain ⟨hlow, hhigh⟩ := abs_lt.mp hsmall
    rcases lt_or_gt_of_ne hx with hneg | hpos
    · rw [abs_of_neg hneg] at hlarge
      have hgrid := abs_sub_nearest_le_grid x (-2 ^ 52)
      have hpoint : ((-2 ^ 52 : ℤ) : ℚ) * 2 ^ lastBit x = -2 ^ (lastBit x + 52) := by
        rw [hlead]
        push_cast
        ring
      rw [hpoint] at hgrid
      apply hgrid.trans
      have hleft : x - -2 ^ (lastBit x + 52) ≤ 0 := by linarith
      have hright : x - m * 2 ^ e ≤ 0 := by linarith
      rw [abs_of_nonpos hleft, abs_of_nonpos hright]
      linarith
    · rw [abs_of_pos hpos] at hlarge
      have hgrid := abs_sub_nearest_le_grid x (2 ^ 52)
      rw [← hlead] at hgrid
      apply hgrid.trans
      have hleft : 0 ≤ x - 2 ^ (lastBit x + 52) := by linarith
      have hright : 0 ≤ x - m * 2 ^ e := by linarith
      rw [abs_of_nonneg hleft, abs_of_nonneg hright]
      linarith

/-- A representable value is rounded to itself. -/
theorem nearest_eq_self (hx : Representable x) : nearest x = x := by
  have hle := abs_sub_nearest_le x hx
  rw [sub_self, abs_zero] at hle
  linarith [abs_nonpos_iff.mp hle]

theorem nearest_nonneg (hx : 0 ≤ x) : 0 ≤ nearest x := by
  have hscale := scale_pos (lastBit x)
  have hround : roundEven (0 : ℤ) ≤ roundEven (x / 2 ^ lastBit x) := by
    apply roundEven_mono
    rw [Int.cast_zero]
    positivity
  rw [roundEven_intCast] at hround
  have hround' : (0 : ℚ) ≤ roundEven (x / 2 ^ lastBit x) := by exact_mod_cast hround
  unfold nearest
  positivity

theorem abs_roundEven_le (x : ℚ) : |roundEven (x / 2 ^ lastBit x)| ≤ 2 ^ 53 := by
  have hq : |x / 2 ^ lastBit x| ≤ 2 ^ 53 := by
    rw [abs_div, abs_of_pos (scale_pos (lastBit x)), div_le_iff₀ (scale_pos _)]
    refine (abs_lt_significand x).le.trans (le_of_eq ?_)
    rw [zpow_add₀ (by norm_num), mul_comm]
    norm_num
  obtain ⟨hlow, hhigh⟩ := abs_le.mp hq
  rw [abs_le]
  constructor
  · have hmono := roundEven_mono (q := ((-2 ^ 53 : ℤ) : ℚ)) (by push_cast; exact hlow)
    rwa [roundEven_intCast] at hmono
  · have hmono := roundEven_mono (r := ((2 ^ 53 : ℤ) : ℚ)) (by push_cast; exact hhigh)
    rwa [roundEven_intCast] at hmono

theorem representable_nearest (x : ℚ) : Representable (nearest x) := by
  have hbit : -1074 ≤ lastBit x := le_max_right _ _
  rcases (abs_roundEven_le x).lt_or_eq with hlt | heq
  · exact ⟨_, _, hlt, hbit, rfl⟩
  · -- The significand has carried over.
    have hcarry : ∀ s : ℤ, |s| = 1 → roundEven (x / 2 ^ lastBit x) = s * 2 ^ 53 →
        Representable (nearest x) := by
      intro s hs hround
      refine ⟨s * 2 ^ 52, lastBit x + 1, ?_, by omega, ?_⟩
      · rw [abs_mul, hs]
        norm_num
      · unfold nearest
        rw [hround, zpow_add_one₀ (by norm_num)]
        push_cast
        ring
    rcases abs_eq (by positivity) |>.mp heq with hround | hround
    · exact hcarry 1 (by norm_num) (by rw [hround, one_mul])
    · exact hcarry (-1) (by norm_num) (by rw [hround, neg_one_mul])

theorem lastBit_mono (hx : 0 < x) (h : x ≤ y) : lastBit x ≤ lastBit y := by
  unfold lastBit
  rw [abs_of_pos hx, abs_of_pos (hx.trans_le h)]
  have hlog : Int.log 2 x ≤ Int.log 2 y := Int.log_mono_right hx h
  omega

theorem nearest_mono_of_pos (hx : 0 < x) (h : x ≤ y) : nearest x ≤ nearest y := by
  have hy := hx.trans_le h
  rcases (lastBit_mono hx h).lt_or_eq with hlt | heq
  · -- A larger exponent: the two are on the two sides of a power of two.
    have hbelow : nearest x ≤ 2 ^ (lastBit x + 53) := by
      have hround : ((roundEven (x / 2 ^ lastBit x) : ℤ) : ℚ) ≤ 2 ^ 53 := by
        exact_mod_cast (abs_le.mp (abs_roundEven_le x)).2
      unfold nearest
      rw [zpow_add₀ (by norm_num), mul_comm]
      exact mul_le_mul_of_nonneg_left (by exact_mod_cast hround) (scale_pos _).le
    have habove : 2 ^ (lastBit y + 52) ≤ nearest y := by
      have hbit : -1074 < lastBit y := (le_max_right _ _).trans_lt hlt
      have hlead := significand_le_abs hy.ne' hbit
      rw [abs_of_pos hy] at hlead
      have hq : ((2 ^ 52 : ℤ) : ℚ) ≤ y / 2 ^ lastBit y := by
        rw [le_div_iff₀ (scale_pos _)]
        refine le_trans (le_of_eq ?_) hlead
        rw [zpow_add₀ (by norm_num), mul_comm]
        norm_num
      have hround := roundEven_mono hq
      rw [roundEven_intCast] at hround
      have hround' : (2 : ℚ) ^ 52 ≤ roundEven (y / 2 ^ lastBit y) := by exact_mod_cast hround
      unfold nearest
      rw [zpow_add₀ (by norm_num), mul_comm]
      exact mul_le_mul_of_nonneg_right (by exact_mod_cast hround') (scale_pos _).le
    exact hbelow.trans ((zpow_le_zpow_right₀ (by norm_num) (by omega)).trans habove)
  · have hq : x / 2 ^ lastBit x ≤ y / 2 ^ lastBit x :=
      div_le_div_of_nonneg_right h (scale_pos _).le
    unfold nearest
    rw [← heq]
    have hround : ((roundEven (x / 2 ^ lastBit x) : ℤ) : ℚ) ≤ roundEven (y / 2 ^ lastBit x) := by
      exact_mod_cast roundEven_mono hq
    exact mul_le_mul_of_nonneg_right hround (scale_pos _).le

/-- Rounding keeps the order. -/
theorem nearest_mono (h : x ≤ y) : nearest x ≤ nearest y := by
  rcases lt_trichotomy x 0 with hx | rfl | hx
  · rcases lt_or_ge y 0 with hy | hy
    · have hmono := nearest_mono_of_pos (neg_pos.mpr hy) (neg_le_neg h)
      rw [nearest_neg, nearest_neg] at hmono
      linarith
    · have hneg := nearest_nonneg (neg_nonneg.mpr hx.le)
      rw [nearest_neg] at hneg
      linarith [nearest_nonneg hy]
  · rw [nearest_zero]
    exact nearest_nonneg h
  · exact nearest_mono_of_pos hx h

end Nearest

/-! ## Finite doubles -/

@[ext]
structure Double where
  value : ℚ
  representable : Representable value
  finite : |value| < 2 ^ 1024

/-- The double a value rounds to, if that is finite. -/
def toDouble (x : ℚ) : Option Double :=
  if h : |nearest x| < 2 ^ 1024 then some ⟨nearest x, representable_nearest x, h⟩ else none

theorem Double.toDouble_value (d : Double) : toDouble d.value = some d := by
  have hself := nearest_eq_self d.representable
  unfold toDouble
  rw [dif_pos (by rw [hself]; exact d.finite)]
  congr 1
  exact Double.ext hself

end Lib

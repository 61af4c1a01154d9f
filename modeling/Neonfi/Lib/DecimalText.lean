import Mathlib.Algebra.Order.Field.Basic
import Mathlib.Data.List.DropRight
import Mathlib.Tactic.FieldSimp
import Mathlib.Tactic.Positivity
import Mathlib.Tactic.Ring

/-!
# Decimal texts

The canonical text of a decimal fraction: digits without a needless leading zero and, after a
point, digits that do not end in a zero.  `ofScaled k n` is the text of `n / 10 ^ k`, written by
division, padding and trimming.  A text determines its digits, so it has one value.
-/

namespace Lib

/-! ## Digits -/

def digitsValue (cs : List Char) : ℕ := Nat.ofDigitChars 10 cs 0

def padStart (width : ℕ) (cs : List Char) : List Char :=
  List.replicate (width - cs.length) '0' ++ cs

/-- Drop the zeros at the end. -/
def trimZeros (cs : List Char) : List Char := cs.rdropWhile fun c => c = '0'

section Digits

variable {cs : List Char} {n k : ℕ}

@[simp] theorem digitsValue_toDigits : digitsValue (Nat.toDigits 10 n) = n :=
  Nat.ofDigitChars_ten_toDigits

theorem digitsValue_append (cs ds : List Char) :
    digitsValue (cs ++ ds) = digitsValue cs * 10 ^ ds.length + digitsValue ds := by
  unfold digitsValue
  rw [Nat.ofDigitChars_append, Nat.ofDigitChars_eq_ofDigitChars_zero, mul_comm]

theorem digitsValue_replicate (m : ℕ) : digitsValue (List.replicate m '0') = 0 := by
  simp [digitsValue]

@[simp] theorem digitsValue_padStart : digitsValue (padStart k cs) = digitsValue cs := by
  unfold padStart
  rw [digitsValue_append, digitsValue_replicate, zero_mul, zero_add]

theorem isDigit_of_mem_toDigits {c : Char} (h : c ∈ Nat.toDigits 10 n) : c.isDigit :=
  Nat.isDigit_of_mem_toDigits (by decide) (by decide) h

theorem isDigit_of_mem_padStart (h : ∀ c ∈ cs, c.isDigit) :
    ∀ c ∈ padStart k cs, c.isDigit := by
  intro c hc
  rcases List.mem_append.mp hc with hc | hc
  · rw [List.eq_of_mem_replicate hc]
    rfl
  · exact h c hc

theorem length_padStart (h : cs.length ≤ k) : (padStart k cs).length = k := by
  unfold padStart
  rw [List.length_append, List.length_replicate]
  omega

/-- Only the text of zero begins with a zero. -/
theorem head?_toDigits (h : (Nat.toDigits 10 n).head? = some '0') : n = 0 := by
  induction n using Nat.strong_induction_on with
  | h n ih =>
      by_cases hsmall : n < 10
      · rw [Nat.toDigits_of_lt_base hsmall, List.head?_cons] at h
        have hvalue := Nat.toNat_digitChar_sub_48_of_lt_ten hsmall
        rw [Option.some.inj h] at hvalue
        exact hvalue.symm
      · rw [Nat.toDigits_of_base_le (by decide) (not_lt.mp hsmall),
          List.head?_append_of_ne_nil _ Nat.toDigits_ne_nil] at h
        have hzero := ih (n / 10) (by omega) h
        omega

theorem trimZeros_append (cs : List Char) :
    ∃ m, cs = trimZeros cs ++ List.replicate m '0' := by
  have hzeros : cs.rtakeWhile (fun c => c = '0') =
      List.replicate (cs.rtakeWhile fun c => c = '0').length '0' := by
    rw [List.eq_replicate_iff]
    refine ⟨rfl, ?_⟩
    intro c hc
    simpa using List.mem_rtakeWhile_imp hc
  refine ⟨(cs.rtakeWhile fun c => c = '0').length, ?_⟩
  rw [← hzeros]
  exact List.rdropWhile_append_rtakeWhile.symm

theorem mem_of_mem_trimZeros {c : Char} (h : c ∈ trimZeros cs) : c ∈ cs :=
  (List.rdropWhile_prefix _ cs).subset h

theorem length_trimZeros_le : (trimZeros cs).length ≤ cs.length :=
  (List.rdropWhile_prefix _ cs).length_le

theorem getLast?_trimZeros : (trimZeros cs).getLast? ≠ some '0' := by
  intro h
  have hne : trimZeros cs ≠ [] := by
    rintro hnil
    rw [hnil] at h
    cases h
  have hlast := List.rdropWhile_last_not (fun c : Char => decide (c = '0')) cs hne
  rw [List.getLast?_eq_some_getLast hne] at h
  exact hlast (decide_eq_true (Option.some.inj h))

/-- Zeros at the end do not change what the digits are worth as a fraction. -/
theorem digitsValue_trimZeros :
    (digitsValue (trimZeros cs) : ℚ) / 10 ^ (trimZeros cs).length =
      digitsValue cs / 10 ^ cs.length := by
  obtain ⟨m, hm⟩ := trimZeros_append cs
  have hvalue : digitsValue cs = digitsValue (trimZeros cs) * 10 ^ m := by
    conv_lhs => rw [hm]
    rw [digitsValue_append, digitsValue_replicate, List.length_replicate, add_zero]
  have hlength : cs.length = (trimZeros cs).length + m := by
    conv_lhs => rw [hm]
    rw [List.length_append, List.length_replicate]
  rw [hvalue, hlength, pow_add]
  push_cast
  field_simp

end Digits

/-! ## Texts -/

/-- A canonical decimal text, in its two parts. -/
@[ext]
structure DecimalText where
  whole : List Char
  frac : List Char
  whole_digits : ∀ c ∈ whole, c.isDigit
  frac_digits : ∀ c ∈ frac, c.isDigit
  whole_ne_nil : whole ≠ []
  no_leading_zero : whole.head? = some '0' → whole = ['0']
  no_trailing_zero : frac.getLast? ≠ some '0'

namespace DecimalText

/-- The text; without a fraction there is no point either. -/
def toList (t : DecimalText) : List Char :=
  if t.frac = [] then t.whole else t.whole ++ '.' :: t.frac

def value (t : DecimalText) : ℚ :=
  digitsValue t.whole + digitsValue t.frac / 10 ^ t.frac.length

theorem ne_point {c : Char} (h : c.isDigit) : c ≠ '.' := by
  rintro rfl
  cases h

theorem takeWhile_toList (t : DecimalText) : t.toList.takeWhile (fun c => c ≠ '.') = t.whole := by
  have hwhole : ∀ c ∈ t.whole, decide (c ≠ '.') = true := by
    intro c hc
    simpa using ne_point (t.whole_digits c hc)
  unfold toList
  split
  · exact List.takeWhile_eq_self_iff.mpr hwhole
  · rw [List.takeWhile_append_of_pos hwhole]
    simp

theorem dropWhile_toList (t : DecimalText) :
    (t.toList.dropWhile fun c => c ≠ '.').tail = t.frac := by
  have hwhole : ∀ c ∈ t.whole, decide (c ≠ '.') = true := by
    intro c hc
    simpa using ne_point (t.whole_digits c hc)
  unfold toList
  split
  · next hnil =>
      rw [List.dropWhile_eq_nil_iff.mpr hwhole, hnil]
      rfl
  · rw [List.dropWhile_append_of_pos hwhole]
    simp

/-- A text is read in one way. -/
theorem toList_injective : Function.Injective toList := by
  intro s t h
  apply DecimalText.ext
  · rw [← takeWhile_toList s, h, takeWhile_toList]
  · rw [← dropWhile_toList s, h, dropWhile_toList]

/-! ## The text of a scaled integer -/

/-- The text of `n / 10 ^ k`. -/
def ofScaled (k n : ℕ) : DecimalText where
  whole := Nat.toDigits 10 (n / 10 ^ k)
  frac := trimZeros (padStart k (Nat.toDigits 10 (n % 10 ^ k)))
  whole_digits _ := isDigit_of_mem_toDigits
  frac_digits _ hc := isDigit_of_mem_padStart (fun _ => isDigit_of_mem_toDigits) _
    (mem_of_mem_trimZeros hc)
  whole_ne_nil := Nat.toDigits_ne_nil
  no_leading_zero := by
    intro h
    rw [head?_toDigits h, Nat.toDigits_zero]
  no_trailing_zero := getLast?_trimZeros

section

variable {k n : ℕ}

theorem length_toDigits_mod (hk : 0 < k) : (Nat.toDigits 10 (n % 10 ^ k)).length ≤ k :=
  (Nat.length_toDigits_le_iff (by decide) hk).mpr (Nat.mod_lt _ (by positivity))

theorem frac_value_ofScaled :
    (digitsValue (ofScaled k n).frac : ℚ) / 10 ^ (ofScaled k n).frac.length =
      (n % 10 ^ k : ℕ) / 10 ^ k := by
  unfold ofScaled
  dsimp only
  rw [digitsValue_trimZeros, digitsValue_padStart, digitsValue_toDigits]
  rcases Nat.eq_zero_or_pos k with rfl | hk
  · simp [Nat.mod_one]
  · rw [length_padStart (length_toDigits_mod hk)]

theorem value_ofScaled : (ofScaled k n).value = n / 10 ^ k := by
  have hsplit : (n : ℚ) = 10 ^ k * (n / 10 ^ k : ℕ) + (n % 10 ^ k : ℕ) := by
    exact_mod_cast (Nat.div_add_mod n (10 ^ k)).symm
  have hwhole : digitsValue (ofScaled k n).whole = n / 10 ^ k := digitsValue_toDigits
  unfold value
  rw [frac_value_ofScaled, hwhole]
  conv_rhs => rw [hsplit]
  field_simp

theorem length_frac_ofScaled : (ofScaled k n).frac.length ≤ k := by
  rcases Nat.eq_zero_or_pos k with rfl | hk
  · unfold ofScaled
    dsimp only
    rw [pow_zero, Nat.mod_one]
    decide
  · unfold ofScaled
    dsimp only
    exact length_trimZeros_le.trans (length_padStart (length_toDigits_mod hk)).le

theorem length_whole_ofScaled_le_iff {j : ℕ} (hj : 0 < j) :
    (ofScaled k n).whole.length ≤ j ↔ n < 10 ^ (j + k) := by
  unfold ofScaled
  dsimp only
  rw [Nat.length_toDigits_le_iff (by decide) hj, Nat.div_lt_iff_lt_mul (by positivity), pow_add]

/-- There is no fraction exactly when nothing is left over. -/
theorem frac_ofScaled_eq_nil_iff : (ofScaled k n).frac = [] ↔ n % 10 ^ k = 0 := by
  constructor
  · intro hnil
    have hvalue := @frac_value_ofScaled k n
    rw [hnil] at hvalue
    have hzero : ((n % 10 ^ k : ℕ) : ℚ) = 0 := by
      rw [eq_div_iff (by positivity)] at hvalue
      simpa [digitsValue] using hvalue.symm
    exact_mod_cast hzero
  · intro hzero
    unfold ofScaled
    dsimp only
    rw [hzero, Nat.toDigits_zero]
    unfold trimZeros
    rw [List.rdropWhile_eq_nil_iff]
    intro c hc
    unfold padStart at hc
    rcases List.mem_append.mp hc with hc | hc
    · simpa using List.eq_of_mem_replicate hc
    · simpa using hc

end

end DecimalText

/-! ## Signs -/

/-- A canonical text that may have a sign. -/
@[ext]
structure SignedText where
  negative : Bool
  magnitude : DecimalText

namespace SignedText

def toList (t : SignedText) : List Char :=
  (if t.negative then ['-'] else []) ++ t.magnitude.toList

def value (t : SignedText) : ℚ := if t.negative then -t.magnitude.value else t.magnitude.value

/-- A magnitude begins with a digit. -/
theorem head?_toList_magnitude (t : DecimalText) : t.toList.head? ≠ some '-' := by
  obtain ⟨c, cs, hcs⟩ := List.exists_cons_of_ne_nil t.whole_ne_nil
  have hdigit : c.isDigit := t.whole_digits c (by rw [hcs]; exact List.mem_cons_self)
  have hhead : t.toList.head? = some c := by
    unfold DecimalText.toList
    split <;> rw [hcs] <;> rfl
  rw [hhead]
  rintro h
  rw [Option.some.inj h] at hdigit
  cases hdigit

theorem toList_injective : Function.Injective toList := by
  rintro ⟨s, u⟩ ⟨t, w⟩ h
  unfold toList at h
  cases s <;> cases t
  · exact SignedText.ext rfl (DecimalText.toList_injective h)
  · exact absurd (congrArg List.head? h) (head?_toList_magnitude u)
  · exact absurd (congrArg List.head? h.symm) (head?_toList_magnitude w)
  · exact SignedText.ext rfl (DecimalText.toList_injective (List.cons.inj h).2)

end SignedText

/-! ## A fixed number of places -/

/-- The digits of `n` with a point before the last `k`. -/
def fixedText (k n : ℕ) : List Char :=
  let m := padStart (k + 1) (Nat.toDigits 10 n)
  m.take (m.length - k) ++ '.' :: m.drop (m.length - k)

/-- Drop a point at the end. -/
def trimPoint (cs : List Char) : List Char := if cs.getLast? = some '.' then cs.dropLast else cs

section Fixed

variable {k n a r : ℕ}

theorem padStart_concat (width : ℕ) (cs : List Char) (c : Char) :
    padStart (width + 1) (cs ++ [c]) = padStart width cs ++ [c] := by
  unfold padStart
  rw [List.length_append, List.length_singleton, Nat.add_sub_add_right, List.append_assoc]

/-- The digits of a number are those of its quotient and of its remainder. -/
theorem toDigits_mul_pow_add (ha : 0 < a) (hr : r < 10 ^ (k + 1)) :
    Nat.toDigits 10 (a * 10 ^ (k + 1) + r) =
      Nat.toDigits 10 a ++ padStart (k + 1) (Nat.toDigits 10 r) := by
  induction k generalizing r with
  | zero =>
      have hlt : r < 10 := by simpa using hr
      have hpad : padStart (0 + 1) (Nat.toDigits 10 r) = Nat.toDigits 10 r := by
        rw [Nat.toDigits_of_lt_base hlt]
        rfl
      rw [hpad, Nat.toDigits_append_toDigits (by decide) ha hlt, zero_add, pow_one, mul_comm]
  | succ k ih =>
      have hscale : a * 10 ^ (k + 1 + 1) = 10 * (a * 10 ^ (k + 1)) := by ring
      have hquot : (10 * (a * 10 ^ (k + 1)) + r) / 10 = a * 10 ^ (k + 1) + r / 10 := by omega
      have hrem : (10 * (a * 10 ^ (k + 1)) + r) % 10 = r % 10 := by omega
      have hr' : r / 10 < 10 ^ (k + 1) := by
        rw [pow_succ] at hr
        omega
      have hlarge : 10 ≤ 10 * (a * 10 ^ (k + 1)) + r := by
        have hpos : 0 < a * 10 ^ (k + 1) := by positivity
        omega
      rw [hscale, Nat.toDigits_of_base_le (by decide) hlarge, hquot, hrem, ih hr',
        List.append_assoc, ← padStart_concat]
      congr 1
      by_cases hsmall : r < 10
      · rw [Nat.div_eq_of_lt hsmall, Nat.toDigits_zero, Nat.mod_eq_of_lt hsmall,
          Nat.toDigits_of_lt_base hsmall]
        unfold padStart
        simp [List.replicate_succ']
      · rw [← Nat.toDigits_of_base_le (by decide) (not_lt.mp hsmall)]

theorem padStart_toDigits (hk : 0 < k) : padStart (k + 1) (Nat.toDigits 10 n) =
    Nat.toDigits 10 (n / 10 ^ k) ++ padStart k (Nat.toDigits 10 (n % 10 ^ k)) := by
  by_cases hsmall : n < 10 ^ k
  · have hlength := (Nat.length_toDigits_le_iff (b := 10) (by decide) hk).mpr hsmall
    rw [Nat.div_eq_of_lt hsmall, Nat.mod_eq_of_lt hsmall, Nat.toDigits_zero]
    unfold padStart
    rw [Nat.succ_sub hlength, List.replicate_succ]
    rfl
  · obtain ⟨j, rfl⟩ := Nat.exists_eq_add_of_lt hk
    rw [zero_add] at hsmall ⊢
    have hpos : 0 < n / 10 ^ (j + 1) := Nat.div_pos (not_lt.mp hsmall) (by positivity)
    have hlength : j + 1 < (Nat.toDigits 10 n).length :=
      not_le.mp fun h => hsmall ((Nat.length_toDigits_le_iff (by decide) (by omega)).mp h)
    have hpad : padStart (j + 1 + 1) (Nat.toDigits 10 n) = Nat.toDigits 10 n := by
      unfold padStart
      rw [Nat.sub_eq_zero_of_le hlength]
      rfl
    rw [hpad, ← toDigits_mul_pow_add hpos (Nat.mod_lt _ (by positivity)), mul_comm,
      Nat.div_add_mod]

theorem fixedText_eq (hk : 0 < k) : fixedText k n =
    Nat.toDigits 10 (n / 10 ^ k) ++ '.' :: padStart k (Nat.toDigits 10 (n % 10 ^ k)) := by
  have hlength : (padStart k (Nat.toDigits 10 (n % 10 ^ k))).length = k :=
    length_padStart (DecimalText.length_toDigits_mod hk)
  unfold fixedText
  rw [padStart_toDigits hk]
  dsimp only
  rw [List.length_append, hlength, Nat.add_sub_cancel, List.take_left, List.drop_left]

theorem trimZeros_append_point (cs ds : List Char) :
    trimZeros (cs ++ '.' :: ds) = cs ++ '.' :: trimZeros ds := by
  unfold trimZeros List.rdropWhile
  rw [List.reverse_append, List.reverse_cons, List.append_assoc, List.dropWhile_append]
  cases hdrop : ds.reverse.dropWhile fun c => decide (c = '0') with
  | nil => simp
  | cons d rest => simp

/-- The trimmed text is the canonical one. -/
theorem trim_fixedText (hk : 0 < k) (sign : List Char) :
    trimPoint (trimZeros (sign ++ fixedText k n)) =
      sign ++ (DecimalText.ofScaled k n).toList := by
  have htrim : trimZeros (sign ++ fixedText k n) = sign ++
      ((DecimalText.ofScaled k n).whole ++ '.' :: (DecimalText.ofScaled k n).frac) := by
    rw [fixedText_eq hk, ← List.append_assoc, trimZeros_append_point, List.append_assoc]
    rfl
  rw [htrim]
  unfold trimPoint DecimalText.toList
  by_cases hnil : (DecimalText.ofScaled k n).frac = []
  · rw [if_pos hnil, hnil, ← List.append_assoc]
    simp
  · rw [if_neg hnil, if_neg]
    rw [← List.append_assoc, List.getLast?_append_of_ne_nil _ (List.cons_ne_nil _ _),
      List.getLast?_cons_of_ne_nil hnil, List.getLast?_eq_some_getLast hnil]
    intro hpoint
    have hdigit := (DecimalText.ofScaled k n).frac_digits _ (List.getLast_mem hnil)
    exact DecimalText.ne_point hdigit (Option.some.inj hpoint)

end Fixed

end Lib

import Neonfi.Ledger.BulkCells
import Neonfi.Lib.Binary64
import Neonfi.Lib.DecimalText
import Neonfi.Wallet.Summary

/-!
# The decimal texts

`toDecimalString` of `decimal.ts` and `signedDec8` of `sync.ts`, as the texts they return.  A number
is a double here, a text is read as `Number` reads it, and the clamp is the double that its literal
denotes.  The column takes twelve digits before the point, and the clamp has thirteen.
-/

namespace Neonfi.Wallet.Encoding

open Lib
open Ledger (digits? trim)

/-! ## Numbers -/

inductive JsNumber
  | nan
  | infinity (negative : Bool)
  | finite (d : Double)

/-- What a text denotes before it is rounded. -/
inductive Numeral
  | nan
  | infinity (negative : Bool)
  | value (x : ℚ)
  deriving DecidableEq, Repr

def Numeral.neg : Numeral → Numeral
  | nan => nan
  | infinity negative => infinity !negative
  | value x => value (-x)

def exponent? : List Char → Option ℤ
  | '-' :: cs => (digits? cs).map fun n => -(n : ℤ)
  | '+' :: cs => (digits? cs).map fun n => (n : ℤ)
  | cs => (digits? cs).map fun n => (n : ℤ)

/-- Digits, a point and digits; one of the two sides may be missing. -/
def mantissa? (cs : List Char) : Option ℚ :=
  match cs.splitOn '.' with
  | [whole] => (digits? whole).map fun n => (n : ℚ)
  | [whole, frac] =>
      if whole = [] ∧ frac = [] then none
      else
        let side (cs : List Char) := if cs = [] then some 0 else digits? cs
        match side whole, side frac with
        | some n, some f => some (n + f / 10 ^ frac.length)
        | _, _ => none
  | _ => none

def unsignedDecimal (cs : List Char) : Numeral :=
  if cs = "Infinity".toList then .infinity false
  else
    let parsed := match cs.span fun c => c ≠ 'e' ∧ c ≠ 'E' with
      | (mantissa, []) => mantissa? mantissa
      | (mantissa, _ :: exponent) =>
          match mantissa? mantissa, exponent? exponent with
          | some x, some e => some (x * 10 ^ e)
          | _, _ => none
    parsed.elim .nan .value

def hexDigit? (c : Char) : Option ℕ :=
  if c.isDigit then some (c.toNat - '0'.toNat)
  else if 'a' ≤ c ∧ c ≤ 'f' then some (c.toNat - 'a'.toNat + 10)
  else if 'A' ≤ c ∧ c ≤ 'F' then some (c.toNat - 'A'.toNat + 10)
  else none

/-- The digits after `0x`, `0o` or `0b`. -/
def radixInteger (radix : ℕ) (cs : List Char) : Numeral :=
  match cs.mapM fun c => (hexDigit? c).filter (· < radix) with
  | none | some [] => .nan
  | some digits => .value (digits.foldl (fun n d => radix * n + d) 0 : ℕ)

def stringToNumber (s : String) : Numeral :=
  match (trim s).toList with
  | [] => .value 0
  | '0' :: 'x' :: cs | '0' :: 'X' :: cs => radixInteger 16 cs
  | '0' :: 'o' :: cs | '0' :: 'O' :: cs => radixInteger 8 cs
  | '0' :: 'b' :: cs | '0' :: 'B' :: cs => radixInteger 2 cs
  | '-' :: cs => (unsignedDecimal cs).neg
  | '+' :: cs => unsignedDecimal cs
  | cs => unsignedDecimal cs

/-- `Number(s)` -/
def number (s : String) : JsNumber :=
  match stringToNumber s with
  | .nan => .nan
  | .infinity negative => .infinity negative
  | .value x => (toDouble x).elim (.infinity (decide (x < 0))) .finite

example : stringToNumber " -12.50e1 " = .value (-125) := by decide +kernel

/-! ## The encoders -/

/-- The literal `999999999999.99999999`. -/
def maxDecimal : ℚ := nearest (99999999999999999999 / 10 ^ 8)

/-- `n.toFixed(8)`, for a magnitude below `10 ^ 21`; of two nearest texts the larger magnitude. -/
def toFixed8 (n : ℚ) : List Char :=
  (if n < 0 then ['-'] else []) ++ fixedText 8 ⌊|n| * 10 ^ 8 + 1 / 2⌋₊

def trimmed (s : List Char) : List Char := if '.' ∈ s then trimPoint (trimZeros s) else s

inductive Input
  | number (n : JsNumber)
  | text (s : String)
  | missing

def Input.toNumber : Input → JsNumber
  | number n => n
  | text s => Encoding.number s
  | missing => .finite ⟨0, ⟨0, 0, by norm_num, by norm_num, by norm_num⟩, by norm_num⟩

/-- `if (!Number.isFinite(n)) n = 0` -/
def JsNumber.finiteOrZero : JsNumber → ℚ
  | finite d => d.value
  | _ => 0

def toDecimalString (value : Input) : String :=
  let n := value.toNumber.finiteOrZero
  let n := if n < 0 then 0 else n
  let n := if maxDecimal < n then maxDecimal else n
  String.ofList (trimmed (toFixed8 n))

def signedDec8 (n : JsNumber) : String :=
  match n with
  | .finite d =>
      let clamped := max (-maxDecimal) (min maxDecimal d.value)
      String.ofList (trimmed (toFixed8 clamped))
  | _ => "0"

/-! ## The texts -/

/-- The text reads as a number. -/
def Reads (text : String) (v : ℚ) : Prop :=
  ∃ t : SignedText, text = String.ofList t.toList ∧ t.value = v

/-- At most twelve digits before the point and eight behind it, and a sign only if that is
allowed. -/
def FitsColumn (signed : Bool) (text : String) : Prop :=
  ∃ t : SignedText, text = String.ofList t.toList ∧ (t.negative → signed) ∧
    t.magnitude.whole.length ≤ 12 ∧ t.magnitude.frac.length ≤ 8

/-- A number in eight places. -/
def fixedOf (n : ℚ) : SignedText := ⟨n < 0, DecimalText.ofScaled 8 ⌊|n| * 10 ^ 8 + 1 / 2⌋₊⟩

section

variable {n v : ℚ} {signed : Bool}

theorem trimmed_toFixed8 (n : ℚ) : trimmed (toFixed8 n) = (fixedOf n).toList := by
  have hpoint : '.' ∈ toFixed8 n := by
    unfold toFixed8
    rw [fixedText_eq (by decide)]
    simp
  unfold trimmed
  rw [if_pos hpoint]
  unfold toFixed8
  rw [trim_fixedText (by decide)]
  unfold fixedOf SignedText.toList
  by_cases hneg : n < 0 <;> simp [hneg]

/-- The text is worth the number rounded to the column. -/
theorem value_fixedOf (n : ℚ) : (fixedOf n).value = column.fix n := by
  have hunits : ∀ m : ℚ, 0 ≤ m → ((⌊m * 10 ^ 8 + 1 / 2⌋₊ : ℕ) : ℚ) / 10 ^ 8 = column.fix m := by
    intro m hm
    have hround : Numeric.roundAway (m * 10 ^ 8) = ⌊m * 10 ^ 8 + 1 / 2⌋ := by
      unfold Numeric.roundAway
      rw [if_neg (not_lt.mpr (by positivity))]
    change _ = (Numeric.roundAway (m * 10 ^ 8) : ℚ) / 10 ^ 8
    rw [hround, natCast_floor_eq_intCast_floor (by positivity)]
  unfold fixedOf SignedText.value
  rw [DecimalText.value_ofScaled, hunits _ (abs_nonneg n)]
  rcases lt_or_ge n 0 with hneg | hpos
  · rw [if_pos (by simpa using hneg), abs_of_neg hneg, column.fix_neg, neg_neg]
  · rw [if_neg (by simpa using hpos), abs_of_nonneg hpos]

theorem reads_toFixed8_iff : Reads (String.ofList (trimmed (toFixed8 n))) v ↔ v = column.fix n := by
  rw [trimmed_toFixed8]
  constructor
  · rintro ⟨t, htext, rfl⟩
    rw [← SignedText.toList_injective (String.ofList_injective htext), value_fixedOf]
  · rintro rfl
    exact ⟨fixedOf n, rfl, value_fixedOf n⟩

/-- The digits fit exactly when the column holds the rounded number. -/
theorem fitsColumn_toFixed8_iff : FitsColumn signed (String.ofList (trimmed (toFixed8 n))) ↔
    (n < 0 → signed) ∧ |column.fix n| < 10 ^ 12 := by
  have hmagnitude : |column.fix n| = (fixedOf n).magnitude.value := by
    have hnonneg : 0 ≤ (fixedOf n).magnitude.value := by
      unfold fixedOf
      rw [DecimalText.value_ofScaled]
      positivity
    rw [← value_fixedOf]
    unfold SignedText.value
    split
    · rw [abs_neg, abs_of_nonneg hnonneg]
    · rw [abs_of_nonneg hnonneg]
  have hlength : (fixedOf n).magnitude.whole.length ≤ 12 ↔ |column.fix n| < 10 ^ 12 := by
    rw [hmagnitude]
    unfold fixedOf
    rw [DecimalText.length_whole_ofScaled_le_iff (by decide), DecimalText.value_ofScaled,
      div_lt_iff₀ (by positivity)]
    rw [← pow_add]
    exact_mod_cast Iff.rfl
  rw [trimmed_toFixed8]
  constructor
  · rintro ⟨t, htext, hsign, hwhole, -⟩
    have ht := SignedText.toList_injective (String.ofList_injective htext)
    rw [← ht] at hsign hwhole
    exact ⟨fun hneg => hsign (decide_eq_true hneg), hlength.mp hwhole⟩
  · rintro ⟨hsign, hlt⟩
    exact ⟨fixedOf n, rfl, fun hneg => hsign (of_decide_eq_true hneg), hlength.mpr hlt,
      DecimalText.length_frac_ofScaled⟩

end

/-! ## The clamp -/

/-- Halfway from the largest double under `10 ^ 12` to `10 ^ 12`. -/
def lastMidpoint : ℚ := 10 ^ 12 - 1 / 2 ^ 14

section

variable {x : ℚ}

theorem lastBit_eq (hlow : 2 ^ 39 ≤ x) (hhigh : x < 2 ^ 40) : lastBit x = -13 := by
  have hpos : 0 < x := lt_of_lt_of_le (by norm_num) hlow
  have hle : 39 ≤ Int.log 2 x :=
    (Int.zpow_le_iff_le_log (by decide) hpos).mp (by exact_mod_cast hlow)
  have hlt : Int.log 2 x < 40 :=
    (Int.lt_zpow_iff_log_lt (by decide) hpos).mp (by exact_mod_cast hhigh)
  unfold lastBit
  rw [abs_of_pos hpos]
  omega

/-- The tie goes up, to the even significand. -/
theorem nearest_lastMidpoint : nearest lastMidpoint = 10 ^ 12 := by
  have hbit : lastBit lastMidpoint = -13 := by
    apply lastBit_eq <;> unfold lastMidpoint <;> norm_num
  have hround : roundEven (lastMidpoint / 2 ^ (-13 : ℤ)) = 10 ^ 12 * 2 ^ 13 := by
    apply roundEven_eq
    right
    unfold lastMidpoint
    constructor
    · norm_num
    · decide
  unfold nearest
  rw [hbit, hround]
  norm_num

theorem nearest_le_of_lt (h : x < lastMidpoint) : nearest x ≤ 10 ^ 12 - 1 / 2 ^ 13 := by
  rcases lt_or_ge x (2 ^ 39) with hlow | hlow
  · have hpower : nearest (2 ^ 39) = 2 ^ 39 :=
      nearest_eq_self ⟨1, 39, by norm_num, by norm_num, by norm_num⟩
    have hmono := nearest_mono hlow.le
    rw [hpower] at hmono
    exact hmono.trans (by norm_num)
  · have hbit : lastBit x = -13 := by
      apply lastBit_eq hlow
      unfold lastMidpoint at h
      linarith
    have hround : roundEven (x / 2 ^ (-13 : ℤ)) < 10 ^ 12 * 2 ^ 13 := by
      apply roundEven_lt_of_lt
      unfold lastMidpoint at h
      norm_num
      norm_num at h
      linarith
    have hle : (roundEven (x / 2 ^ (-13 : ℤ)) : ℚ) ≤ 10 ^ 12 * 2 ^ 13 - 1 := by
      exact_mod_cast Int.le_sub_one_of_lt hround
    unfold nearest
    rw [hbit]
    norm_num at hle ⊢
    linarith

theorem le_nearest_of_le (h : lastMidpoint ≤ x) : 10 ^ 12 ≤ nearest x := by
  rw [← nearest_lastMidpoint]
  exact nearest_mono h

/-- The literal has been rounded out of the column. -/
theorem maxDecimal_eq : maxDecimal = 10 ^ 12 := by
  have hself : nearest (10 ^ 12) = 10 ^ 12 :=
    nearest_eq_self ⟨5 ^ 12, 12, by norm_num, by norm_num, by norm_num⟩
  apply le_antisymm
  · rw [← hself]
    exact nearest_mono (by norm_num)
  · apply le_nearest_of_le
    unfold lastMidpoint
    norm_num

end

/-! ## What the encoders return -/

/-- The number that a finite number or a numeric text denotes. -/
def Input.denoted : Input → Option ℚ
  | number (.finite d) => some d.value
  | text s =>
      match stringToNumber s with
      | .value x => some x
      | _ => none
  | _ => none

/-- The double nearest to a denoted number, and zero where that overflows. -/
def readDouble (x : ℚ) : ℚ := (toDouble x).elim 0 Double.value

section

variable {i : Input} {x y v : ℚ} {d : Double}

theorem finiteOrZero_toNumber (h : i.denoted = some x) :
    i.toNumber.finiteOrZero = readDouble x := by
  unfold readDouble
  cases i with
  | number n =>
      cases n with
      | finite d =>
          rw [← Option.some.inj h, d.toDouble_value]
          rfl
      | nan => cases h
      | infinity negative => cases h
  | text s =>
      unfold Input.denoted at h
      dsimp only at h
      unfold Input.toNumber number
      dsimp only
      cases hs : stringToNumber s with
      | value y =>
          rw [hs] at h
          rw [← Option.some.inj h]
          dsimp only
          cases toDouble y <;> rfl
      | nan =>
          rw [hs] at h
          cases h
      | infinity negative =>
          rw [hs] at h
          cases h
  | missing => cases h

theorem toDecimalString_eq_text (i : Input) : Encoding.toDecimalString i =
    String.ofList (trimmed (toFixed8 (min (max i.toNumber.finiteOrZero 0) maxDecimal20_8))) := by
  unfold Encoding.toDecimalString
  dsimp only
  rw [maxDecimal_eq]
  unfold maxDecimal20_8
  generalize i.toNumber.finiteOrZero = n
  rcases lt_or_ge n 0 with hneg | hpos
  · rw [if_pos hneg, if_neg (by norm_num), max_eq_right hneg.le, min_eq_left (by norm_num)]
  · rw [if_neg (not_lt.mpr hpos), max_eq_left hpos]
    rcases lt_or_ge (10 ^ 12) n with hlarge | hsmall
    · rw [if_pos hlarge, min_eq_right hlarge.le]
    · rw [if_neg (not_lt.mpr hsmall), min_eq_left hsmall]

theorem reads_toDecimalString_iff (h : i.denoted = some x) :
    Reads (Encoding.toDecimalString i) v ↔ v = Wallet.toDecimalString (readDouble x) := by
  rw [toDecimalString_eq_text, reads_toFixed8_iff, finiteOrZero_toNumber h]
  rfl

theorem fitsColumn_toDecimalString_iff (h : i.denoted = some x) :
    FitsColumn false (Encoding.toDecimalString i) ↔
      |Wallet.toDecimalString (readDouble x)| < 10 ^ 12 := by
  rw [toDecimalString_eq_text, fitsColumn_toFixed8_iff, finiteOrZero_toNumber h]
  have hsign : ¬ min (max (readDouble x) 0) maxDecimal20_8 < 0 := by
    rw [not_lt]
    apply le_min (le_max_right _ _)
    unfold maxDecimal20_8
    positivity
  exact and_iff_right fun hneg => absurd hneg hsign

theorem lt_two_pow_of_le {q : ℚ} (h : q ≤ 2 ^ 40) : q < 2 ^ 1024 :=
  h.trans_lt (pow_lt_pow_right₀ (by norm_num) (by norm_num))

/-- Rounding to the column does not reach the power from the last double under it. -/
theorem abs_fix_lt {q : ℚ} (h : |q| ≤ 10 ^ 12 - 1 / 2 ^ 13) : |column.fix q| < 10 ^ 12 := by
  have hfix := Numeric.abs_decimal_fix_sub_le 12 8 q
  have htriangle := abs_sub_abs_le_abs_sub (column.fix q) q
  norm_num at h hfix ⊢
  linarith

/-- Below the midpoint the clamp does nothing, and what overflows is negative. -/
theorem toDecimalString_of_lt (h : x < lastMidpoint) :
    Wallet.toDecimalString (readDouble x) = column.fix (max (nearest x) 0) := by
  have hle := nearest_le_of_lt h
  have hclamp : ∀ n : ℚ, n ≤ 10 ^ 12 - 1 / 2 ^ 13 →
      Wallet.toDecimalString n = column.fix (max n 0) := by
    intro n hn
    unfold Wallet.toDecimalString maxDecimal20_8
    rw [min_eq_left]
    apply max_le (hn.trans (by norm_num))
    norm_num
  unfold readDouble toDouble
  split
  · exact hclamp _ hle
  · next hoverflow =>
      have hneg : nearest x ≤ 0 := by
        by_contra hpos
        rw [abs_of_pos (not_le.mp hpos)] at hoverflow
        exact hoverflow (lt_two_pow_of_le (hle.trans (by norm_num)))
      rw [max_eq_right hneg]
      exact (hclamp 0 (by norm_num)).trans (by rw [max_self])

/-- From the midpoint on the number is clamped to `10 ^ 12`, or overflows and is taken for zero. -/
theorem toDecimalString_of_le (h : lastMidpoint ≤ x) :
    Wallet.toDecimalString (readDouble x) = 10 ^ 12 ∨
      Wallet.toDecimalString (readDouble x) = 0 := by
  have hle := le_nearest_of_le h
  unfold readDouble toDouble
  split
  · left
    dsimp only [Option.elim]
    unfold Wallet.toDecimalString
    have hpos : (0 : ℚ) ≤ nearest x := le_trans (by norm_num) hle
    rw [max_eq_left hpos, min_eq_right (b := maxDecimal20_8) hle, fix_maxDecimal]
    rfl
  · right
    decide +kernel

/-- The text fits the column, keeps the order of what is denoted, and is off by at most half a unit
of the last place where the number is in range. -/
structure Encodes (i : Input) (x : ℚ) : Prop where
  fits : FitsColumn false (Encoding.toDecimalString i)
  mono : ∀ j y u v, Input.denoted j = some y → y ≤ x → Reads (Encoding.toDecimalString j) u →
    Reads (Encoding.toDecimalString i) v → u ≤ v
  close : ∀ d v, i.toNumber = .finite d → 0 ≤ d.value → d.value ≤ 10 ^ 12 - 1 / 10 ^ 8 →
    Reads (Encoding.toDecimalString i) v → |v - d.value| ≤ 1 / 2 / 10 ^ 8

theorem encodes_of_lt (hi : i.denoted = some x) (h : x < lastMidpoint) : Encodes i x where
  fits := by
    rw [fitsColumn_toDecimalString_iff hi, toDecimalString_of_lt h]
    apply abs_fix_lt
    rw [abs_of_nonneg (le_max_right _ _)]
    exact max_le (nearest_le_of_lt h) (by norm_num)
  mono := by
    intro j y u v hj hyx hu hv
    rw [reads_toDecimalString_iff hj, toDecimalString_of_lt (hyx.trans_lt h)] at hu
    rw [reads_toDecimalString_iff hi, toDecimalString_of_lt h] at hv
    rw [hu, hv]
    exact column.mono (max_le_max_right 0 (nearest_mono hyx))
  close := by
    intro d v hd hlow hhigh hv
    have hread : readDouble x = d.value := by
      rw [← finiteOrZero_toNumber hi, hd]
      rfl
    rw [reads_toDecimalString_iff hi, hread, toDecimalString_eq hlow] at hv
    · rw [hv]
      exact Numeric.abs_decimal_fix_sub_le 12 8 d.value
    · exact hhigh.trans (by unfold maxDecimal20_8; norm_num)

/-- One, as a number. -/
def one : Double := ⟨1, ⟨1, 0, by norm_num, by norm_num, by norm_num⟩, by
  rw [abs_one]
  exact lt_two_pow_of_le (by norm_num)⟩

theorem not_encodes_of_le (hi : i.denoted = some x) (h : lastMidpoint ≤ x) : ¬ Encodes i x := by
  intro hencodes
  rcases toDecimalString_of_le h with hclamped | hzero
  · have hfits := (fitsColumn_toDecimalString_iff hi).mp hencodes.fits
    rw [hclamped] at hfits
    norm_num at hfits
  · -- What overflows is taken for zero, which is less than the text of one.
    have hone : (Input.number (.finite one)).denoted = some 1 := rfl
    have hreadOne : readDouble 1 = 1 := by
      unfold readDouble
      rw [show (1 : ℚ) = one.value from rfl, one.toDouble_value]
      rfl
    have hvalueOne : Wallet.toDecimalString (readDouble 1) = 1 := by
      rw [hreadOne]
      decide +kernel
    have hle : (1 : ℚ) ≤ x := by
      unfold lastMidpoint at h
      norm_num at h
      linarith
    have hmono := hencodes.mono _ 1 1 0 hone hle
      ((reads_toDecimalString_iff hone).mpr hvalueOne.symm)
      ((reads_toDecimalString_iff hi).mpr hzero.symm)
    norm_num at hmono

/-! ## The digits of a text -/

/-- A midpoint between two numbers of eight places lies between a number and its double. -/
def MidpointBetween (x n : ℚ) : Prop :=
  ∃ k : ℤ, (x < (k + 1 / 2) / 10 ^ 8 ∧ (k + 1 / 2) / 10 ^ 8 ≤ n) ∨
    (n < (k + 1 / 2) / 10 ^ 8 ∧ (k + 1 / 2) / 10 ^ 8 < x)

/-- The rounded double is off by more than half a unit exactly beyond a midpoint. -/
theorem abs_fix_sub_le_iff {n : ℚ} (hn : 0 ≤ n) :
    |column.fix n - x| ≤ 1 / 2 / 10 ^ 8 ↔ ¬ MidpointBetween x n := by
  have hfix : column.fix n = ⌊n * 10 ^ 8 + 1 / 2⌋ / 10 ^ 8 := by
    change (Numeric.roundAway (n * 10 ^ 8) : ℚ) / 10 ^ 8 = _
    unfold Numeric.roundAway
    rw [if_neg (not_lt.mpr (by positivity))]
  have hlow := Int.floor_le (n * 10 ^ 8 + 1 / 2)
  have hhigh := Int.lt_floor_add_one (n * 10 ^ 8 + 1 / 2)
  rw [hfix]
  constructor
  · rintro hle ⟨k, ⟨hx, hk⟩ | ⟨hk, hx⟩⟩
    · have hfloor : k + 1 ≤ ⌊n * 10 ^ 8 + 1 / 2⌋ := by
        rw [Int.le_floor]
        push_cast
        linarith
      have hfloor' : (k : ℚ) + 1 ≤ ⌊n * 10 ^ 8 + 1 / 2⌋ := by exact_mod_cast hfloor
      have hbound := (abs_le.mp hle).2
      linarith
    · have hfloor : ⌊n * 10 ^ 8 + 1 / 2⌋ < k + 1 := by
        rw [Int.floor_lt]
        push_cast
        linarith
      have hfloor' : (⌊n * 10 ^ 8 + 1 / 2⌋ : ℚ) ≤ k := by exact_mod_cast Int.lt_add_one_iff.mp hfloor
      have hbound := (abs_le.mp hle).1
      linarith
  · intro hnone
    by_contra hfar
    rcases lt_or_ge x (⌊n * 10 ^ 8 + 1 / 2⌋ / 10 ^ 8) with hlt | hge
    · rw [abs_of_pos (sub_pos.mpr hlt)] at hfar
      refine hnone ⟨⌊n * 10 ^ 8 + 1 / 2⌋ - 1, .inl ⟨?_, ?_⟩⟩ <;> push_cast <;> linarith
    · rw [abs_of_nonpos (sub_nonpos.mpr hge)] at hfar
      refine hnone ⟨⌊n * 10 ^ 8 + 1 / 2⌋, .inr ⟨?_, ?_⟩⟩ <;> linarith

/-- In range the text is off from what was typed by at most half a unit unless a midpoint lies
between that and its double. -/
theorem close_iff (hi : i.denoted = some x) (hlow : 0 ≤ x) (hhigh : x ≤ 10 ^ 12 - 1 / 10 ^ 8) :
    (∀ v, Reads (Encoding.toDecimalString i) v → |v - x| ≤ 1 / 2 / 10 ^ 8) ↔
      ¬ MidpointBetween x (nearest x) := by
  have hpos := nearest_nonneg hlow
  have hle : nearest x ≤ maxDecimal20_8 := by
    have hmono := nearest_mono (hhigh.trans (by norm_num : _ ≤ (99999999999999999999 : ℚ) / 10 ^ 8))
    rw [show nearest (99999999999999999999 / 10 ^ 8) = maxDecimal20_8 from maxDecimal_eq] at hmono
    exact hmono
  have hread : readDouble x = nearest x := by
    have hfinite : |nearest x| < 2 ^ 1024 := by
      rw [abs_of_nonneg hpos]
      exact lt_two_pow_of_le (hle.trans (by unfold maxDecimal20_8; norm_num))
    unfold readDouble toDouble
    rw [dif_pos hfinite]
    rfl
  have hvalue : ∀ v, Reads (Encoding.toDecimalString i) v ↔ v = column.fix (nearest x) := by
    intro v
    rw [reads_toDecimalString_iff hi, hread, toDecimalString_eq hpos hle]
  rw [← abs_fix_sub_le_iff hpos]
  constructor
  · intro h
    exact h _ ((hvalue _).mpr rfl)
  · intro h v hv
    rw [(hvalue v).mp hv]
    exact h

/-! ## Signed numbers -/

theorem signedDec8_eq_text (d : Double) : Encoding.signedDec8 (.finite d) =
    String.ofList (trimmed (toFixed8 (max (-maxDecimal20_8) (min maxDecimal20_8 d.value)))) := by
  unfold Encoding.signedDec8
  dsimp only
  rw [maxDecimal_eq]
  rfl

theorem reads_signedDec8_iff :
    Reads (Encoding.signedDec8 (.finite d)) v ↔ v = Wallet.signedDec8 d.value := by
  rw [signedDec8_eq_text, reads_toFixed8_iff]
  rfl

theorem fitsColumn_signedDec8_iff :
    FitsColumn true (Encoding.signedDec8 (.finite d)) ↔ |Wallet.signedDec8 d.value| < 10 ^ 12 := by
  rw [signedDec8_eq_text, fitsColumn_toFixed8_iff]
  exact and_iff_right fun _ => rfl

theorem signedDec8_of_le (h : |d.value| ≤ maxDecimal20_8) :
    Wallet.signedDec8 d.value = column.fix d.value := by
  obtain ⟨hlow, hhigh⟩ := abs_le.mp h
  unfold Wallet.signedDec8
  rw [min_eq_right hhigh, max_eq_right hlow]

/-- From the clamp on, in both directions, what is stored is the clamp. -/
theorem abs_signedDec8_of_le (h : maxDecimal20_8 ≤ |d.value|) :
    |Wallet.signedDec8 d.value| = maxDecimal20_8 := by
  have hpos : (0 : ℚ) < maxDecimal20_8 := by
    unfold maxDecimal20_8
    norm_num
  have hneg : -maxDecimal20_8 ≤ maxDecimal20_8 := by linarith
  unfold Wallet.signedDec8
  rcases le_abs.mp h with hlarge | hsmall
  · rw [min_eq_left hlarge, max_eq_right hneg, fix_maxDecimal, abs_of_pos hpos]
  · have hle : d.value ≤ -maxDecimal20_8 := by linarith
    rw [min_eq_right (hle.trans hneg), max_eq_left hle, column.fix_neg, fix_maxDecimal, abs_neg,
      abs_of_pos hpos]

/-- A double below the power is one of those that stay below it. -/
theorem abs_le_of_lt (h : |d.value| < 10 ^ 12) : |d.value| ≤ 10 ^ 12 - 1 / 2 ^ 13 := by
  have hbelow : ∀ q : ℚ, Representable q → q < 10 ^ 12 → q ≤ 10 ^ 12 - 1 / 2 ^ 13 := by
    intro q hq hlt
    have hself := nearest_eq_self hq
    by_contra hnot
    have hmid : lastMidpoint ≤ q := by
      by_contra hmid
      have hle := nearest_le_of_lt (not_le.mp hmid)
      rw [hself] at hle
      exact hnot hle
    have hge := le_nearest_of_le hmid
    rw [hself] at hge
    exact absurd hlt (not_lt.mpr hge)
  obtain ⟨hlow, hhigh⟩ := abs_lt.mp h
  rw [abs_le]
  constructor
  · have hneg : Representable (-d.value) := by
      obtain ⟨m, e, hm, he, hvalue⟩ := d.representable
      refine ⟨-m, e, by rwa [abs_neg], he, ?_⟩
      rw [hvalue]
      push_cast
      ring
    linarith [hbelow _ hneg (by linarith)]
  · exact hbelow _ d.representable hhigh

/-- The same for a number that keeps its sign. -/
structure EncodesSigned (d : Double) : Prop where
  fits : FitsColumn true (Encoding.signedDec8 (.finite d))
  mono : ∀ (e : Double) (u v : ℚ), e.value ≤ d.value →
    Reads (Encoding.signedDec8 (.finite e)) u → Reads (Encoding.signedDec8 (.finite d)) v → u ≤ v
  close : ∀ v, |d.value| ≤ 10 ^ 12 - 1 / 10 ^ 8 → Reads (Encoding.signedDec8 (.finite d)) v →
    |v - d.value| ≤ 1 / 2 / 10 ^ 8

theorem encodesSigned_iff : EncodesSigned d ↔ |d.value| < 10 ^ 12 := by
  constructor
  · intro h
    have hfits := fitsColumn_signedDec8_iff.mp h.fits
    by_contra hlarge
    rw [abs_signedDec8_of_le (not_lt.mp hlarge)] at hfits
    exact lt_irrefl _ hfits
  · intro h
    refine ⟨?_, ?_, ?_⟩
    · rw [fitsColumn_signedDec8_iff, signedDec8_of_le h.le]
      exact abs_fix_lt (abs_le_of_lt h)
    · intro e u v hle hu hv
      rw [reads_signedDec8_iff] at hu hv
      rw [hu, hv]
      unfold Wallet.signedDec8
      exact column.mono (max_le_max_left _ (min_le_min_left _ hle))
    · intro v hrange hv
      rw [reads_signedDec8_iff, signedDec8_of_le h.le] at hv
      rw [hv]
      exact Numeric.abs_decimal_fix_sub_le 12 8 d.value

end

/-! ## When the encodings fit -/

/-- For every number and every numeric text: the encoding does its work exactly below the midpoint
under `10 ^ 12`, and `signedDec8` does exactly below `10 ^ 12` in magnitude.  Measured against the
digits of a text, it is as near as it can be unless a midpoint intervenes. -/
theorem encoding_iff (i : Input) (x : ℚ) (d : Double) :
    (i.denoted = some x → (Encodes i x ↔ x < 10 ^ 12 - 1 / 2 ^ 14)) ∧
      (i.denoted = some x → 0 ≤ x → x ≤ 10 ^ 12 - 1 / 10 ^ 8 →
        ((∀ v, Reads (Encoding.toDecimalString i) v → |v - x| ≤ 1 / 2 / 10 ^ 8) ↔
          ¬ MidpointBetween x (nearest x))) ∧
      (EncodesSigned d ↔ |d.value| < 10 ^ 12) := by
  refine ⟨fun hi => ?_, fun hi hlow hhigh => close_iff hi hlow hhigh, encodesSigned_iff⟩
  constructor
  · intro h
    by_contra hle
    exact not_encodes_of_le hi (not_lt.mp hle) h
  · exact encodes_of_lt hi

/-- Every number and every numeric text is encoded so that the column takes it. -/
def AlwaysEncodes : Prop := ∀ (i : Input) (x : ℚ), i.denoted = some x → Encodes i x

/-- The number `10 ^ 12`. -/
def trillion : Double :=
  ⟨10 ^ 12, ⟨5 ^ 12, 12, by norm_num, by norm_num, by norm_num⟩, by
    rw [abs_of_pos (by norm_num)]
    exact lt_two_pow_of_le (by norm_num)⟩

/-- Its text has thirteen digits before the point. -/
theorem not_alwaysEncodes : ¬ AlwaysEncodes := by
  intro halways
  refine not_encodes_of_le (i := .number (.finite trillion)) rfl ?_ (halways _ _ rfl)
  unfold lastMidpoint
  show _ ≤ (10 ^ 12 : ℚ)
  norm_num

end Neonfi.Wallet.Encoding

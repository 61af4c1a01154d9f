import Neonfi.Lib.DecimalText
import Neonfi.Webhooks.Payload

/-!
# The texts of the converted amounts

`convertWeiToEther` and `convertTokenAmount` of `moralis.private.ts` on texts: an integer of smallest
units becomes the decimal text of its value, by division, padding and trimming.  A `BigInt` is
unbounded.  Elsewhere an amount is the number its text is worth.
-/

namespace Neonfi.Webhooks.Units

open Lib
open Ledger (Js digits? isJsSpace)

/-! ## The conversions -/

def safeBigInt (str : String) : Option ℕ := digits? str.toList

/-- `whole.toString()` or `${whole}.${decStr}`, the same in both conversions. -/
def unitsText (decimals raw : ℕ) : List Char :=
  let divisor := 10 ^ decimals
  let whole := raw / divisor
  let remainder := raw % divisor
  if remainder = 0 then Nat.toDigits 10 whole
  else
    let decStr := trimZeros (padStart decimals (Nat.toDigits 10 remainder))
    Nat.toDigits 10 whole ++ '.' :: decStr

def convertWeiToEther (weiStr : String) : Option String :=
  if weiStr = "" ∨ weiStr = "0" then some "0"
  else (safeBigInt weiStr).map fun wei => String.ofList (unitsText 18 wei)

def convertTokenAmount (valueStr decimalsStr : String) : Option String :=
  if valueStr = "" ∨ valueStr = "0" then some "0"
  else
    match (parseInt (if decimalsStr = "" then "18" else decimalsStr)).filter inDecimalsRange with
    | none => none
    | some decimals =>
        (safeBigInt valueStr).map fun raw => String.ofList (unitsText decimals.toNat raw)

/-- The division leaves the canonical text of the value. -/
theorem unitsText_eq (decimals raw : ℕ) :
    unitsText decimals raw = (DecimalText.ofScaled decimals raw).toList := by
  unfold unitsText DecimalText.toList
  by_cases hzero : raw % 10 ^ decimals = 0
  · rw [if_pos (DecimalText.frac_ofScaled_eq_nil_iff.mpr hzero)]
    dsimp only
    rw [if_pos hzero]
    rfl
  · rw [if_neg fun h => hzero (DecimalText.frac_ofScaled_eq_nil_iff.mp h)]
    dsimp only
    rw [if_neg hzero]
    rfl

/-- The early answer for no units is the general one. -/
theorem unitsText_zero (decimals : ℕ) : unitsText decimals 0 = ['0'] := by
  unfold unitsText
  dsimp only
  rw [Nat.zero_mod, if_pos rfl, Nat.zero_div, Nat.toDigits_zero]

/-! ## Reading digits -/

section

variable {v decimalsStr : String} {n d : ℕ}

theorem digits_spec (h : digits? v.toList = some n) :
    v.toList ≠ [] ∧ (∀ c ∈ v.toList, c.isDigit) := by
  unfold digits? at h
  split at h
  · next hdigits => exact ⟨hdigits.1, List.all_eq_true.mp hdigits.2⟩
  · cases h

theorem not_isJsSpace_of_isDigit {c : Char} (h : c.isDigit) : isJsSpace c = false := by
  have hrange : 48 ≤ c.toNat ∧ c.toNat ≤ 57 := Char.isDigit_iff_toNat.mp h
  unfold isJsSpace
  simp only [Bool.or_eq_false_iff, Bool.and_eq_false_iff, decide_eq_false_iff_not]
  omega

/-- Digits are read whole. -/
theorem parseInt_of_digits (h : digits? v.toList = some n) : parseInt v = some (n : ℤ) := by
  obtain ⟨hne, hdigits⟩ := digits_spec h
  obtain ⟨c, cs, hcs⟩ := List.exists_cons_of_ne_nil hne
  have hc : c.isDigit := hdigits c (by rw [hcs]; exact List.mem_cons_self)
  have hspace : v.toList.dropWhile isJsSpace = c :: cs := by
    rw [hcs, List.dropWhile_cons_of_neg]
    rw [not_isJsSpace_of_isDigit hc]
    decide
  have htake : (c :: cs).takeWhile Char.isDigit = c :: cs := by
    rw [List.takeWhile_eq_self_iff, ← hcs]
    exact hdigits
  unfold parseInt
  dsimp only
  rw [hspace]
  split
  · next hsign =>
      rw [(List.cons.inj hsign).1] at hc
      cases hc
  · next hsign =>
      rw [(List.cons.inj hsign).1] at hc
      cases hc
  · rw [htake, ← hcs, h]
    rfl

/-- What the conversion returns for digits. -/
theorem convertTokenAmount_of_digits (hv : digits? v.toList = some n)
    (hd : digits? decimalsStr.toList = some d) (hle : d ≤ 36) :
    convertTokenAmount v decimalsStr = some (String.ofList (unitsText d n)) := by
  have hne : v ≠ "" := by
    rintro rfl
    exact (digits_spec hv).1 rfl
  have hdne : decimalsStr ≠ "" := by
    rintro rfl
    exact (digits_spec hd).1 rfl
  have hrange : inDecimalsRange (d : ℤ) = true := by
    unfold inDecimalsRange maxTokenDecimals
    simp
    omega
  unfold convertTokenAmount
  split
  · next hzero =>
      have hv0 : v = "0" := hzero.resolve_left hne
      subst hv0
      have hn : n = 0 := (Option.some.inj hv).symm
      rw [hn, unitsText_zero]
  · rw [parseInt_of_digits hd, Option.filter_some_pos hrange]
    unfold safeBigInt
    rw [hv]
    rfl

end

/-! ## The conversion is exact -/

/-- What `convertTokenAmount` does on every text. -/
structure ExactConversion : Prop where
  /-- The text is canonical and worth the units over their scale. -/
  exact : ∀ (v decimalsStr : String) (n d : ℕ), digits? v.toList = some n →
    digits? decimalsStr.toList = some d → d ≤ 36 →
      ∃ t : DecimalText, convertTokenAmount v decimalsStr = some (String.ofList t.toList) ∧
        t.value * 10 ^ d = n
  distinct : ∀ (v w decimalsStr : String) (n m d : ℕ), digits? v.toList = some n →
    digits? w.toList = some m → digits? decimalsStr.toList = some d → d ≤ 36 → n ≠ m →
      convertTokenAmount v decimalsStr ≠ convertTokenAmount w decimalsStr
  malformed : ∀ v decimalsStr : String, v ≠ "" → digits? v.toList = none →
    convertTokenAmount v decimalsStr = none
  ether : ∀ v decimalsStr : String, digits? decimalsStr.toList = some 18 →
    convertTokenAmount v decimalsStr = convertWeiToEther v

theorem exact_of_digits {v decimalsStr : String} {n d : ℕ} (hv : digits? v.toList = some n)
    (hd : digits? decimalsStr.toList = some d) (hle : d ≤ 36) :
    ∃ t : DecimalText, convertTokenAmount v decimalsStr = some (String.ofList t.toList) ∧
      t.value * 10 ^ d = n := by
  refine ⟨DecimalText.ofScaled d n, ?_, ?_⟩
  · rw [convertTokenAmount_of_digits hv hd hle, unitsText_eq]
  · rw [DecimalText.value_ofScaled]
    field_simp

/-- Every amount of any length is converted without loss. -/
theorem exactConversion : ExactConversion where
  exact _ _ _ _ hv hd hle := exact_of_digits hv hd hle
  distinct := by
    intro v w decimalsStr n m d hv hw hd hle hne heq
    obtain ⟨s, hs, hsvalue⟩ := exact_of_digits hv hd hle
    obtain ⟨t, ht, htvalue⟩ := exact_of_digits hw hd hle
    rw [hs, ht] at heq
    have hlist : s.toList = t.toList := String.ofList_injective (Option.some.inj heq)
    have hst : s = t := DecimalText.toList_injective hlist
    have hnm : (n : ℚ) = m := by rw [← hsvalue, ← htvalue, hst]
    exact hne (by exact_mod_cast hnm)
  malformed := by
    intro v decimalsStr hne hdigits
    have hzero : v ≠ "0" := by
      rintro rfl
      cases hdigits
    unfold convertTokenAmount
    rw [if_neg (not_or.mpr ⟨hne, hzero⟩)]
    cases (parseInt (if decimalsStr = "" then "18" else decimalsStr)).filter inDecimalsRange with
    | none => rfl
    | some decimals =>
        unfold safeBigInt
        rw [hdigits]
        rfl
  ether := by
    intro v decimalsStr hd
    have hdne : decimalsStr ≠ "" := by
      rintro rfl
      exact (digits_spec hd).1 rfl
    unfold convertTokenAmount convertWeiToEther
    rw [if_neg hdne, parseInt_of_digits hd]
    rfl

/-! ## The numbers of the amounts -/

/-- A text shows a number, and null shows none. -/
def Shows : Option String → Option ℚ → Prop
  | none, none => True
  | some text, some q => ∃ t : DecimalText, text = String.ofList t.toList ∧ t.value = q
  | _, _ => False

theorem shows_zero : Shows (some "0") (some 0) := by
  refine ⟨DecimalText.ofScaled 0 0, ?_, ?_⟩
  · rw [← unitsText_eq, unitsText_zero]
  · rw [DecimalText.value_ofScaled]
    simp

theorem shows_units (units : Option ℕ) (decimals : ℕ) :
    Shows (units.map fun raw => String.ofList (unitsText decimals raw))
      (units.map fun raw : ℕ => (raw : ℚ) / 10 ^ decimals) := by
  cases units with
  | none => trivial
  | some raw =>
      refine ⟨DecimalText.ofScaled decimals raw, ?_, DecimalText.value_ofScaled⟩
      dsimp only
      rw [unitsText_eq]

theorem isZeroText_string (v : String) : isZeroText (.string v) = true ↔ v = "" ∨ v = "0" := by
  simp [isZeroText, JsonValue.truthy, JsonValue.text?]

theorem safeBigInt_string (js : Js) (v : String) :
    Webhooks.safeBigInt js (.string v) = .ok (safeBigInt v) := by
  unfold Webhooks.safeBigInt safeBigInt
  have hraw : (digits? v.toList).bind (bigInt (.string v)) = digits? v.toList := by
    cases digits? v.toList <;> rfl
  simp only [JsonValue.toText, Ledger.require]
  exact congrArg Except.ok hraw

/-- The amounts of the deliveries are the numbers that the texts show. -/
theorem shows_convertTokenAmount (js : Js) (v decimalsStr : String) :
    ∃ q, Webhooks.convertTokenAmount js (.string v) (.string decimalsStr) = .ok q ∧
      Shows (convertTokenAmount v decimalsStr) q := by
  unfold Webhooks.convertTokenAmount convertTokenAmount
  by_cases hzero : v = "" ∨ v = "0"
  · rw [if_pos hzero, if_pos ((isZeroText_string v).mpr hzero)]
    exact ⟨some 0, rfl, shows_zero⟩
  · have htext : (if (JsonValue.string decimalsStr).truthy then JsonValue.string decimalsStr
        else JsonValue.string "18").toText js =
          some (if decimalsStr = "" then "18" else decimalsStr) := by
      by_cases hempty : decimalsStr = ""
      · subst hempty
        rfl
      · rw [if_neg hempty, if_pos (by simpa [JsonValue.truthy] using hempty)]
        rfl
    rw [if_neg hzero, if_neg (mt (isZeroText_string v).mp hzero), safeBigInt_string, htext]
    dsimp only [Ledger.require, bind, Except.bind]
    cases (parseInt (if decimalsStr = "" then "18" else decimalsStr)).filter
        inDecimalsRange with
    | none => exact ⟨none, rfl, trivial⟩
    | some decimals => exact ⟨_, rfl, shows_units _ decimals.toNat⟩

theorem shows_convertWeiToEther (js : Js) (weiStr : String) :
    ∃ q, Webhooks.convertWeiToEther js (.string weiStr) = .ok q ∧
      Shows (convertWeiToEther weiStr) q := by
  unfold Webhooks.convertWeiToEther convertWeiToEther
  by_cases hzero : weiStr = "" ∨ weiStr = "0"
  · rw [if_pos hzero, if_pos ((isZeroText_string weiStr).mpr hzero)]
    exact ⟨some 0, rfl, shows_zero⟩
  · rw [if_neg hzero, if_neg (mt (isZeroText_string weiStr).mp hzero), safeBigInt_string]
    exact ⟨_, rfl, shows_units _ 18⟩

end Neonfi.Webhooks.Units

import Mathlib.Data.Char
import Mathlib.Data.List.Basic

/-!
# Letter case

Case mappings of whole texts.  A character may have a longer upper case; what a character becomes
in lower case may also depend on the text around it.  Of the tables of characters only this is
used: what is upper case stays as it is, and an ASCII letter becomes its ASCII lower case.
-/

namespace Lib

/-- Upper-casing, character by character. -/
structure UpperCase where
  upper : Char → List Char
  upper_upper : ∀ c, ∀ d ∈ upper c, upper d = [d]

/-- Lower-casing of a character between the text before it and the text behind it. -/
structure LowerCase where
  lower : List Char → Char → List Char → List Char
  lower_ascii : ∀ before c after, c.toNat < 128 → lower before c after = [c.toLower]

namespace UpperCase

variable (U : UpperCase) {s t : String}

def toUpperCase (s : String) : String := String.ofList (s.toList.flatMap U.upper)

/-- A text of upper-case characters is its own upper case. -/
theorem toUpperCase_of_subset (h : t.toList ⊆ (U.toUpperCase s).toList) :
    U.toUpperCase t = t := by
  have hfixed : ∀ d ∈ t.toList, U.upper d = [d] := by
    intro d hd
    have hmem := h hd
    unfold toUpperCase at hmem
    rw [String.toList_ofList] at hmem
    obtain ⟨c, -, hc⟩ := List.mem_flatMap.mp hmem
    exact U.upper_upper c d hc
  have hflat : ∀ cs : List Char, (∀ d ∈ cs, U.upper d = [d]) → cs.flatMap U.upper = cs := by
    intro cs hcs
    induction cs with
    | nil => rfl
    | cons c cs ih =>
        rw [List.flatMap_cons, hcs c List.mem_cons_self,
          ih fun d hd => hcs d (List.mem_cons_of_mem c hd)]
        rfl
  unfold toUpperCase
  rw [hflat t.toList hfixed, String.ofList_toList]

theorem toUpper_toUpper (c : Char) : c.toUpper.toUpper = c.toUpper := by
  unfold Char.toUpper
  split
  · next h =>
      refine dif_neg fun hagain => ?_
      have hlow := UInt32.le_iff_toNat_le.mp h.1
      have hhigh := UInt32.le_iff_toNat_le.mp h.2
      have hagain' := UInt32.le_iff_toNat_le.mp hagain.1
      rw [UInt32.toNat_add] at hagain'
      have ha : 'a'.val.toNat = 97 := rfl
      have hz : 'z'.val.toNat = 122 := rfl
      have hshift : ('A'.val - 'a'.val).toNat = 2 ^ 32 - 32 := rfl
      omega
  · rfl

/-- Only ASCII letters have an upper case. -/
def ascii : UpperCase where
  upper c := [c.toUpper]
  upper_upper c d hd := by
    rw [List.mem_singleton.mp hd, toUpper_toUpper]

end UpperCase

namespace LowerCase

variable (L : LowerCase) {s : String}

/-- `before` is the text that has been passed. -/
def lowerFrom (before : List Char) : List Char → List Char
  | [] => []
  | c :: cs => L.lower before c cs ++ lowerFrom (before ++ [c]) cs

def toLowerCase (s : String) : String := String.ofList (L.lowerFrom [] s.toList)

theorem lowerFrom_eq_self {cs : List Char} (h : ∀ c ∈ cs, c.toNat < 128 ∧ c.toLower = c)
    (before : List Char) : L.lowerFrom before cs = cs := by
  induction cs generalizing before with
  | nil => rfl
  | cons c cs ih =>
      obtain ⟨hascii, hlower⟩ := h c List.mem_cons_self
      rw [lowerFrom, L.lower_ascii before c cs hascii, hlower,
        ih fun d hd => h d (List.mem_cons_of_mem c hd)]
      rfl

/-- An ASCII text without capital letters is its own lower case. -/
theorem toLowerCase_eq_self (h : ∀ c ∈ s.toList, c.toNat < 128 ∧ c.toLower = c) :
    L.toLowerCase s = s := by
  unfold toLowerCase
  rw [L.lowerFrom_eq_self h, String.ofList_toList]

/-- Only ASCII letters have a lower case. -/
def ascii : LowerCase where
  lower _ c _ := [c.toLower]
  lower_ascii _ _ _ _ := rfl

end LowerCase

end Lib

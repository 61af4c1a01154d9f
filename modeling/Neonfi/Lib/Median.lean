import Mathlib.Algebra.Order.Field.Basic
import Mathlib.Data.List.GetD
import Mathlib.Data.List.Sort
import Mathlib.Tactic.Linarith

/-!
# Medians

The median of a list: the middle entry of the sorted list, the mean of the two middle
entries when their number is even.  An interval that holds a strict majority of the entries
holds the median.
-/

namespace Lib

section Sorted

variable {α : Type*} [LinearOrder α] {xs : List α} {a b : α} {i : ℕ}

/-- In a sorted list the entries that are at least `a` are the last ones. -/
theorem le_getElem_of_countP (hsorted : xs.Pairwise (· ≤ ·)) (hi : i < xs.length)
    (hcount : xs.length - i ≤ xs.countP fun x => decide (a ≤ x)) : a ≤ xs[i] := by
  by_contra hlt
  push Not at hlt
  have hfront : (xs.take (i + 1)).countP (fun x => decide (a ≤ x)) = 0 := by
    rw [List.countP_eq_zero]
    intro x hx
    obtain ⟨j, hj, rfl⟩ := List.mem_take_iff_getElem.mp hx
    have hji : j ≤ i := by omega
    have hle : xs[j] ≤ xs[i] := by
      rcases hji.eq_or_lt with rfl | hlt
      · exact le_rfl
      · exact List.pairwise_iff_getElem.mp hsorted j i (by omega) hi hlt
    simpa using hle.trans_lt hlt
  have hback : (xs.drop (i + 1)).countP (fun x => decide (a ≤ x)) ≤ xs.length - (i + 1) := by
    rw [← List.length_drop]
    exact List.countP_le_length
  have hsplit : xs.countP (fun x => decide (a ≤ x)) =
      (xs.take (i + 1)).countP (fun x => decide (a ≤ x)) +
        (xs.drop (i + 1)).countP fun x => decide (a ≤ x) := by
    rw [← List.countP_append, List.take_append_drop]
  omega

/-- In a sorted list the entries that are at most `b` are the first ones. -/
theorem getElem_le_of_countP (hsorted : xs.Pairwise (· ≤ ·)) (hi : i < xs.length)
    (hcount : i < xs.countP fun x => decide (x ≤ b)) : xs[i] ≤ b := by
  by_contra hlt
  push Not at hlt
  have hback : (xs.drop i).countP (fun x => decide (x ≤ b)) = 0 := by
    rw [List.countP_eq_zero]
    intro x hx
    obtain ⟨j, hj, rfl⟩ := List.mem_drop_iff_getElem.mp hx
    have hle : xs[i] ≤ xs[i + j] := by
      rcases Nat.eq_zero_or_pos j with rfl | hpos
      · exact le_rfl
      · exact List.pairwise_iff_getElem.mp hsorted i (i + j) hi (by omega) (by omega)
    simpa using hlt.trans_le hle
  have hfront : (xs.take i).countP (fun x => decide (x ≤ b)) ≤ i := by
    have hle := List.countP_le_length (p := fun x => decide (x ≤ b)) (l := xs.take i)
    rw [List.length_take] at hle
    omega
  have hsplit : xs.countP (fun x => decide (x ≤ b)) =
      (xs.take i).countP (fun x => decide (x ≤ b)) +
        (xs.drop i).countP fun x => decide (x ≤ b) := by
    rw [← List.countP_append, List.take_append_drop]
  omega

end Sorted

variable {α : Type*} [Field α] [LinearOrder α] [IsStrictOrderedRing α]

/-- The middle of a sorted list; `0` for the empty list. -/
def middle (xs : List α) : α :=
  let mid := xs.length / 2
  if xs.length % 2 = 1 then xs.getD mid 0 else (xs.getD (mid - 1) 0 + xs.getD mid 0) / 2

def median (xs : List α) : α := middle (xs.insertionSort (· ≤ ·))

variable {xs : List α} {a b : α}

theorem middle_mem_of_majority (hsorted : xs.Pairwise (· ≤ ·))
    (hmajority : xs.length < 2 * xs.countP fun x => decide (a ≤ x ∧ x ≤ b)) :
    a ≤ middle xs ∧ middle xs ≤ b := by
  have hlow : xs.countP (fun x => decide (a ≤ x ∧ x ≤ b)) ≤
      xs.countP fun x => decide (a ≤ x) :=
    List.countP_mono_left fun x _ h => by
      rw [decide_eq_true_eq] at h ⊢
      exact h.1
  have hhigh : xs.countP (fun x => decide (a ≤ x ∧ x ≤ b)) ≤
      xs.countP fun x => decide (x ≤ b) :=
    List.countP_mono_left fun x _ h => by
      rw [decide_eq_true_eq] at h ⊢
      exact h.2
  have hle := List.countP_le_length (p := fun x => decide (a ≤ x ∧ x ≤ b)) (l := xs)
  -- the entries with as many before as behind, at most one apart
  have hentry : ∀ i, i < xs.length → xs.length ≤ 2 * i + 2 → 2 * i ≤ xs.length →
      a ≤ xs.getD i 0 ∧ xs.getD i 0 ≤ b := by
    intro i hi hbefore hbehind
    rw [List.getD_eq_getElem xs 0 hi]
    exact ⟨le_getElem_of_countP hsorted hi (by omega),
      getElem_le_of_countP hsorted hi (by omega)⟩
  unfold middle
  dsimp only
  split
  · exact hentry _ (by omega) (by omega) (by omega)
  · obtain ⟨hlo₁, hhi₁⟩ := hentry (xs.length / 2 - 1) (by omega) (by omega) (by omega)
    obtain ⟨hlo₂, hhi₂⟩ := hentry (xs.length / 2) (by omega) (by omega) (by omega)
    constructor <;> linarith

/-- An interval with a strict majority of the entries holds the median. -/
theorem median_mem_of_majority
    (hmajority : xs.length < 2 * xs.countP fun x => decide (a ≤ x ∧ x ≤ b)) :
    a ≤ median xs ∧ median xs ≤ b := by
  have hperm := List.perm_insertionSort (· ≤ ·) xs
  refine middle_mem_of_majority (List.pairwise_insertionSort _ xs) ?_
  rw [hperm.length_eq, hperm.countP_eq]
  exact hmajority

omit [IsStrictOrderedRing α] in
/-- The median of an odd number of entries is one of them. -/
theorem median_mem (hodd : xs.length % 2 = 1) : median xs ∈ xs := by
  have hlength : (xs.insertionSort (· ≤ ·)).length = xs.length := List.length_insertionSort _ xs
  rw [← List.mem_insertionSort (· ≤ ·)]
  unfold median middle
  dsimp only
  rw [if_pos (by omega), List.getD_eq_getElem _ _ (by omega)]
  exact List.getElem_mem _

end Lib

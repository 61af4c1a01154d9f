import Mathlib.Data.List.Basic

/-!
# Slices of a list

The loop `for (i = 0; i < n; i += size)` over the slices of a list: none is empty or longer than
`size`, and together they are the list.
-/

namespace Lib

variable {α : Type*}

/-- The slices from index `i` on; the fuel bounds the number of turns. -/
def slicesFrom (size : ℕ) (xs : List α) : ℕ → ℕ → List (List α)
  | 0, _ => []
  | fuel + 1, i =>
      if i < xs.length then (xs.drop i).take size :: slicesFrom size xs fuel (i + size) else []

/-- The slices of a list; a turn for every element is enough. -/
def slices (size : ℕ) (xs : List α) : List (List α) := slicesFrom size xs xs.length 0

section Slices

variable {size : ℕ} {xs : List α}

theorem flatten_slicesFrom (hsize : 0 < size) {fuel i : ℕ} (hfuel : xs.length ≤ i + fuel) :
    (slicesFrom size xs fuel i).flatten = xs.drop i := by
  induction fuel generalizing i with
  | zero =>
      rw [slicesFrom, List.flatten_nil, List.drop_eq_nil_of_le (by omega)]
  | succ fuel ih =>
      rw [slicesFrom]
      split
      · rw [List.flatten_cons, ih (by omega), ← List.drop_drop, List.take_append_drop]
      · next hdone => rw [List.flatten_nil, List.drop_eq_nil_of_le (by omega)]

theorem flatten_slices (hsize : 0 < size) : (slices size xs).flatten = xs := by
  have h : (slicesFrom size xs xs.length 0).flatten = xs.drop 0 :=
    flatten_slicesFrom hsize (by omega)
  rwa [List.drop_zero] at h

theorem of_mem_slicesFrom (hsize : 0 < size) {fuel i : ℕ} {slice : List α}
    (h : slice ∈ slicesFrom size xs fuel i) : slice ≠ [] ∧ slice.length ≤ size := by
  induction fuel generalizing i with
  | zero => cases h
  | succ fuel ih =>
      rw [slicesFrom] at h
      split at h
      · next hlt =>
          rcases List.mem_cons.mp h with rfl | h
          · refine ⟨fun hnil => ?_, List.length_take_le _ _⟩
            have hlen := congrArg List.length hnil
            rw [List.length_take, List.length_drop, List.length_nil] at hlen
            omega
          · exact ih h
      · cases h

theorem of_mem_slices (hsize : 0 < size) {slice : List α} (h : slice ∈ slices size xs) :
    slice ≠ [] ∧ slice.length ≤ size := of_mem_slicesFrom hsize h

end Slices

end Lib

import Mathlib.Data.List.Basic

/-!
# First come, first served

Items claim a key when they are taken in, and an item whose key is already claimed is left
out.  An item may come without a key; it is always taken in.
-/

namespace Lib

variable {α κ : Type} [DecidableEq κ] (key : α → Option κ)

/-- The items that are taken in, in order, once `claimed` are gone. -/
def firstClaims (claimed : List κ) : List α → List α
  | [] => []
  | x :: xs =>
      match key x with
      | none => x :: firstClaims claimed xs
      | some k => if k ∈ claimed then firstClaims claimed xs else x :: firstClaims (k :: claimed) xs

section

variable {key} {claimed : List κ} {x : α} {xs : List α} {k : κ}

@[simp] theorem firstClaims_nil : firstClaims key claimed [] = [] := rfl

theorem firstClaims_cons_keyless (h : key x = none) :
    firstClaims key claimed (x :: xs) = x :: firstClaims key claimed xs := by
  simp only [firstClaims, h]

theorem firstClaims_cons_taken (h : key x = some k) (hk : k ∈ claimed) :
    firstClaims key claimed (x :: xs) = firstClaims key claimed xs := by
  simp only [firstClaims, h, if_pos hk]

theorem firstClaims_cons_free (h : key x = some k) (hk : k ∉ claimed) :
    firstClaims key claimed (x :: xs) = x :: firstClaims key (k :: claimed) xs := by
  simp only [firstClaims, h, if_neg hk]

theorem firstClaims_cons_new (h : ∀ k, key x = some k → k ∉ claimed) :
    firstClaims key claimed (x :: xs) =
      x :: firstClaims key ((key x).toList ++ claimed) xs := by
  cases hkey : key x with
  | none => rw [firstClaims_cons_keyless hkey, Option.toList_none, List.nil_append]
  | some k =>
      rw [firstClaims_cons_free hkey (h k hkey), Option.toList_some, List.singleton_append]

/-- Only which keys are claimed matters. -/
theorem firstClaims_congr {claimed' : List κ} (h : ∀ k, k ∈ claimed ↔ k ∈ claimed') :
    firstClaims key claimed xs = firstClaims key claimed' xs := by
  induction xs generalizing claimed claimed' with
  | nil => rfl
  | cons x xs ih =>
      cases hkey : key x with
      | none => rw [firstClaims_cons_keyless hkey, firstClaims_cons_keyless hkey, ih h]
      | some k =>
          by_cases hk : k ∈ claimed
          · rw [firstClaims_cons_taken hkey hk, firstClaims_cons_taken hkey ((h k).mp hk), ih h]
          · have hk' : k ∉ claimed' := fun hmem => hk ((h k).mpr hmem)
            have htail : ∀ j, j ∈ k :: claimed ↔ j ∈ k :: claimed' := fun j => by simp [h j]
            rw [firstClaims_cons_free hkey hk, firstClaims_cons_free hkey hk', ih htail]

theorem firstClaims_sublist (xs : List α) (claimed : List κ) :
    (firstClaims key claimed xs).Sublist xs := by
  induction xs generalizing claimed with
  | nil => exact List.Sublist.slnil
  | cons x xs ih =>
      cases hkey : key x with
      | none =>
          rw [firstClaims_cons_keyless hkey]
          exact (ih claimed).cons_cons x
      | some k =>
          by_cases hk : k ∈ claimed
          · rw [firstClaims_cons_taken hkey hk]
            exact (ih claimed).cons x
          · rw [firstClaims_cons_free hkey hk]
            exact (ih (k :: claimed)).cons_cons x

/-- Nothing without a key is ever left out. -/
theorem filter_firstClaims (xs : List α) (claimed : List κ) :
    (firstClaims key claimed xs).filter (fun x => (key x).isNone) =
      xs.filter fun x => (key x).isNone := by
  induction xs generalizing claimed with
  | nil => rfl
  | cons x xs ih =>
      cases hkey : key x with
      | none => simp [firstClaims_cons_keyless hkey, hkey, ih]
      | some k =>
          by_cases hk : k ∈ claimed
          · simp [firstClaims_cons_taken hkey hk, hkey, ih]
          · simp [firstClaims_cons_free hkey hk, hkey, ih]

/-- A free key goes to the first item that asks for it. -/
theorem find?_firstClaims (xs : List α) (claimed : List κ) (k : κ) :
    (firstClaims key claimed xs).find? (fun x => key x = some k) =
      if k ∈ claimed then none else xs.find? fun x => key x = some k := by
  induction xs generalizing claimed with
  | nil => simp
  | cons x xs ih =>
      cases hkey : key x with
      | none => simp [firstClaims_cons_keyless hkey, hkey, ih]
      | some j =>
          by_cases hj : j ∈ claimed
          · rw [firstClaims_cons_taken hkey hj, ih]
            by_cases hk : k ∈ claimed
            · simp [hk]
            · have hne : j ≠ k := fun heq => hk (heq ▸ hj)
              simp [hk, hkey, hne]
          · rw [firstClaims_cons_free hkey hj]
            by_cases heq : j = k
            · subst heq
              simp [hj, hkey]
            · have hne : ¬ k = j := fun hkj => heq hkj.symm
              simp [hkey, heq, hne, ih]

/-- Whoever asks for a key, someone has it in the end. -/
theorem claimed_or_exists_firstClaims (hx : x ∈ xs) (h : key x = some k) :
    k ∈ claimed ∨ ∃ y ∈ firstClaims key claimed xs, key y = some k := by
  by_cases hk : k ∈ claimed
  · exact .inl hk
  · right
    have hfind := @find?_firstClaims _ _ _ key xs claimed k
    rw [if_neg hk] at hfind
    cases hfirst : xs.find? fun x => key x = some k with
    | none => simpa [h] using List.find?_eq_none.mp hfirst x hx
    | some y =>
        rw [hfirst] at hfind
        exact ⟨y, List.mem_of_find?_eq_some hfind, by simpa using List.find?_some hfind⟩

end

end Lib

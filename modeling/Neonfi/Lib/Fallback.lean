import Mathlib.Data.List.Basic

/-!
# Chains of sources

Sources are asked in order until one has data.  Without data, the chain may say that there is
nothing only if a source has said so and none has failed; everything else is unknown.
-/

namespace Lib

variable {α : Type*}

/-- What one source answers. -/
inductive Answer (α : Type*)
  | data (a : α)
  | empty
  | failed

namespace Answer

def data? : Answer α → Option α
  | data a => some a
  | _ => none

def isEmpty : Answer α → Bool
  | empty => true
  | _ => false

def isFailed : Answer α → Bool
  | failed => true
  | _ => false

end Answer

/-- The answer of the chain, after sources that said nothing or failed. -/
def verdictAfter (sawEmpty sawFailed : Bool) : List (Answer α) → Answer α
  | [] => if sawEmpty && !sawFailed then .empty else .failed
  | .data a :: _ => .data a
  | .empty :: answers => verdictAfter true sawFailed answers
  | .failed :: answers => verdictAfter sawEmpty true answers

def verdict (answers : List (Answer α)) : Answer α := verdictAfter false false answers

theorem verdictAfter_eq (sawEmpty sawFailed : Bool) (answers : List (Answer α)) :
    verdictAfter sawEmpty sawFailed answers =
      match answers.findSome? Answer.data? with
      | some a => .data a
      | none =>
          if (sawEmpty || answers.any Answer.isEmpty) &&
              !(sawFailed || answers.any Answer.isFailed) then .empty else .failed := by
  induction answers generalizing sawEmpty sawFailed with
  | nil => simp [verdictAfter]
  | cons x answers ih =>
      cases x with
      | data a => rfl
      | empty =>
          have hskip : (Answer.empty :: answers).findSome? Answer.data? =
              answers.findSome? Answer.data? := rfl
          rw [verdictAfter, ih, hskip]
          simp [Answer.isEmpty, Answer.isFailed]
      | failed =>
          have hskip : (Answer.failed :: answers).findSome? Answer.data? =
              answers.findSome? Answer.data? := rfl
          rw [verdictAfter, ih, hskip]
          simp [Answer.isEmpty, Answer.isFailed]

theorem verdict_eq_empty_iff {answers : List (Answer α)} :
    verdict answers = .empty ↔
      (∀ x ∈ answers, x.data? = none) ∧ (∃ x ∈ answers, x.isEmpty) ∧
        ∀ x ∈ answers, x.isFailed = false := by
  unfold verdict
  rw [verdictAfter_eq]
  cases hdata : answers.findSome? Answer.data? with
  | some a =>
      obtain ⟨x, hx, hxa⟩ := List.exists_of_findSome?_eq_some hdata
      constructor
      · intro h
        cases h
      · rintro ⟨hnone, -⟩
        rw [hnone x hx] at hxa
        cases hxa
  | none =>
      have hnone := List.findSome?_eq_none_iff.mp hdata
      have hany : (((false || answers.any Answer.isEmpty) &&
          !(false || answers.any Answer.isFailed)) = true) ↔
            (∃ x ∈ answers, x.isEmpty) ∧ ∀ x ∈ answers, x.isFailed = false := by
        simp
      dsimp only
      rw [← hany]
      constructor
      · intro h
        split at h
        · next htrue => exact ⟨hnone, htrue⟩
        · cases h
      · rintro ⟨-, htrue⟩
        rw [if_pos htrue]

/-- Without data, a failed source leaves the answer unknown. -/
theorem verdict_of_failed {answers : List (Answer α)} (hnone : ∀ x ∈ answers, x.data? = none)
    (hfailed : ∃ x ∈ answers, x.isFailed) : verdict answers = .failed := by
  obtain ⟨x, hx, hfailed⟩ := hfailed
  have hany : answers.any Answer.isFailed = true := List.any_eq_true.mpr ⟨x, hx, hfailed⟩
  unfold verdict
  rw [verdictAfter_eq, List.findSome?_eq_none_iff.mpr hnone, hany]
  simp

end Lib

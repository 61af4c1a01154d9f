import Mathlib.Data.List.Basic

/-!
# Runs of a labelled transition system

A run is a finite sequence of labelled steps.  `Run.invariant` is the induction
every safety result is an instance of; `Guarded` restricts a step relation to the
steps that satisfy a condition on the state before the step and its label.
-/

namespace Lib

variable {σ α : Type*}

/-- `Run step s as t`: the labels `as`, taken one after the other, lead from `s` to `t`. -/
inductive Run (step : σ → α → σ → Prop) : σ → List α → σ → Prop
  | nil (s : σ) : Run step s [] s
  | cons {s t u : σ} {a : α} {as : List α} :
      step s a t → Run step t as u → Run step s (a :: as) u

/-- The steps of `step` whose start state and label satisfy `ok`. -/
def Guarded (step : σ → α → σ → Prop) (ok : σ → α → Prop) (s : σ) (a : α) (t : σ) : Prop :=
  step s a t ∧ ok s a

namespace Run

variable {step : σ → α → σ → Prop}

/-- What every step preserves, every run preserves. -/
theorem invariant {I : σ → Prop} (hstep : ∀ s a t, I s → step s a t → I t)
    {s t : σ} {as : List α} (h : Run step s as t) (hs : I s) : I t := by
  induction h with
  | nil => exact hs
  | cons hst _ ih => exact ih (hstep _ _ _ hs hst)

/-- A run of a relation is a run of every larger one. -/
theorem mono {step' : σ → α → σ → Prop} (hsub : ∀ s a t, step s a t → step' s a t)
    {s t : σ} {as : List α} (h : Run step s as t) : Run step' s as t := by
  induction h with
  | nil => exact .nil _
  | cons hst _ ih => exact .cons (hsub _ _ _ hst) ih

theorem append {s t u : σ} {as bs : List α} (h₁ : Run step s as t) (h₂ : Run step t bs u) :
    Run step s (as ++ bs) u := by
  induction h₁ with
  | nil => exact h₂
  | cons hst _ ih => exact .cons hst (ih h₂)

/-- A run of the steps a map takes to steps is taken to a run. -/
theorem map {τ β : Type*} {step' : τ → β → τ → Prop} {view : σ → τ} {label : α → β}
    (hstep : ∀ s a t, step s a t → step' (view s) (label a) (view t)) {s t : σ} {as : List α}
    (h : Run step s as t) : Run step' (view s) (as.map label) (view t) := by
  induction h with
  | nil => exact .nil _
  | cons hst _ ih => exact .cons (hstep _ _ _ hst) ih

/-- Where one step keeps `P` exactly when its start and label satisfy `ok`, `P` holds all along a
run exactly when every step of the run does. -/
theorem keeping_iff {I P : σ → Prop} {ok : σ → α → Prop} (hI : ∀ s a t, I s → step s a t → I t)
    (hP : ∀ s a t, I s → P s → step s a t → (P t ↔ ok s a)) {s t : σ} {as : List α}
    (hIs : I s) (hPs : P s) :
    Run (fun s a t => step s a t ∧ P t) s as t ↔ Run (Guarded step ok) s as t := by
  constructor
  · intro h
    induction h with
    | nil => exact .nil _
    | cons hst _ ih =>
        have hok := (hP _ _ _ hIs hPs hst.1).mp hst.2
        exact .cons ⟨hst.1, hok⟩ (ih (hI _ _ _ hIs hst.1) hst.2)
  · intro h
    induction h with
    | nil => exact .nil _
    | cons hst _ ih =>
        have hPt := (hP _ _ _ hIs hPs hst.1).mpr hst.2
        exact .cons ⟨hst.1, hPt⟩ (ih (hI _ _ _ hIs hst.1) hPt)

end Run

/-! ## Steps that may fail -/

/-- The steps that succeed, taken in order, and where they lead; a step that fails is left out. -/
def tried (step : α → σ → Option σ) : List α → σ → List α × σ
  | [], s => ([], s)
  | a :: as, s =>
      match step a s with
      | none => tried step as s
      | some s => (a :: (tried step as s).1, (tried step as s).2)

theorem run_tried (step : α → σ → Option σ) (as : List α) (s : σ) :
    Run (fun s a t => step a s = some t) s (tried step as s).1 (tried step as s).2 := by
  induction as generalizing s with
  | nil => exact .nil _
  | cons a as ih =>
      rw [tried]
      cases hstep : step a s with
      | none => exact ih s
      | some t => exact .cons hstep (ih t)

theorem tried_snd (step : α → σ → Option σ) (as : List α) (s : σ) :
    (tried step as s).2 = as.foldl (fun s a => (step a s).getD s) s := by
  induction as generalizing s with
  | nil => rfl
  | cons a as ih =>
      rw [tried, List.foldl_cons]
      cases hstep : step a s with
      | none => exact ih s
      | some t => exact ih t

/-- A step that is only taken where a condition holds. -/
def checked (ok : σ → α → Prop) [∀ s a, Decidable (ok s a)] (step : α → σ → Option σ) (a : α)
    (s : σ) : Option σ :=
  if ok s a then step a s else none

theorem guarded_of_checked {ok : σ → α → Prop} [∀ s a, Decidable (ok s a)]
    {step : α → σ → Option σ} {s t : σ} {a : α} (h : checked ok step a s = some t) :
    Guarded (fun s a t => step a s = some t) ok s a t := by
  unfold checked at h
  split at h
  · next hok => exact ⟨h, hok⟩
  · cases h

theorem run_tried_checked (ok : σ → α → Prop) [∀ s a, Decidable (ok s a)]
    (step : α → σ → Option σ) (as : List α) (s : σ) :
    Run (Guarded (fun s a t => step a s = some t) ok) s (tried (checked ok step) as s).1
      (tried (checked ok step) as s).2 :=
  (run_tried (checked ok step) as s).mono fun _ _ _ => guarded_of_checked

/-- A fold of a partial step function that checks a condition first is a guarded run. -/
theorem run_of_foldlM {step : σ → α → Option σ} {ok : σ → α → Prop}
    [∀ s a, Decidable (ok s a)] {as : List α} {s t : σ}
    (h : as.foldlM (fun s a => if ok s a then step s a else none) s = some t) :
    Run (Guarded (fun s a t => step s a = some t) ok) s as t := by
  induction as generalizing s with
  | nil =>
      cases h
      exact .nil _
  | cons a as ih =>
      rw [List.foldlM_cons] at h
      obtain ⟨u, hfirst, hrest⟩ := Option.bind_eq_some_iff.mp h
      split at hfirst
      · next hok => exact .cons ⟨hfirst, hok⟩ (ih hrest)
      · cases hfirst

/-- What every step of a fallible fold preserves, the whole fold preserves. -/
theorem foldlM_ok_invariant {ε : Type*} {I : σ → Prop} {f : σ → α → Except ε σ} {xs : List α}
    (hstep : ∀ x ∈ xs, ∀ s t, I s → f s x = .ok t → I t) {s t : σ} (hs : I s)
    (h : xs.foldlM f s = .ok t) : I t := by
  induction xs generalizing s with
  | nil =>
      cases h
      exact hs
  | cons x xs ih =>
      rw [List.foldlM_cons] at h
      cases hfirst : f s x with
      | error e =>
          rw [hfirst] at h
          cases h
      | ok u =>
          rw [hfirst] at h
          exact ih (fun y hy => hstep y (List.mem_cons_of_mem x hy))
            (hstep x List.mem_cons_self s u hs hfirst) h

end Lib

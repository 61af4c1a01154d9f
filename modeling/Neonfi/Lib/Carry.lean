import Mathlib.Data.List.Forall2
import Mathlib.Order.Bounds.Basic
import Mathlib.Order.Cover

/-!
# Carrying the last known value

A value that is known on some dates only prevails until the next known date, and the oldest one
also before it.  A scan over consecutive dates carries the last value it has met: it gives each
date the prevailing one exactly when its start value prevails on the first date, or is not used
there.
-/

namespace Lib

variable {δ α : Type*} [LinearOrder δ] (known : δ → Option α)

/-- The value of the latest known date up to `d`, and if there is none that of the oldest. -/
def Prevails (d : δ) (v : α) : Prop :=
  ∃ e, known e = some v ∧
    (IsGreatest {e | known e ≠ none ∧ e ≤ d} e ∨
      (∀ e, known e ≠ none → d < e) ∧ IsLeast {e | known e ≠ none} e)

/-- The scan with its carried value. -/
def carried (carry : α) : List δ → List α
  | [] => []
  | d :: ds => (known d).getD carry :: carried ((known d).getD carry) ds

variable {known} {d d' : δ} {v w carry : α} {ds : List δ}

theorem Prevails.unique (hv : Prevails known d v) (hw : Prevails known d w) : v = w := by
  obtain ⟨e, he, hev⟩ := hv
  obtain ⟨f, hf, hfw⟩ := hw
  have hsame : e = f := by
    rcases hev with hgreatest | ⟨hlate, hleast⟩
    · rcases hfw with hgreatest' | ⟨hlate', -⟩
      · exact hgreatest.unique hgreatest'
      · exact absurd hgreatest.1.2 (not_le.mpr (hlate' e hgreatest.1.1))
    · rcases hfw with hgreatest' | ⟨-, hleast'⟩
      · exact absurd hgreatest'.1.2 (not_le.mpr (hlate f hgreatest'.1.1))
      · exact hleast.unique hleast'
  rw [hsame, hf] at he
  exact (Option.some.inj he).symm

theorem prevails_of_known (h : known d = some v) : Prevails known d v := by
  refine ⟨d, h, .inl ⟨⟨?_, le_rfl⟩, fun e he => he.2⟩⟩
  rw [h]
  exact Option.some_ne_none v

/-- A value prevails on the next date too, unless that date is known. -/
theorem Prevails.next (h : Prevails known d v) (hnext : d ⋖ d') (hnone : known d' = none) :
    Prevails known d' v := by
  have hle : ∀ e, known e ≠ none → e ≤ d' → e ≤ d := by
    intro e he hed
    have hne : e ≠ d' := by
      rintro rfl
      exact he hnone
    exact not_lt.mp fun hlt => hnext.2 hlt (lt_of_le_of_ne hed hne)
  obtain ⟨e, he, hgreatest | ⟨hlate, hleast⟩⟩ := h
  · refine ⟨e, he, .inl ⟨⟨hgreatest.1.1, hgreatest.1.2.trans hnext.le⟩, fun f hf => ?_⟩⟩
    exact hgreatest.2 ⟨hf.1, hle f hf.1 hf.2⟩
  · refine ⟨e, he, .inr ⟨fun f hf => ?_, hleast⟩⟩
    by_contra hearly
    exact absurd (hle f hf (not_lt.mp hearly)) (not_le.mpr (hlate f hf))

theorem prevails_getD (h : known d = none → Prevails known d carry) :
    Prevails known d ((known d).getD carry) := by
  cases hknown : known d with
  | none => exact h hknown
  | some v => exact prevails_of_known hknown

/-- A scan that starts right stays right. -/
theorem forall₂_carried_iff (hchain : (d :: ds).IsChain (· ⋖ ·)) :
    List.Forall₂ (Prevails known) (d :: ds) (carried known carry (d :: ds)) ↔
      (known d = none → Prevails known d carry) := by
  constructor
  · intro h hnone
    rw [carried, hnone, Option.getD_none] at h
    exact (List.forall₂_cons.mp h).1
  · intro hstart
    induction ds generalizing d carry with
    | nil => exact .cons (prevails_getD hstart) .nil
    | cons d' ds ih =>
        have hhere := prevails_getD hstart
        obtain ⟨hnext, hchain⟩ := List.isChain_cons_cons.mp hchain
        exact .cons hhere (ih hchain fun hnone => hhere.next hnext hnone)

omit [LinearOrder δ] in
theorem length_carried (ds : List δ) : (carried known carry ds).length = ds.length := by
  induction ds generalizing carry with
  | nil => rfl
  | cons d ds ih => rw [carried, List.length_cons, ih, List.length_cons]

omit [LinearOrder δ] in
/-- The value of the last date may be written over. -/
theorem set_carried_concat (ds : List δ) (d : δ) :
    (carried known carry (ds ++ [d])).set ds.length v = carried known carry ds ++ [v] := by
  induction ds generalizing carry with
  | nil => rfl
  | cons d' ds ih =>
      rw [List.cons_append, carried, carried, List.length_cons, List.set_cons_succ, ih,
        List.cons_append]

omit [LinearOrder δ] in
theorem forall₂_concat_iff {β : Type*} {R : δ → β → Prop} {bs : List β} {b : β}
    (hlength : ds.length = bs.length) :
    List.Forall₂ R (ds ++ [d]) (bs ++ [b]) ↔ List.Forall₂ R ds bs ∧ R d b := by
  constructor
  · intro h
    have htake := List.forall₂_take ds.length h
    have hdrop := List.forall₂_drop ds.length h
    rw [List.take_left, hlength, List.take_left] at htake
    rw [List.drop_left, hlength, List.drop_left] at hdrop
    exact ⟨htake, (List.forall₂_cons.mp hdrop).1⟩
  · rintro ⟨hinit, hlast⟩
    exact List.rel_append hinit (.cons hlast .nil)

end Lib

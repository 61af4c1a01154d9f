import Mathlib.Data.List.Basic

/-!
# Passes that are repeated

A pass takes the items of a list one after the other and notes what became of each.  What the
state remembers of an item once it was taken, and keeps while others are taken, it knows of
every item after the pass, when the pass is made again.
-/

namespace Lib

variable {σ α β : Type*}

/-- The pass with what became of each item, and where it leads. -/
def sweep (step : σ → α → β × σ) : List α → σ → List (α × β) × σ
  | [], s => ([], s)
  | a :: as, s =>
      ((a, (step s a).1) :: (sweep step as (step s a).2).1, (sweep step as (step s a).2).2)

variable {step : σ → α → β × σ}

theorem map_fst_sweep (as : List α) (s : σ) : (sweep step as s).1.map Prod.fst = as := by
  induction as generalizing s with
  | nil => rfl
  | cons a as ih => rw [sweep, List.map_cons, ih]

theorem sweep_snd (as : List α) (s : σ) :
    (sweep step as s).2 = as.foldl (fun s a => (step s a).2) s := by
  induction as generalizing s with
  | nil => rfl
  | cons a as ih => rw [sweep, List.foldl_cons, ih]

/-- Under the invariant an item is remembered once it was taken, and stays remembered. -/
structure Remembers (step : σ → α → β × σ) (items : List α) (inv : σ → Prop)
    (known : α → β → σ → Prop) : Prop where
  preserves : ∀ s, inv s → ∀ a ∈ items, inv (step s a).2
  notes : ∀ s, inv s → ∀ a ∈ items, known a (step s a).1 (step s a).2
  keeps : ∀ s, inv s → ∀ a ∈ items, ∀ b ∈ items, ∀ o, known a o s → known a o (step s b).2

namespace Remembers

variable {items : List α} {inv : σ → Prop} {known : α → β → σ → Prop}

theorem inv_sweep (h : Remembers step items inv known) {as : List α} (has : as ⊆ items) {s : σ}
    (hs : inv s) : inv (sweep step as s).2 := by
  induction as generalizing s with
  | nil => exact hs
  | cons a as ih =>
      obtain ⟨ha, hrest⟩ := List.cons_subset.mp has
      exact ih hrest (h.preserves s hs a ha)

theorem keeps_sweep (h : Remembers step items inv known) {as : List α} (has : as ⊆ items) {s : σ}
    (hs : inv s) {b : α} (hb : b ∈ items) {o : β} (hknown : known b o s) :
    known b o (sweep step as s).2 := by
  induction as generalizing s with
  | nil => exact hknown
  | cons a as ih =>
      obtain ⟨ha, hrest⟩ := List.cons_subset.mp has
      exact ih hrest (h.preserves s hs a ha) (h.keeps s hs b hb a ha o hknown)

/-- After a pass it is known what became of each of its items. -/
theorem known_sweep (h : Remembers step items inv known) {as : List α} (has : as ⊆ items) {s : σ}
    (hs : inv s) : ∀ ao ∈ (sweep step as s).1, known ao.1 ao.2 (sweep step as s).2 := by
  induction as generalizing s with
  | nil => simp [sweep]
  | cons a as ih =>
      obtain ⟨ha, hrest⟩ := List.cons_subset.mp has
      have hnext := h.preserves s hs a ha
      intro ao hao
      rcases List.mem_cons.mp hao with rfl | hao
      · exact h.keeps_sweep hrest hnext ha (h.notes s hs a ha)
      · exact ih hrest hnext ao hao

theorem exists_known (h : Remembers step items inv known) {as : List α} (has : as ⊆ items) {s : σ}
    (hs : inv s) : ∀ a ∈ as, ∃ o, known a o (sweep step as s).2 := by
  intro a ha
  rw [← @map_fst_sweep σ α β step as s] at ha
  obtain ⟨ao, hao, rfl⟩ := List.mem_map.mp ha
  exact ⟨ao.2, h.known_sweep has hs ao hao⟩

end Remembers

end Lib

import Mathlib.Order.Defs.LinearOrder
import Mathlib.Data.List.Induction
import Mathlib.Data.Set.Basic
import Neonfi.Lib.Run
import Neonfi.Lib.Table

/-!
# Last write wins

Operations on a set of keys that add or remove their key, some of them with the time they are
about.  A key is in the set after a run exactly when the operation that came last adds it; that
is what the operation of the latest time asks for exactly when the two agree.
-/

namespace Lib

variable {α κ τ : Type*} [DecidableEq κ] (key : α → κ) (adds : α → Bool)

/-- One operation on the set. -/
def Writes (present : Set κ) (op : α) (present' : Set κ) : Prop :=
  ∀ k, k ∈ present' ↔ if key op = k then adds op = true else k ∈ present

/-- The operation on this key that came last. -/
def lastOn (ops : List α) (k : κ) : Option α := (ops.filter fun op => key op = k).getLast?

theorem lastOn_append (ops ops' : List α) (k : κ) :
    lastOn key (ops ++ ops') k = (lastOn key ops' k).or (lastOn key ops k) := by
  unfold lastOn
  rw [List.filter_append, List.getLast?_append]

theorem lastOn_cons (op : α) (ops : List α) (k : κ) :
    lastOn key (op :: ops) k = (lastOn key ops k).or (if key op = k then some op else none) := by
  rw [← List.singleton_append, lastOn_append]
  congr 1
  unfold lastOn
  by_cases h : key op = k <;> simp [h]

theorem mem_of_lastOn {ops : List α} {k : κ} {op : α} (h : lastOn key ops k = some op) :
    op ∈ ops ∧ key op = k := by
  obtain ⟨hmem, hkey⟩ := List.mem_filter.mp (List.mem_of_getLast? h)
  exact ⟨hmem, of_decide_eq_true hkey⟩

theorem exists_lastOn {ops : List α} {op : α} (h : op ∈ ops) :
    ∃ op', lastOn key ops (key op) = some op' := by
  have hmem : op ∈ ops.filter fun op' => key op' = key op :=
    List.mem_filter.mpr ⟨h, decide_eq_true rfl⟩
  exact ⟨_, List.getLast?_eq_some_getLast (List.ne_nil_of_mem hmem)⟩

theorem lastOn_eq_none_iff {ops : List α} {k : κ} :
    lastOn key ops k = none ↔ ∀ op ∈ ops, key op ≠ k := by
  unfold lastOn
  simp

theorem lastOn_filter_eq_some_iff {p : α → Bool} {ops : List α} {k : κ} {op : α} :
    lastOn key (ops.filter p) k = some op ↔ p op = true ∧ key op = k ∧
      ∃ before after, ops = before ++ op :: after ∧
        ∀ op' ∈ after, p op' = true → key op' ≠ k := by
  unfold lastOn
  rw [List.filter_filter, List.getLast?_filter, List.find?_eq_some_iff_append]
  simp only [Bool.and_eq_true, decide_eq_true_eq]
  constructor
  · rintro ⟨⟨hkey, hp⟩, after, before, hsplit, hrest⟩
    refine ⟨hp, hkey, before.reverse, after.reverse, ?_, ?_⟩
    · simpa using congrArg List.reverse hsplit
    · intro op' hop' hp' hkey'
      simpa [hp', hkey'] using hrest op' (List.mem_reverse.mp hop')
  · rintro ⟨hp, hkey, before, after, rfl, hrest⟩
    refine ⟨⟨hkey, hp⟩, after.reverse, before.reverse, by simp, ?_⟩
    intro op' hop'
    have hno := hrest op' (List.mem_reverse.mp hop')
    cases hp' : p op' with
    | false => simp
    | true => simpa using hno hp'

/-- A map that is set entry by entry holds the last entry of each key. -/
theorem find?_foldl_set {ρ ι : Type} [DecidableEq ι] {field : ρ → ι} (rows : List ρ) (k : ι) :
    (rows.foldl Table.set (.empty : Table ρ ι field)).find? k = lastOn field rows k := by
  induction rows using List.reverseRecOn with
  | nil => rfl
  | append_singleton rows r ih =>
      rw [List.foldl_concat, Table.find?_set, ih, lastOn_append, lastOn_cons]
      split <;> rfl

/-! ## Two passes -/

section TwoPass

variable (late : α → Bool)

/-- The late operations after all others. -/
def twoPass (ops : List α) : List α := (ops.filter fun op => !late op) ++ ops.filter late

/-- An operation that no other one on its key comes after, in two passes. -/
structure EndsTwoPass (ops : List α) (op : α) : Prop where
  split : ∃ before after, ops = before ++ op :: after ∧
    ∀ op' ∈ after, late op' = late op → key op' ≠ key op
  early : late op = false → ∀ op' ∈ ops, late op' = true → key op' ≠ key op

variable {key late}

omit [DecidableEq κ] in
theorem EndsTwoPass.mem {ops : List α} {op : α} (h : EndsTwoPass key late ops op) : op ∈ ops := by
  obtain ⟨before, after, hsplit, -⟩ := h.split
  rw [hsplit]
  exact List.mem_append_right _ List.mem_cons_self

/-- After two passes the last late operation on a key decides, else the last one at all. -/
theorem lastOn_twoPass_eq_some_iff {ops : List α} {k : κ} {op : α} :
    lastOn key (twoPass late ops) k = some op ↔ key op = k ∧ EndsTwoPass key late ops op := by
  unfold twoPass
  rw [lastOn_append, Option.or_eq_some_iff, lastOn_filter_eq_some_iff, lastOn_filter_eq_some_iff,
    lastOn_eq_none_iff]
  constructor
  · rintro (⟨hlate, rfl, before, after, hsplit, hrest⟩ |
      ⟨hnone, hearly, rfl, before, after, hsplit, hrest⟩)
    · refine ⟨rfl, ⟨before, after, hsplit, ?_⟩, fun h => ?_⟩
      · rw [hlate]
        exact hrest
      · rw [hlate] at h
        cases h
    · rw [Bool.not_eq_true'] at hearly
      refine ⟨rfl, ⟨before, after, hsplit, ?_⟩, fun _ op' hop' hlate' => ?_⟩
      · rw [hearly]
        simpa using hrest
      · exact hnone op' (List.mem_filter.mpr ⟨hop', hlate'⟩)
  · rintro ⟨rfl, ⟨before, after, hsplit, hrest⟩, hearly⟩
    cases hlate : late op with
    | true =>
        rw [hlate] at hrest
        exact .inl ⟨rfl, rfl, before, after, hsplit, hrest⟩
    | false =>
        rw [hlate] at hrest
        refine .inr ⟨?_, rfl, rfl, before, after, hsplit, by simpa using hrest⟩
        intro op' hop'
        obtain ⟨hmem, hlate'⟩ := List.mem_filter.mp hop'
        exact hearly hlate op' hmem hlate'

end TwoPass

/-- After a run the last operation on a key decides; a key without one is where it was. -/
theorem mem_iff_lastOn {present present' : Set κ} {ops : List α}
    (hrun : Run (Writes key adds) present ops present') (k : κ) :
    k ∈ present' ↔
      match lastOn key ops k with
      | some op => adds op = true
      | none => k ∈ present := by
  induction hrun with
  | nil => exact Iff.rfl
  | @cons _ _ _ op _ hstep _ ih =>
      rw [ih, lastOn_cons]
      split
      · next hlast => rw [hlast, Option.some_or]
      · next hnone =>
          rw [hnone, Option.none_or, hstep k]
          by_cases hkey : key op = k
          · rw [if_pos hkey, if_pos hkey]
          · rw [if_neg hkey, if_neg hkey]

/-! ## The latest operation -/

variable [LinearOrder τ] (time : α → Option τ)

/-- The operation on this key that is about the latest time. -/
structure LatestOn (ops : List α) (k : κ) (op : α) : Prop where
  mem : op ∈ ops
  key_eq : key op = k
  latest : ∃ t, time op = some t ∧
    ∀ op' ∈ ops, key op' = k → ∀ t', time op' = some t' → t' ≤ t

/-- The latest operation on a key adds it. -/
def LatestAdds (ops : List α) (k : κ) : Prop :=
  ∃ op, LatestOn key time ops k op ∧ adds op = true

/-- The operation on this key that came last agrees with the one about the latest time. -/
def EndsLatestOn (ops : List α) (k : κ) : Prop :=
  ∀ last, lastOn key ops k = some last → (adds last = true ↔ LatestAdds key adds time ops k)

variable {key adds time}

/-- A run from a set without the key has it at the end if its latest operation adds it, and only
then, exactly when its last operation agrees with its latest. -/
theorem mem_iff_latestAdds_iff {ops : List α} {present present' : Set κ} {k : κ}
    (hnew : k ∉ present) (hrun : Run (Writes key adds) present ops present') :
    (k ∈ present' ↔ LatestAdds key adds time ops k) ↔ EndsLatestOn key adds time ops k := by
  rw [mem_iff_lastOn key adds hrun]
  unfold EndsLatestOn
  cases hlast : lastOn key ops k with
  | some last => simp
  | none =>
      have hnone : ¬ LatestAdds key adds time ops k := by
        rintro ⟨op, hlatest, -⟩
        obtain ⟨op', hop'⟩ := exists_lastOn key hlatest.mem
        rw [hlatest.key_eq, hlast] at hop'
        cases hop'
      simp [hnew, hnone]

end Lib

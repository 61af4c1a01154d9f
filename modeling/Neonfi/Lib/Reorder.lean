import Mathlib.Data.List.Nodup
import Mathlib.Data.List.Perm.Basic

/-!
# Reordering the steps of a fold

Two orders of the same steps lead to the same state when they differ only in steps that
commute: every two conflicting steps stand in one order.
-/

namespace Lib

variable {σ α : Type*} {conflict : α → α → Prop} {xs ys : List α}

/-- `ys` is a reordering of `xs` in which conflicting elements keep their order. -/
def KeepsOrder (conflict : α → α → Prop) (xs ys : List α) : Prop :=
  xs.Perm ys ∧ ∀ a b, conflict a b → [a, b].Sublist xs → [a, b].Sublist ys

/-- A step that commutes with a list of steps may be taken before them. -/
theorem foldl_cons_of_commute {I : σ → Prop} {f : σ → α → σ} {a : α} {bs : List α} {s : σ}
    (hs : I s) (hI : ∀ b ∈ bs, ∀ s, I s → I (f s b))
    (hcomm : ∀ b ∈ bs, ∀ s, I s → f (f s a) b = f (f s b) a) :
    f (bs.foldl f s) a = bs.foldl f (f s a) := by
  induction bs generalizing s with
  | nil => rfl
  | cons b bs ih =>
      rw [List.foldl_cons, List.foldl_cons, hcomm b List.mem_cons_self s hs]
      exact ih (hI b List.mem_cons_self s hs)
        (fun c hc => hI c (List.mem_cons_of_mem b hc))
        fun c hc => hcomm c (List.mem_cons_of_mem b hc)

namespace KeepsOrder

/-- The elements before the first one of `xs` come later in `xs`, and keeping the order means
they do not conflict with it. -/
theorem not_conflict_of_mem {a b : α} {before after : List α}
    (h : KeepsOrder conflict (a :: xs) (before ++ a :: after))
    (hnodup : (before ++ a :: after).Nodup) (hb : b ∈ before) : ¬ conflict a b := by
  intro hconflict
  have ha : a ∉ before := fun ha =>
    (List.nodup_append.mp hnodup).2.2 a ha a List.mem_cons_self rfl
  have hb' : b ∉ a :: after := fun hb' => (List.nodup_append.mp hnodup).2.2 b hb b hb' rfl
  have hmem : b ∈ xs := by
    have hall : b ∈ a :: xs := h.1.mem_iff.mpr (List.mem_append_left _ hb)
    exact (List.mem_cons.mp hall).resolve_left fun heq => ha (heq ▸ hb)
  have hsub := h.2 a b hconflict ((List.singleton_sublist.mpr hmem).cons_cons a)
  -- `a` is in the second half, so `b` would be behind it
  obtain ⟨first, second, heq, hfirst, hsecond⟩ := List.sublist_append_iff.mp hsub
  cases first with
  | nil =>
      rw [List.nil_append] at heq
      rw [← heq] at hsecond
      exact hb' (hsecond.subset (List.mem_cons_of_mem a (List.mem_singleton_self b)))
  | cons c first =>
      rw [List.cons_append] at heq
      obtain ⟨rfl, -⟩ := List.cons.inj heq
      exact ha (hfirst.subset List.mem_cons_self)

theorem tail {a : α} {before after : List α}
    (h : KeepsOrder conflict (a :: xs) (before ++ a :: after))
    (hnodup : (before ++ a :: after).Nodup) : KeepsOrder conflict xs (before ++ after) := by
  classical
  have hperm : xs.Perm (before ++ after) := (h.1.trans List.perm_middle).cons_inv
  refine ⟨hperm, fun c d hconflict hsub => ?_⟩
  have hnotMem : a ∉ xs := by
    intro ha
    have hnodup' := (List.nodup_middle.mp hnodup)
    exact (List.nodup_cons.mp hnodup').1 (hperm.mem_iff.mp ha)
  have herased := (h.2 c d hconflict (hsub.cons a)).erase a
  have hpair : a ∉ [c, d] := fun ha => hnotMem (hsub.subset ha)
  have hbefore : a ∉ before := fun ha =>
    (List.nodup_append.mp hnodup).2.2 a ha a List.mem_cons_self rfl
  rw [List.erase_of_not_mem hpair, List.erase_append_right _ hbefore,
    List.erase_cons_head] at herased
  exact herased

end KeepsOrder

/-- Reordering steps that commute leaves the fold as it is. -/
theorem foldl_eq_of_keepsOrder {I : σ → Prop} {f : σ → α → σ} {s : σ} (hs : I s)
    (hI : ∀ a ∈ xs, ∀ s, I s → I (f s a))
    (hcomm : ∀ a ∈ xs, ∀ b ∈ xs, ¬ conflict a b → ∀ s, I s → f (f s a) b = f (f s b) a)
    (hnodup : xs.Nodup) (h : KeepsOrder conflict xs ys) : xs.foldl f s = ys.foldl f s := by
  induction xs generalizing s ys with
  | nil => rw [List.nil_perm.mp h.1]
  | cons a xs ih =>
      have hnodup' : ys.Nodup := h.1.nodup_iff.mp hnodup
      obtain ⟨before, after, rfl⟩ := List.append_of_mem (h.1.mem_iff.mp List.mem_cons_self)
      have hmem : ∀ b ∈ before, b ∈ a :: xs :=
        fun b hb => h.1.mem_iff.mpr (List.mem_append_left _ hb)
      have hfree := fun b hb => h.not_conflict_of_mem hnodup' (b := b) hb
      have hrest := ih (hI a List.mem_cons_self s hs)
        (fun b hb => hI b (List.mem_cons_of_mem a hb))
        (fun b hb c hc => hcomm b (List.mem_cons_of_mem a hb) c (List.mem_cons_of_mem a hc))
        hnodup.of_cons (h.tail hnodup')
      rw [List.foldl_cons, hrest, List.foldl_append, List.foldl_append, List.foldl_cons,
        foldl_cons_of_commute hs (fun b hb => hI b (hmem b hb)) fun b hb =>
          hcomm a List.mem_cons_self b (hmem b hb) (hfree b hb)]

end Lib

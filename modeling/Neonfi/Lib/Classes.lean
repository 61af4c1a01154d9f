import Mathlib.Data.List.Dedup
import Mathlib.Data.List.Nodup
import Mathlib.Data.List.Perm.Basic
import Mathlib.Data.List.Range

/-!
# Numbered items sorted into classes

A pass over the items 1, 2, .. takes an item, passes over it, or reports it, possibly several
times.  Every item ends in exactly one of the three classes.
-/

namespace Lib

/-- The items taken, those passed over, and those reported, once for each report. -/
structure Classes where
  taken : List ℕ
  passed : List ℕ
  reports : List ℕ

namespace Classes

def reported (c : Classes) : List ℕ := c.reports.dedup

/-- The first `n` items are in exactly one class each. -/
def Cover (c : Classes) (n : ℕ) : Prop :=
  (c.taken ++ c.passed ++ c.reported).Perm (List.range' 1 n)

variable {c : Classes} {n : ℕ}

theorem cover_empty : Cover ⟨[], [], []⟩ 0 := List.Perm.refl _

theorem Cover.nodup (h : c.Cover n) : (c.taken ++ c.passed ++ c.reported).Nodup :=
  h.nodup_iff.mpr List.nodup_range'

theorem Cover.le_of_mem {i : ℕ} (h : c.Cover n) (hi : i ∈ c.taken ++ c.passed ++ c.reported) :
    i ≤ n := by
  have hmem := List.mem_range'_1.mp (h.mem_iff.mp hi)
  omega

/-- No class is counted twice, and none of the items is left out. -/
theorem Cover.length (h : c.Cover n) :
    c.taken.length + c.passed.length + c.reported.length = n := by
  have hlength := h.length_eq
  rw [List.length_append, List.length_append, List.length_range'] at hlength
  exact hlength

theorem range'_succ_concat : List.range' 1 (n + 1) = List.range' 1 n ++ [n + 1] := by
  rw [List.range'_1_concat, Nat.add_comm]

theorem Cover.take (h : c.Cover n) : Cover { c with taken := c.taken ++ [n + 1] } (n + 1) := by
  unfold Cover at *
  rw [range'_succ_concat]
  have hswap : (c.taken ++ [n + 1] ++ c.passed ++ c.reported).Perm
      (c.taken ++ c.passed ++ c.reported ++ [n + 1]) := by
    simp only [List.append_assoc]
    refine List.Perm.append_left _ ?_
    rw [← List.append_assoc c.passed]
    exact List.perm_append_comm
  exact hswap.trans (h.append_right _)

theorem Cover.pass (h : c.Cover n) : Cover { c with passed := c.passed ++ [n + 1] } (n + 1) := by
  unfold Cover at *
  rw [range'_succ_concat]
  have hswap : (c.taken ++ (c.passed ++ [n + 1]) ++ c.reported).Perm
      (c.taken ++ c.passed ++ c.reported ++ [n + 1]) := by
    simp only [List.append_assoc]
    exact List.Perm.append_left _ (List.Perm.append_left _ List.perm_append_comm)
  exact hswap.trans (h.append_right _)

/-- An item that is reported at least once, and only itself, is one more reported item. -/
theorem Cover.report (h : c.Cover n) {new : List ℕ} (hne : new ≠ [])
    (hnew : ∀ i ∈ new, i = n + 1) : Cover { c with reports := c.reports ++ new } (n + 1) := by
  have hfresh : n + 1 ∉ c.reports := by
    intro hmem
    have hle := h.le_of_mem (List.mem_append_right _ (List.mem_dedup.mpr hmem))
    omega
  have hlast : ∀ i, i ∈ new ↔ i = n + 1 := by
    intro i
    refine ⟨hnew i, ?_⟩
    rintro rfl
    obtain ⟨j, hj⟩ := List.exists_mem_of_ne_nil new hne
    exact hnew j hj ▸ hj
  have hdedup : ((c.reports ++ new).dedup).Perm (c.reports.dedup ++ [n + 1]) := by
    apply (List.perm_ext_iff_of_nodup (List.nodup_dedup _) ?_).mpr
    · intro i
      rw [List.mem_dedup, List.mem_append, List.mem_append, List.mem_dedup, List.mem_singleton,
        hlast]
    · refine List.Nodup.append (List.nodup_dedup _) (List.nodup_singleton _) ?_
      rw [List.disjoint_singleton]
      exact fun hmem => hfresh (List.mem_dedup.mp hmem)
  unfold Cover at *
  rw [range'_succ_concat]
  refine (List.Perm.append_left _ hdedup).trans ?_
  rw [← List.append_assoc]
  exact h.append_right _

/-- With no reports every item is taken or passed over. -/
theorem Cover.of_silent (h : c.Cover n) (hsilent : c.reports = []) :
    (c.taken ++ c.passed).Perm (List.range' 1 n) := by
  unfold Cover reported at h
  rwa [hsilent, List.dedup_nil, List.append_nil] at h

end Classes

end Lib

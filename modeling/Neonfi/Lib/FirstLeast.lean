import Mathlib.Data.List.MinMax
import Neonfi.Lib.Table

/-!
# The first least entry of a list

Where the entries that do not count are left out decides what is chosen: choosing among all of them
and then looking whether the choice counts is the same as choosing among those that count, exactly
when every other entry is beaten by one that counts, or none counts at all.

A table that keeps the first least entry of each key, entry by entry, holds the choice among the
entries of the key.
-/

namespace Lib

variable {α β κ : Type*} [LinearOrder κ] {f : α → κ} {l : List α} {m : α}

theorem argmin_map (f : β → κ) (g : α → β) (l : List α) :
    (l.map g).argmin f = (l.argmin fun a => f (g a)).map g := by
  induction l with
  | nil => rfl
  | cons a l ih =>
      rw [List.map_cons, List.argmin_cons, List.argmin_cons, ih]
      cases l.argmin fun a => f (g a) with
      | none => rfl
      | some c =>
          dsimp only [Option.map_some]
          split <;> rfl

/-- What stands before the first least entry is greater, and what stands behind it is not less. -/
theorem argmin_eq_some_iff_split :
    l.argmin f = some m ↔ ∃ before after, l = before ++ m :: after ∧
      (∀ a ∈ before, f m < f a) ∧ ∀ a ∈ after, f m ≤ f a := by
  constructor
  · intro h
    induction l with
    | nil => cases h
    | cons a l ih =>
        rw [List.argmin_cons] at h
        cases hrest : l.argmin f with
        | none =>
            rw [hrest] at h
            cases h
            rw [List.argmin_eq_none.mp hrest]
            exact ⟨[], [], rfl, nofun, nofun⟩
        | some c =>
            rw [hrest] at h
            dsimp only at h
            split at h
            · next hlt =>
                cases h
                obtain ⟨before, after, hsplit, hbefore, hafter⟩ := ih hrest
                refine ⟨a :: before, after, by rw [hsplit, List.cons_append], ?_, hafter⟩
                intro b hb
                rcases List.mem_cons.mp hb with rfl | hb
                · exact hlt
                · exact hbefore b hb
            · next hle =>
                cases h
                refine ⟨[], l, rfl, nofun, fun b hb => ?_⟩
                exact (not_lt.mp hle).trans (List.le_of_mem_argmin hb hrest)
  · rintro ⟨before, after, rfl, hbefore, hafter⟩
    induction before with
    | nil =>
        rw [List.nil_append, List.argmin_cons]
        cases hrest : after.argmin f with
        | none => rfl
        | some c => exact if_neg (not_lt.mpr (hafter c (List.argmin_mem hrest)))
    | cons a before ih =>
        rw [List.cons_append, List.argmin_cons,
          ih fun b hb => hbefore b (List.mem_cons_of_mem a hb)]
        exact if_pos (hbefore a List.mem_cons_self)

variable {p : α → Bool}

/-- A choice that counts is the choice among those that count. -/
theorem argmin_filter (h : l.argmin f = some m) (hp : p m = true) :
    (l.filter p).argmin f = some m := by
  obtain ⟨before, after, rfl, hbefore, hafter⟩ := argmin_eq_some_iff_split.mp h
  refine argmin_eq_some_iff_split.mpr ⟨before.filter p, after.filter p, ?_, ?_, ?_⟩
  · rw [List.filter_append, List.filter_cons_of_pos hp]
  · exact fun a ha => hbefore a (List.mem_of_mem_filter ha)
  · exact fun a ha => hafter a (List.mem_of_mem_filter ha)

/-- Every entry that does not count is beaten by one that does. -/
def Beaten (f : α → κ) (p : α → Bool) (l : List α) : Prop :=
  ∀ before a after, l = before ++ a :: after → p a = false →
    (∃ b ∈ before, p b = true ∧ f b ≤ f a) ∨ ∃ b ∈ after, p b = true ∧ f b < f a

/-- The first least entry counts exactly when every entry that does not is beaten. -/
theorem beaten_iff (h : l.argmin f = some m) : Beaten f p l ↔ p m = true := by
  obtain ⟨before, after, hsplit, hbefore, hafter⟩ := argmin_eq_some_iff_split.mp h
  constructor
  · intro hbeaten
    by_contra hp
    rcases hbeaten before m after hsplit (Bool.eq_false_iff.mpr hp) with
      ⟨b, hb, -, hle⟩ | ⟨b, hb, -, hlt⟩
    · exact absurd hle (not_le.mpr (hbefore b hb))
    · exact absurd hlt (not_lt.mpr (hafter b hb))
  · intro hp before' a after' hsplit' ha
    have hne : a ≠ m := by
      rintro rfl
      rw [hp] at ha
      cases ha
    rw [hsplit] at hsplit'
    rcases List.append_eq_append_iff.mp hsplit' with ⟨c, hc, hrest⟩ | ⟨c, hc, hrest⟩
    · -- The choice stands before the entry.
      left
      cases c with
      | nil => exact absurd (List.cons.inj hrest).1.symm hne
      | cons d c =>
          obtain ⟨rfl, htail⟩ := List.cons.inj hrest
          have hrest' : after = c ++ a :: after' := htail
          refine ⟨m, ?_, hp, hafter a ?_⟩
          · rw [hc]
            exact List.mem_append_right _ List.mem_cons_self
          · rw [hrest']
            exact List.mem_append_right _ List.mem_cons_self
    · right
      cases c with
      | nil => exact absurd (List.cons.inj hrest).1 hne
      | cons d c =>
          obtain ⟨rfl, htail⟩ := List.cons.inj hrest
          have hrest' : after' = c ++ m :: after := htail
          refine ⟨m, ?_, hp, hbefore a ?_⟩
          · rw [hrest']
            exact List.mem_append_right _ List.mem_cons_self
          · rw [hc]
            exact List.mem_append_right _ List.mem_cons_self

/-! ## The first least entry of each key -/

section KeepLeast

variable {ρ ι : Type} [DecidableEq ι] {key : ρ → ι} {g : ρ → κ}

/-- An entry replaces the one under its key only where it is less. -/
def keepLeast (g : ρ → κ) (T : Table ρ ι key) (r : ρ) : Table ρ ι key :=
  match T.find? (key r) with
  | some existing => if g existing ≤ g r then T else T.set r
  | none => T.set r

theorem find?_keepLeast {T : Table ρ ι key} {r : ρ} {k : ι} :
    (keepLeast g T r).find? k =
      if key r = k then
        match T.find? k with
        | none => some r
        | some existing => if g r < g existing then some r else some existing
      else T.find? k := by
  unfold keepLeast
  by_cases hkey : key r = k
  · subst hkey
    rw [if_pos rfl]
    cases hfind : T.find? (key r) with
    | none =>
        dsimp only
        rw [Table.find?_set, if_pos rfl]
    | some existing =>
        dsimp only
        by_cases hle : g existing ≤ g r
        · rw [if_pos hle, if_neg (not_lt.mpr hle), hfind]
        · rw [if_neg hle, if_pos (not_le.mp hle), Table.find?_set, if_pos rfl]
  · rw [if_neg hkey]
    split
    · split
      · rfl
      · rw [Table.find?_set, if_neg hkey]
    · rw [Table.find?_set, if_neg hkey]

theorem find?_foldl_keepLeast (rs : List ρ) (k : ι) :
    (rs.foldl (keepLeast g) (.empty : Table ρ ι key)).find? k =
      (rs.filter fun r => key r = k).argmin g := by
  induction rs using List.reverseRecOn with
  | nil => rfl
  | append_singleton rs r ih =>
      rw [List.foldl_concat, find?_keepLeast, ih, List.filter_append]
      by_cases hkey : key r = k
      · have hown : [r].filter (fun r => key r = k) = [r] := by simp [hkey]
        rw [if_pos hkey, hown, List.argmin_concat]
        cases (rs.filter fun r => key r = k).argmin g <;> rfl
      · have hnil : [r].filter (fun r => key r = k) = [] := by simp [hkey]
        rw [if_neg hkey, hnil, List.append_nil]

end KeepLeast

end Lib

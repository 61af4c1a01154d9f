import Mathlib.Computability.Language
import Mathlib.Data.List.Chain
import Mathlib.Data.List.TakeWhile

/-!
# Words with single separators

A list of letters and separators that neither begins nor ends with a separator and has no two of
them in a row is empty, or a word followed by words with a separator before each.
-/

namespace Lib

variable {α : Type*} (letter : α → Bool) (sep : α)

/-- One or more letters. -/
def words : Language α := {w | w ≠ [] ∧ ∀ x ∈ w, letter x = true}

/-- A word, then any number of words behind a separator. -/
def separatedWords : Language α := words letter * KStar.kstar ({[sep]} * words letter)

/-- Letters and separators, every separator between two letters. -/
structure Separated (xs : List α) : Prop where
  mem : ∀ x ∈ xs, letter x = true ∨ x = sep
  apart : xs.IsChain fun a b => a = sep → b ≠ sep
  head : xs.head? ≠ some sep
  last : xs.getLast? ≠ some sep

variable {letter sep} {xs ys : List α} {x : α}

/-- What stands behind a separator is separated again, and is not empty. -/
theorem Separated.behind (h : Separated letter sep (xs ++ sep :: ys)) :
    Separated letter sep ys ∧ ys ≠ [] := by
  have hne : ys ≠ [] := by
    rintro rfl
    exact h.last (by simp)
  have hchain := (List.isChain_append.mp h.apart).2.1
  refine ⟨⟨fun y hy => ?_, hchain.tail, ?_, ?_⟩, hne⟩
  · exact h.mem y (List.mem_append_right xs (List.mem_cons_of_mem sep hy))
  · intro hhead
    obtain ⟨rest, rfl⟩ := List.head?_eq_some_iff.mp hhead
    exact (List.isChain_cons_cons.mp hchain).1 rfl rfl
  · intro hlast
    apply h.last
    obtain ⟨init, rfl⟩ := List.getLast?_eq_some_iff.mp hlast
    rw [List.getLast?_append_of_ne_nil xs (List.cons_ne_nil _ _), ← List.cons_append,
      List.getLast?_concat]

theorem Separated.mem_separatedWords (h : Separated letter sep xs) (hne : xs ≠ []) :
    xs ∈ separatedWords letter sep := by
  induction hn : xs.length using Nat.strong_induction_on generalizing xs with
  | h n ih =>
      have hsplit := List.takeWhile_append_dropWhile (p := letter) (l := xs)
      have hletters : ∀ x ∈ xs.takeWhile letter, letter x = true :=
        fun x hx => List.mem_takeWhile_imp hx
      have hword : xs.takeWhile letter ∈ words letter := by
        refine ⟨?_, hletters⟩
        intro hnil
        obtain ⟨x, rest, rfl⟩ := List.exists_cons_of_ne_nil hne
        rcases h.mem x List.mem_cons_self with hx | rfl
        · rw [List.takeWhile_cons_of_pos hx] at hnil
          cases hnil
        · exact h.head rfl
      rw [← hsplit]
      refine Language.append_mem_mul hword ?_
      cases hrest : xs.dropWhile letter with
      | nil => exact Language.nil_mem_kstar _
      | cons y ys =>
          have hy : letter y ≠ true := by
            have hnot := List.head?_dropWhile_not letter xs
            rw [hrest] at hnot
            simpa using hnot
          rw [hrest] at hsplit
          have hsep : y = sep := by
            have hmem : y ∈ xs := by
              rw [← hsplit]
              exact List.mem_append_right _ List.mem_cons_self
            exact (h.mem y hmem).resolve_left hy
          subst hsep
          rw [← hsplit] at h
          obtain ⟨hbehind, hysne⟩ := h.behind
          have hlt : ys.length < n := by
            rw [← hn, ← hsplit, List.length_append, List.length_cons]
            omega
          have hys := ih ys.length hlt hbehind hysne rfl
          obtain ⟨w, hw, rest, hstar, rfl⟩ := Language.mem_mul.mp hys
          obtain ⟨blocks, rfl, hblocks⟩ := Language.mem_kstar.mp hstar
          refine Language.mem_kstar.mpr ⟨(y :: w) :: blocks, rfl, fun block hblock => ?_⟩
          rcases List.mem_cons.mp hblock with rfl | hblock
          · have hsep : [y] ∈ ({[y]} : Language α) := rfl
            exact Language.append_mem_mul hsep hw
          · exact hblocks block hblock

/-! ## Joining words -/

section Join

variable (hsep : letter sep = false)
include hsep

theorem ne_sep_of_mem {w : List α} (hw : w ∈ words letter) (hx : x ∈ w) : x ≠ sep := by
  rintro rfl
  rw [hw.2 x hx] at hsep
  cases hsep

theorem separated_of_mem_words {w : List α} (hw : w ∈ words letter) : Separated letter sep w where
  mem x hx := .inl (hw.2 x hx)
  apart := by
    rw [List.isChain_iff_getElem]
    intro i hi hx
    exact absurd hx (ne_sep_of_mem hsep hw (List.getElem_mem _))
  head h := ne_sep_of_mem hsep hw (List.mem_of_head? h) rfl
  last h := ne_sep_of_mem hsep hw (List.mem_of_getLast? h) rfl

theorem Separated.join {w : List α} (hw : w ∈ words letter) (h : Separated letter sep ys)
    (hne : ys ≠ []) : Separated letter sep (w ++ sep :: ys) := by
  have hword := separated_of_mem_words hsep hw
  refine ⟨fun x hx => ?_, ?_, ?_, ?_⟩
  · rcases List.mem_append.mp hx with hx | hx
    · exact hword.mem x hx
    · rcases List.mem_cons.mp hx with rfl | hx
      · exact .inr rfl
      · exact h.mem x hx
  · refine List.isChain_append.mpr ⟨hword.apart, ?_, ?_⟩
    · refine List.IsChain.cons h.apart fun y hy _ => ?_
      rintro rfl
      exact h.head hy
    · intro x hx _ _ hxsep
      exact absurd hxsep (ne_sep_of_mem hsep hw (List.mem_of_getLast? hx))
  · rw [List.head?_append_of_ne_nil _ hw.1]
    exact hword.head
  · rw [List.getLast?_append_of_ne_nil _ (List.cons_ne_nil _ _), List.getLast?_cons_of_ne_nil hne]
    exact h.last

theorem separated_of_mem_separatedWords (h : xs ∈ separatedWords letter sep) :
    Separated letter sep xs := by
  obtain ⟨w, hw, rest, hstar, rfl⟩ := Language.mem_mul.mp h
  obtain ⟨blocks, rfl, hblocks⟩ := Language.mem_kstar.mp hstar
  clear h hstar
  induction blocks generalizing w with
  | nil =>
      rw [List.flatten_nil, List.append_nil]
      exact separated_of_mem_words hsep hw
  | cons block blocks ih =>
      obtain ⟨_, rfl, w', hw', rfl⟩ := Language.mem_mul.mp (hblocks block List.mem_cons_self)
      have hrest := ih w' hw' fun b hb => hblocks b (List.mem_cons_of_mem _ hb)
      have hne : w' ++ blocks.flatten ≠ [] := List.append_ne_nil_of_left_ne_nil hw'.1 _
      exact Separated.join hsep hw hrest hne

end Join

end Lib

import Mathlib.Data.List.Nodup
import Mathlib.Data.List.Perm.Basic
import Mathlib.Data.List.Range
import Mathlib.Order.Lattice
import Mathlib.Tactic.Ring

/-!
# Pages of a sorted list

Every page is cut out of an answer of its own.  The answers hold the same entries in the order of a
key, and entries with one key may stand in any order.  Together the pages are the entries, whatever
the answers, exactly when no group of entries with one key straddles a boundary of pages.
-/

namespace Lib

variable {α κ : Type*} [LinearOrder κ] {key : α → κ}

/-! ## Positions in a sorted list -/

def InOrder (key : α → κ) (xs : List α) : Prop := xs.Pairwise fun a b => key a ≤ key b

section Positions

variable {xs : List α} {P : κ → Prop} [DecidablePred P] {c : κ} {p : ℕ}

omit [DecidablePred P] in
theorem InOrder.none_of_head {a : α} (h : InOrder key (a :: xs))
    (hdown : ∀ c d, c ≤ d → P d → P c) (ha : ¬ P (key a)) : ∀ b ∈ a :: xs, ¬ P (key b) := by
  intro b hb hPb
  rcases List.mem_cons.mp hb with rfl | hb
  · exact ha hPb
  · exact ha (hdown _ _ ((List.pairwise_cons.mp h).1 b hb) hPb)

/-- What holds of all smaller keys holds of the first entries. -/
theorem InOrder.filter_eq_take (h : InOrder key xs) (hdown : ∀ c d, c ≤ d → P d → P c) :
    (xs.filter fun a => P (key a)) = xs.take (xs.countP fun a => P (key a)) := by
  induction xs with
  | nil => rfl
  | cons a xs ih =>
      by_cases ha : P (key a)
      · rw [List.filter_cons_of_pos (by simpa using ha),
          List.countP_cons_of_pos (by simpa using ha), List.take_succ_cons,
          ih (List.pairwise_cons.mp h).2]
      · have hnone := h.none_of_head hdown ha
        rw [List.filter_eq_nil_iff.mpr (by simpa using hnone),
          List.countP_eq_zero.mpr (by simpa using hnone), List.take_zero]

theorem InOrder.holds_iff (h : InOrder key xs) (hdown : ∀ c d, c ≤ d → P d → P c)
    (hp : p < xs.length) : P (key xs[p]) ↔ p < xs.countP fun a => P (key a) := by
  induction xs generalizing p with
  | nil => exact absurd hp (Nat.not_lt_zero p)
  | cons a xs ih =>
      by_cases ha : P (key a)
      · rw [List.countP_cons_of_pos (by simpa using ha)]
        cases p with
        | zero => simpa using ha
        | succ p =>
            rw [List.getElem_cons_succ, ih (List.pairwise_cons.mp h).2]
            omega
      · have hnone := h.none_of_head hdown ha
        rw [List.countP_eq_zero.mpr (by simpa using hnone)]
        constructor
        · exact fun hkey => absurd hkey (hnone _ (List.getElem_mem hp))
        · exact fun hneg => absurd hneg (Nat.not_lt_zero p)

theorem InOrder.filter_lt (h : InOrder key xs) (c : κ) :
    (xs.filter fun a => key a < c) = xs.take (xs.countP fun a => key a < c) :=
  h.filter_eq_take fun _ _ => lt_of_le_of_lt

theorem InOrder.key_lt_iff (h : InOrder key xs) (hp : p < xs.length) :
    key xs[p] < c ↔ p < xs.countP fun a => key a < c :=
  h.holds_iff (fun _ _ => lt_of_le_of_lt) hp

theorem InOrder.key_le_iff (h : InOrder key xs) (hp : p < xs.length) :
    key xs[p] ≤ c ↔ p < xs.countP fun a => key a ≤ c :=
  h.holds_iff (fun _ _ => le_trans) hp

/-- Two neighbours with one key may be swapped. -/
theorem InOrder.swap {before after : List α} {u v : α}
    (h : InOrder key (before ++ u :: v :: after)) (hkey : key u = key v) :
    InOrder key (before ++ v :: u :: after) := by
  have hmap : (before ++ v :: u :: after).map key = (before ++ u :: v :: after).map key := by
    simp [hkey]
  unfold InOrder at h ⊢
  rw [← List.pairwise_map] at h ⊢
  rwa [hmap]

end Positions

/-! ## Groups and boundaries -/

/-- Some entries with one key stand before the boundary and some behind it. -/
def Straddles (key : α → κ) (entries : List α) (boundary : ℕ) : Prop :=
  ∃ x ∈ entries, (entries.countP fun y => key y < key x) < boundary ∧
    boundary < entries.countP fun y => key y ≤ key x

section Groups

variable {entries xs ys : List α} {b : ℕ}

theorem countP_lt_of_not_straddles (hperm : xs.Perm entries) (horder : InOrder key xs)
    (hb : b < xs.length) (hsplit : ¬ Straddles key entries b) :
    (entries.countP fun y => key y < key xs[b]) = b := by
  have hlow : ¬ b < xs.countP fun y => key y < key xs[b] := by
    rw [← horder.key_lt_iff hb]
    exact lt_irrefl _
  have hhigh : b < xs.countP fun y => key y ≤ key xs[b] :=
    (horder.key_le_iff hb).mp le_rfl
  rw [hperm.countP_eq] at hlow hhigh
  by_contra hne
  exact hsplit ⟨xs[b], hperm.mem_iff.mp (List.getElem_mem hb), by omega, hhigh⟩

/-- Two answers agree on what stands before a boundary that no group straddles. -/
theorem take_perm (hx : xs.Perm entries) (hy : ys.Perm entries) (hxorder : InOrder key xs)
    (hyorder : InOrder key ys) (hsplit : ¬ Straddles key entries b) :
    (xs.take b).Perm (ys.take b) := by
  have hlength : xs.length = ys.length := (hx.trans hy.symm).length_eq
  by_cases hb : b < xs.length
  · have hcount := countP_lt_of_not_straddles hx hxorder hb hsplit
    have hxtake := hxorder.filter_lt (key xs[b])
    have hytake := hyorder.filter_lt (key xs[b])
    rw [hx.countP_eq, hcount] at hxtake
    rw [hy.countP_eq, hcount] at hytake
    rw [← hxtake, ← hytake]
    exact (hx.trans hy.symm).filter _
  · rw [List.take_of_length_le (by omega), List.take_of_length_le (by omega)]
    exact hx.trans hy.symm

end Groups

/-! ## Pages -/

/-- `LIMIT limit OFFSET i * limit` -/
def page (limit i : ℕ) (xs : List α) : List α := (xs.drop (i * limit)).take limit

section Pages

variable {entries xs ys : List α} {limit pages i : ℕ}

theorem take_append_page (xs : List α) (limit i : ℕ) :
    xs.take (i * limit) ++ page limit i xs = xs.take ((i + 1) * limit) := by
  unfold page
  rw [← List.take_add, add_mul, one_mul]

/-- The pages of one answer, in turn, are the answer. -/
theorem flatMap_page (xs : List α) (limit pages : ℕ) :
    ((List.range pages).flatMap fun i => page limit i xs) = xs.take (pages * limit) := by
  induction pages with
  | zero => simp
  | succ pages ih =>
      rw [List.range_succ, List.flatMap_append, ih, ← take_append_page]
      simp

theorem page_perm (hx : xs.Perm entries) (hy : ys.Perm entries) (hxorder : InOrder key xs)
    (hyorder : InOrder key ys) (hstart : ¬ Straddles key entries (i * limit))
    (hstop : ¬ Straddles key entries ((i + 1) * limit)) :
    (page limit i xs).Perm (page limit i ys) := by
  have hbefore := take_perm hx hy hxorder hyorder hstart
  have hthrough := take_perm hx hy hxorder hyorder hstop
  rw [← take_append_page, ← take_append_page] at hthrough
  have hswap := (hbefore.symm.append_right (page limit i xs)).trans hthrough
  exact (List.perm_append_left_iff _).mp hswap

/-- The answers to the queries of one listing. -/
def Answers (key : α → κ) (entries : List α) (answers : ℕ → List α) : Prop :=
  ∀ i, (answers i).Perm entries ∧ InOrder key (answers i)

/-- Without a straddling group the pages are the entries. -/
theorem flatMap_page_perm {answers : ℕ → List α} (hanswers : Answers key entries answers)
    (hcover : entries.length ≤ pages * limit)
    (hsplit : ∀ i, ¬ Straddles key entries (i * limit)) :
    ((List.range pages).flatMap fun i => page limit i (answers i)).Perm entries := by
  have heach : ((List.range pages).flatMap fun i => page limit i (answers i)).Perm
      ((List.range pages).flatMap fun i => page limit i (answers 0)) := by
    apply List.Perm.flatMap_left
    intro i hi
    exact page_perm (hanswers i).1 (hanswers 0).1 (hanswers i).2 (hanswers 0).2 (hsplit i)
      (hsplit (i + 1))
  refine heach.trans ?_
  rw [flatMap_page, List.take_of_length_le (by rw [(hanswers 0).1.length_eq]; exact hcover)]
  exact (hanswers 0).1

theorem getElem_mem_page {p : ℕ} (hp : p < xs.length) (hstart : i * limit ≤ p)
    (hstop : p < (i + 1) * limit) : xs[p] ∈ page limit i xs := by
  unfold page
  rw [add_mul, one_mul] at hstop
  rw [List.mem_take_iff_getElem]
  refine ⟨p - i * limit, ?_, ?_⟩
  · rw [List.length_drop]
    omega
  · rw [List.getElem_drop]
    congr 1
    omega

/-- An entry on two pages is listed twice. -/
theorem not_nodup_flatMap {f : ℕ → List α} {u : α} (hi : i + 1 < pages) (hfirst : u ∈ f i)
    (hsecond : u ∈ f (i + 1)) : ¬ ((List.range pages).flatMap f).Nodup := by
  intro hnodup
  have hpairwise := (List.nodup_flatMap.mp hnodup).2
  have hdisjoint := List.pairwise_iff_getElem.mp hpairwise i (i + 1)
    (by rw [List.length_range]; omega) (by rwa [List.length_range]) (Nat.lt_succ_self i)
  simp only [List.getElem_range, Function.onFun] at hdisjoint
  exact hdisjoint hfirst hsecond

/-- Where a group straddles a boundary, some answers list an entry on both sides of it. -/
theorem exists_answers_of_straddles (hlimit : 0 < limit) (hcover : entries.length ≤ pages * limit)
    (hstraddles : Straddles key entries (i * limit)) :
    ∃ answers, Answers key entries answers ∧
      ¬ ((List.range pages).flatMap fun j => page limit j (answers j)).Nodup := by
  obtain ⟨x, -, hlow, hhigh⟩ := hstraddles
  obtain ⟨j, rfl⟩ : ∃ j, i = j + 1 := Nat.exists_eq_succ_of_ne_zero (by rintro rfl; omega)
  obtain ⟨p, hp⟩ : ∃ p, (j + 1) * limit = p + 1 := Nat.exists_eq_succ_of_ne_zero (by omega)
  rw [hp] at hlow hhigh
  obtain ⟨xs, hperm, horder⟩ : ∃ xs, xs.Perm entries ∧ InOrder key xs := by
    refine ⟨entries.mergeSort fun a b => key a ≤ key b, List.mergeSort_perm _ _, ?_⟩
    have hsorted := @List.pairwise_mergeSort _ (fun a b => decide (key a ≤ key b))
      (fun a b c => by simpa using le_trans) (fun a b => by simpa using le_total _ _) entries
    exact hsorted.imp fun h => by simpa using h
  have hlength : p + 1 < xs.length := by
    rw [hperm.length_eq]
    exact hhigh.trans_le List.countP_le_length
  -- The neighbours at the boundary have the key of the group.
  have hgroup : ∀ q (hq : q < xs.length), (entries.countP fun y => key y < key x) ≤ q →
      q < (entries.countP fun y => key y ≤ key x) → key xs[q] = key x := by
    intro q hq hge hlt
    rw [← hperm.countP_eq] at hge hlt
    apply le_antisymm ((horder.key_le_iff hq).mpr hlt)
    rw [← not_lt, horder.key_lt_iff hq]
    omega
  have hkey : key xs[p] = key xs[p + 1] :=
    (hgroup p (by omega) (by omega) (by omega)).trans (hgroup (p + 1) hlength hlow.le hhigh).symm
  have hsplit : xs = xs.take p ++ xs[p] :: xs[p + 1] :: xs.drop (p + 2) := by
    rw [← List.drop_eq_getElem_cons hlength, ← List.drop_eq_getElem_cons (by omega),
      List.take_append_drop]
  have hpages : j + 1 < pages := by
    rw [hperm.length_eq] at hlength
    have hlt : (j + 1) * limit < pages * limit := by omega
    exact lt_of_mul_lt_mul_right hlt limit.zero_le
  refine ⟨fun k => if k ≤ j then xs
    else xs.take p ++ xs[p + 1] :: xs[p] :: xs.drop (p + 2), ?_, ?_⟩
  · intro k
    dsimp only
    split
    · exact ⟨hperm, horder⟩
    · constructor
      · have hswap := (List.Perm.swap xs[p] xs[p + 1] (xs.drop (p + 2))).append_left (xs.take p)
        rw [← hsplit] at hswap
        exact hswap.trans hperm
      · rw [hsplit] at horder
        exact horder.swap hkey
  · apply @not_nodup_flatMap _ _ j _ xs[p] hpages
    · dsimp only
      rw [if_pos le_rfl]
      have hstart : j * limit ≤ p := by
        rw [add_mul, one_mul] at hp
        omega
      exact getElem_mem_page (by omega) hstart (by omega)
    · dsimp only
      rw [if_neg (by omega)]
      have hbefore : (xs.take p ++ [xs[p + 1]]).length = p + 1 := by
        rw [List.length_append, List.length_take_of_le (by omega), List.length_singleton]
      have hdrop : (xs.take p ++ xs[p + 1] :: xs[p] :: xs.drop (p + 2)).drop (p + 1) =
          xs[p] :: xs.drop (p + 2) := by
        rw [List.append_cons, List.drop_left' hbefore]
      unfold page
      rw [hp, hdrop]
      obtain ⟨l, rfl⟩ := Nat.exists_eq_succ_of_ne_zero hlimit.ne'
      rw [List.take_succ_cons]
      exact List.mem_cons_self

end Pages

end Lib

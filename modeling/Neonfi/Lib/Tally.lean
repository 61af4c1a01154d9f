import Mathlib.Algebra.BigOperators.Group.Finset.Basic
import Mathlib.Algebra.Group.Action.Defs
import Mathlib.Algebra.Order.BigOperators.Group.Finset
import Mathlib.Algebra.Order.Group.Defs
import Mathlib.Algebra.Field.Basic

/-!
# Keyed amounts

A tally keeps one sum for each key, in the order in which the keys came first.  `sumOnce` reads a
list of keyed amounts the other way: of each key only the first amount counts.
-/

namespace Lib

variable {κ M : Type*} [DecidableEq κ]

/-! ## Sums by key -/

namespace Tally

variable [AddCommMonoid M]

/-- Add to the sum of a key, which a new key starts at the end. -/
def add (k : κ) (v : M) : List (κ × M) → List (κ × M)
  | [] => [(k, v)]
  | (k', w) :: t => if k' = k then (k', w + v) :: t else (k', w) :: add k v t

def of (xs : List (κ × M)) : List (κ × M) := xs.foldl (fun t x => add x.1 x.2 t) []

/-- The sum of a key. -/
def get (t : List (κ × M)) (k : κ) : M := ((t.find? fun e => e.1 = k).map Prod.snd).getD 0

theorem sum_add (k : κ) (v : M) (t : List (κ × M)) :
    ((add k v t).map Prod.snd).sum = (t.map Prod.snd).sum + v := by
  induction t with
  | nil => simp [add]
  | cons e t ih =>
      obtain ⟨k', w⟩ := e
      unfold add
      split
      · rw [List.map_cons, List.sum_cons, List.map_cons, List.sum_cons, add_right_comm]
      · rw [List.map_cons, List.sum_cons, ih, List.map_cons, List.sum_cons, add_assoc]

/-- The sums of the keys add up to the sum of the amounts. -/
theorem sum_of (xs : List (κ × M)) : ((of xs).map Prod.snd).sum = (xs.map Prod.snd).sum := by
  have hfold : ∀ t : List (κ × M),
      ((xs.foldl (fun t x => add x.1 x.2 t) t).map Prod.snd).sum =
        (t.map Prod.snd).sum + (xs.map Prod.snd).sum := by
    induction xs with
    | nil => intro t; simp
    | cons x xs ih =>
        intro t
        rw [List.foldl_cons, ih, sum_add, List.map_cons, List.sum_cons, add_assoc]
  simpa [of] using hfold []

/-- What holds of a key's amounts and is kept by adding them holds of its sum. -/
theorem forall_add {P : κ → M → Prop} (hadd : ∀ k v w, P k v → P k w → P k (v + w)) {k : κ} {v : M}
    (hv : P k v) {t : List (κ × M)} (h : ∀ e ∈ t, P e.1 e.2) : ∀ e ∈ add k v t, P e.1 e.2 := by
  induction t with
  | nil =>
      intro e he
      rw [List.mem_singleton.mp he]
      exact hv
  | cons e t ih =>
      obtain ⟨k', w⟩ := e
      obtain ⟨hhead, htail⟩ := List.forall_mem_cons.mp h
      unfold add
      split
      · next heq =>
          refine List.forall_mem_cons.mpr ⟨hadd k' w v hhead (heq ▸ hv), htail⟩
      · exact List.forall_mem_cons.mpr ⟨hhead, ih htail⟩

theorem forall_of {P : κ → M → Prop} (hadd : ∀ k v w, P k v → P k w → P k (v + w))
    {xs : List (κ × M)} (h : ∀ x ∈ xs, P x.1 x.2) : ∀ e ∈ of xs, P e.1 e.2 := by
  have hfold : ∀ t : List (κ × M), (∀ e ∈ t, P e.1 e.2) →
      ∀ e ∈ xs.foldl (fun t x => add x.1 x.2 t) t, P e.1 e.2 := by
    induction xs with
    | nil => exact fun t ht => ht
    | cons x xs ih =>
        intro t ht
        obtain ⟨hhead, htail⟩ := List.forall_mem_cons.mp h
        exact ih htail _ (forall_add hadd hhead ht)
  exact hfold [] (by simp)

theorem key_mem_add {k k' : κ} {v : M} {t : List (κ × M)}
    (h : k' = k ∨ k' ∈ t.map Prod.fst) : k' ∈ (add k v t).map Prod.fst := by
  induction t with
  | nil => simpa [add] using h
  | cons e t ih =>
      obtain ⟨k'', w⟩ := e
      unfold add
      split
      · next heq =>
          rw [List.map_cons, List.mem_cons] at h ⊢
          rcases h with rfl | h
          · exact .inl heq.symm
          · exact h
      · rw [List.map_cons, List.mem_cons] at h ⊢
        rcases h with h | h | h
        · exact .inr (ih (.inl h))
        · exact .inl h
        · exact .inr (ih (.inr h))

/-- Every key has a sum. -/
theorem key_mem_of {xs : List (κ × M)} {x : κ × M} (hx : x ∈ xs) :
    x.1 ∈ (of xs).map Prod.fst := by
  have hfold : ∀ t : List (κ × M), x ∈ xs ∨ x.1 ∈ t.map Prod.fst →
      x.1 ∈ (xs.foldl (fun t x => add x.1 x.2 t) t).map Prod.fst := by
    clear hx
    induction xs with
    | nil => simp
    | cons y ys ih =>
        intro t h
        rw [List.foldl_cons]
        refine ih _ ?_
        rcases h with h | h
        · rcases List.mem_cons.mp h with rfl | h
          · exact .inr (key_mem_add (.inl rfl))
          · exact .inl h
        · exact .inr (key_mem_add (.inr h))
  exact hfold [] (.inl hx)

end Tally

/-! ## Amounts of either sign -/

section

variable {α G : Type*} [AddCommGroup G] [LinearOrder G] {f : α → G}

theorem sum_filter_pos_add_neg (xs : List α) :
    ((xs.filter fun x => 0 < f x).map f).sum + ((xs.filter fun x => f x < 0).map f).sum =
      (xs.map f).sum := by
  induction xs with
  | nil => simp
  | cons x xs ih =>
      rcases lt_trichotomy (f x) 0 with hx | hx | hx
      · simp [hx, hx.not_gt, ← ih, add_left_comm]
      · simp [hx, ih]
      · simp [hx, hx.not_gt, ← ih, add_assoc]

variable [IsOrderedAddMonoid G]

theorem sum_filter_neg_nonpos (xs : List α) : ((xs.filter fun x => f x < 0).map f).sum ≤ 0 := by
  induction xs with
  | nil => simp
  | cons x xs ih =>
      by_cases hx : f x < 0
      · simpa [hx] using add_nonpos hx.le ih
      · simpa [hx] using ih

/-- The negative amounts add up to nothing only when there are none. -/
theorem sum_filter_neg_eq_zero_iff (xs : List α) :
    ((xs.filter fun x => f x < 0).map f).sum = 0 ↔ ∀ x ∈ xs, 0 ≤ f x := by
  induction xs with
  | nil => simp
  | cons x xs ih =>
      have hrest := @sum_filter_neg_nonpos _ _ _ _ f _ xs
      rw [List.forall_mem_cons, ← ih, List.filter_cons]
      by_cases hx : f x < 0
      · simp only [hx, decide_true, if_true, List.map_cons, List.sum_cons]
        refine ⟨fun h => absurd h ?_, fun h => absurd h.1 hx.not_ge⟩
        exact (add_neg_of_neg_of_nonpos hx hrest).ne
      · simp [hx, le_of_not_gt hx]

/-- The positive amounts are the whole sum exactly when no amount is negative. -/
theorem sum_filter_pos_eq_iff (xs : List α) :
    ((xs.filter fun x => 0 < f x).map f).sum = (xs.map f).sum ↔ ∀ x ∈ xs, 0 ≤ f x := by
  rw [← sum_filter_neg_eq_zero_iff, ← sum_filter_pos_add_neg xs, left_eq_add]

/-- Shares of a total. -/
theorem sum_shares {K : Type*} [Field K] {f : α → K} (xs : List α) (total whole : K) :
    (xs.map fun x => f x / total * whole).sum = (xs.map f).sum / total * whole := by
  induction xs with
  | nil => simp
  | cons x xs ih => simp only [List.map_cons, List.sum_cons, ih, add_div, add_mul]

end

/-! ## The first amount of each key -/

/-- The sum of the amounts, of each key that is not among the seen ones the first. -/
def sumOnce : List κ → List (κ × ℕ) → ℕ
  | _, [] => 0
  | seen, (k, n) :: xs => if k ∈ seen then sumOnce seen xs else n + sumOnce (k :: seen) xs

theorem sumOnce_cons (seen : List κ) (k : κ) (n : ℕ) (xs : List (κ × ℕ)) :
    sumOnce seen ((k, n) :: xs) =
      if k ∈ seen then sumOnce seen xs else n + sumOnce (k :: seen) xs := rfl

/-- Equal keys have equal amounts. -/
def Consistent (xs : List (κ × ℕ)) : Prop := ∀ x ∈ xs, ∀ y ∈ xs, x.1 = y.1 → x.2 = y.2

theorem sumOnce_eq {f : κ → ℕ} {xs : List (κ × ℕ)} (h : ∀ x ∈ xs, x.2 = f x.1) (seen : List κ) :
    sumOnce seen xs = ∑ k ∈ (xs.map Prod.fst).toFinset \ seen.toFinset, f k := by
  induction xs generalizing seen with
  | nil => simp [sumOnce]
  | cons x xs ih =>
      obtain ⟨k, n⟩ := x
      obtain ⟨hhead, htail⟩ := List.forall_mem_cons.mp h
      change n = f k at hhead
      unfold sumOnce
      rw [List.map_cons, List.toFinset_cons]
      split
      · next hseen =>
          rw [ih htail, Finset.insert_sdiff_of_mem _ (List.mem_toFinset.mpr hseen)]
      · next hseen =>
          rw [ih htail, hhead, List.toFinset_cons,
            Finset.insert_sdiff_of_notMem _ (mt List.mem_toFinset.mp hseen),
            ← Finset.sum_insert (by simp)]
          congr 1
          ext j
          simp only [Finset.mem_insert, Finset.mem_sdiff, List.mem_toFinset, not_or]
          tauto

/-- The amount of a key. -/
def amountOf (xs : List (κ × ℕ)) (k : κ) : ℕ := ((xs.find? fun x => x.1 = k).map Prod.snd).getD 0

theorem Consistent.eq_amountOf {xs : List (κ × ℕ)} (h : Consistent xs) :
    ∀ x ∈ xs, x.2 = amountOf xs x.1 := by
  intro x hx
  unfold amountOf
  cases hfind : xs.find? fun y => y.1 = x.1 with
  | none => exact absurd (List.find?_eq_none.mp hfind x hx) (by simp)
  | some y =>
      have hkey : y.1 = x.1 := by simpa using List.find?_some hfind
      exact h x hx y (List.mem_of_find?_eq_some hfind) hkey.symm

theorem Consistent.sumOnce_eq {xs : List (κ × ℕ)} (h : Consistent xs) :
    sumOnce [] xs = ∑ k ∈ (xs.map Prod.fst).toFinset, amountOf xs k := by
  rw [Lib.sumOnce_eq h.eq_amountOf, List.toFinset_nil, Finset.sdiff_empty]

/-- With equal amounts the sum does not depend on the order. -/
theorem Consistent.sumOnce_perm {xs ys : List (κ × ℕ)} (h : Consistent xs) (hys : ys.Perm xs) :
    sumOnce [] ys = sumOnce [] xs := by
  have hkeys : (ys.map Prod.fst).toFinset = (xs.map Prod.fst).toFinset :=
    List.toFinset_eq_of_perm _ _ (hys.map Prod.fst)
  rw [h.sumOnce_eq, ← hkeys,
    Lib.sumOnce_eq (fun y hy => h.eq_amountOf y (hys.mem_iff.mp hy)), List.toFinset_nil,
    Finset.sdiff_empty]

/-- Of two amounts of one key the first counts. -/
theorem sumOnce_pair (k : κ) (n m : ℕ) (xs : List (κ × ℕ)) :
    sumOnce [] ((k, n) :: (k, m) :: xs) = n + sumOnce [k] xs := by
  simp [sumOnce]

/-- Amounts that depend on a coarser key only count once for it exactly when none but zeros share
it. -/
theorem sum_image_eq_iff {ι : Type*} [DecidableEq ι] (s : Finset ι) (g : ι → κ) (f : κ → ℕ) :
    ∑ k ∈ s.image g, f k = ∑ i ∈ s, f (g i) ↔
      ∀ i ∈ s, ∀ j ∈ s, g i = g j → i = j ∨ f (g i) = 0 := by
  have hcard : ∀ k ∈ s.image g, 0 < {i ∈ s | g i = k}.card := by
    intro k hk
    obtain ⟨i, hi, hik⟩ := Finset.mem_image.mp hk
    exact Finset.card_pos.mpr ⟨i, Finset.mem_filter.mpr ⟨hi, hik⟩⟩
  simp only [Finset.sum_comp f g, smul_eq_mul]
  rw [Finset.sum_eq_sum_iff_of_le fun k hk => Nat.le_mul_of_pos_left (f k) (hcard k hk)]
  constructor
  · intro hterms i hi j hj hij
    have hterm := hterms (g i) (Finset.mem_image_of_mem g hi)
    by_cases hzero : f (g i) = 0
    · exact .inr hzero
    · have hone : {j ∈ s | g j = g i}.card = 1 :=
        (Nat.eq_of_mul_eq_mul_right (Nat.pos_of_ne_zero hzero) ((one_mul _).trans hterm)).symm
      exact .inl (Finset.card_le_one.mp hone.le i (by simp [hi]) j (by simp [hj, hij]))
  · intro hshared k hk
    obtain ⟨i, hi, rfl⟩ := Finset.mem_image.mp hk
    by_cases hzero : f (g i) = 0
    · rw [hzero, Nat.mul_zero]
    · have hone : {j ∈ s | g j = g i}.card ≤ 1 := by
        refine Finset.card_le_one.mpr fun j hj j' hj' => ?_
        obtain ⟨hj, hji⟩ := Finset.mem_filter.mp hj
        obtain ⟨hj', hji'⟩ := Finset.mem_filter.mp hj'
        exact (hshared j hj j' hj' (hji.trans hji'.symm)).resolve_right (hji ▸ hzero)
      rw [le_antisymm hone (hcard _ hk), Nat.one_mul]

end Lib

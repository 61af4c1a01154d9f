import Mathlib.Data.List.Basic
import Mathlib.Data.List.Nodup
import Mathlib.Logic.Function.Basic
import Neonfi.Lib.Run

/-!
# Values that are swapped for fresh ones

Every cell holds one value, which may be swapped for a fresh value as long as the cell is open.
Over any run each value is swapped once at most, and the values a cell has handed out form one
chain: each was swapped for the next, and only the last can still be swapped.
-/

namespace Lib

variable {κ α : Type*}

/-- The values of the open cells, and the values handed out and the swaps so far, in order. -/
structure Rotation (κ α : Type*) where
  current : κ → Option α
  handed : List (κ × α)
  swaps : List (κ × α × α)

namespace Rotation

inductive Act (κ α : Type*)
  | opens (k : κ) (a : α)
  | swap (k : κ) (old new : α)
  | close (ks : κ → Bool)
  | stay

section Entries

variable {β : Type*} [DecidableEq κ]

/-- The entries of one cell, in order. -/
def entriesOf (entries : List (κ × β)) (k : κ) : List β :=
  (entries.filter fun e => e.1 = k).map Prod.snd

variable {entries : List (κ × β)} {k : κ} {b : β}

theorem entriesOf_concat (e : κ × β) :
    entriesOf (entries ++ [e]) k = entriesOf entries k ++ if e.1 = k then [e.2] else [] := by
  unfold entriesOf
  rw [List.filter_append, List.map_append]
  by_cases h : e.1 = k <;> simp [h]

theorem mem_entriesOf_iff : b ∈ entriesOf entries k ↔ (k, b) ∈ entries := by
  unfold entriesOf
  simp

theorem entriesOf_eq_nil_iff : entriesOf entries k = [] ↔ ∀ e ∈ entries, e.1 ≠ k := by
  unfold entriesOf
  simp

end Entries

variable [DecidableEq κ]

/-- A cell is opened once; what is handed out is fresh. -/
inductive Step : Rotation κ α → Act κ α → Rotation κ α → Prop
  | opens {r : Rotation κ α} {k : κ} {a : α} (hk : ∀ e ∈ r.handed, e.1 ≠ k)
      (ha : a ∉ r.handed.map Prod.snd) :
      Step r (.opens k a)
        { r with
          current := Function.update r.current k (some a)
          handed := r.handed ++ [(k, a)] }
  | swap {r : Rotation κ α} {k : κ} {old new : α} (hold : r.current k = some old)
      (hnew : new ∉ r.handed.map Prod.snd) :
      Step r (.swap k old new)
        { current := Function.update r.current k (some new)
          handed := r.handed ++ [(k, new)]
          swaps := r.swaps ++ [(k, old, new)] }
  | close {r : Rotation κ α} {ks : κ → Bool} :
      Step r (.close ks) { r with current := fun k => if ks k then none else r.current k }
  | stay {r : Rotation κ α} : Step r .stay r

/-- The swaps of a cell lead from each value it has handed out to the next, and a value that was
swapped is spent. -/
structure Chained (r : Rotation κ α) : Prop where
  nodup : (r.handed.map Prod.snd).Nodup
  chain : ∀ k, entriesOf r.swaps k = (entriesOf r.handed k).zip (entriesOf r.handed k).tail
  last : ∀ k a, r.current k = some a → (entriesOf r.handed k).getLast? = some a
  swapped : ∀ e ∈ r.swaps, (e.1, e.2.1) ∈ r.handed
  spent : ∀ e ∈ r.swaps, ∀ k, r.current k ≠ some e.2.1
  single : (r.swaps.map fun e => e.2.1).Nodup

variable {r r' : Rotation κ α} {k : κ}

/-- A chain grows by a link from its last value. -/
theorem zip_tail_concat {as : List α} {a b : α} (h : as.getLast? = some a) :
    (as ++ [b]).zip (as ++ [b]).tail = as.zip as.tail ++ [(a, b)] := by
  obtain ⟨init, rfl⟩ := List.getLast?_eq_some_iff.mp h
  induction init with
  | nil => rfl
  | cons c init ih =>
      have hih := ih (by simp)
      cases init with
      | nil => rfl
      | cons d init =>
          simp only [List.cons_append, List.tail_cons, List.zip_cons_cons] at hih ⊢
          rw [hih]

namespace Chained

/-- A value is handed out by one cell. -/
theorem eq_of_mem (h : r.Chained) {j : κ} {a : α} (hk : (k, a) ∈ r.handed)
    (hj : (j, a) ∈ r.handed) : k = j :=
  congrArg Prod.fst (List.inj_on_of_nodup_map h.nodup hk hj rfl)

theorem mem_of_current (h : r.Chained) {a : α} (hcurrent : r.current k = some a) :
    (k, a) ∈ r.handed :=
  mem_entriesOf_iff.mp (List.mem_of_getLast? (h.last k a hcurrent))

omit [DecidableEq κ] in
theorem not_fresh_of_mem {a b : α} (hk : (k, a) ∈ r.handed) (hb : b ∉ r.handed.map Prod.snd) :
    a ≠ b := by
  rintro rfl
  exact hb (List.mem_map_of_mem hk)

theorem nodup_concat (h : r.Chained) {a : α} (ha : a ∉ r.handed.map Prod.snd) :
    ((r.handed ++ [(k, a)]).map Prod.snd).Nodup := by
  rw [List.map_append, List.map_singleton, ← List.concat_eq_append]
  exact h.nodup.concat ha

/-- What a cell has just handed out is its last value. -/
theorem last_concat (h : r.Chained) {j : κ} {a b : α}
    (hb : Function.update r.current k (some a) j = some b) :
    (entriesOf (r.handed ++ [(k, a)]) j).getLast? = some b := by
  rw [entriesOf_concat]
  by_cases hj : k = j
  · subst hj
    rw [Function.update_self] at hb
    rw [if_pos rfl, List.getLast?_concat, hb]
  · rw [Function.update_of_ne (Ne.symm hj)] at hb
    rw [if_neg hj, List.append_nil]
    exact h.last j b hb

theorem opens (h : r.Chained) {a : α} (hk : ∀ e ∈ r.handed, e.1 ≠ k)
    (ha : a ∉ r.handed.map Prod.snd) :
    Chained { r with
      current := Function.update r.current k (some a)
      handed := r.handed ++ [(k, a)] } where
  nodup := h.nodup_concat ha
  chain j := by
    rw [entriesOf_concat, h.chain j]
    by_cases hj : k = j
    · subst hj
      rw [entriesOf_eq_nil_iff.mpr hk, if_pos rfl]
      rfl
    · rw [if_neg hj, List.append_nil]
  last _ _ hb := h.last_concat hb
  swapped e he := List.mem_append_left _ (h.swapped e he)
  spent e he j := by
    dsimp only
    by_cases hj : j = k
    · subst hj
      rw [Function.update_self]
      intro heq
      exact not_fresh_of_mem (h.swapped e he) ha (Option.some.inj heq).symm
    · rw [Function.update_of_ne hj]
      exact h.spent e he j
  single := h.single

theorem swap (h : r.Chained) {old new : α} (hold : r.current k = some old)
    (hnew : new ∉ r.handed.map Prod.snd) :
    Chained { current := Function.update r.current k (some new)
              handed := r.handed ++ [(k, new)]
              swaps := r.swaps ++ [(k, old, new)] } where
  nodup := h.nodup_concat hnew
  chain j := by
    rw [entriesOf_concat, entriesOf_concat, h.chain j]
    by_cases hj : k = j
    · subst hj
      rw [if_pos rfl, if_pos rfl, zip_tail_concat (h.last k old hold)]
    · rw [if_neg hj, if_neg hj, List.append_nil, List.append_nil]
  last _ _ hb := h.last_concat hb
  swapped e he := by
    rcases List.mem_append.mp he with he | he
    · exact List.mem_append_left _ (h.swapped e he)
    · rw [List.mem_singleton.mp he]
      exact List.mem_append_left _ (h.mem_of_current hold)
  spent e he j := by
    dsimp only
    have hmem : (e.1, e.2.1) ∈ r.handed := by
      rcases List.mem_append.mp he with he | he
      · exact h.swapped e he
      · rw [List.mem_singleton.mp he]
        exact h.mem_of_current hold
    by_cases hj : j = k
    · subst hj
      rw [Function.update_self]
      intro heq
      exact not_fresh_of_mem hmem hnew (Option.some.inj heq).symm
    · rw [Function.update_of_ne hj]
      rcases List.mem_append.mp he with he | he
      · exact h.spent e he j
      · rw [List.mem_singleton.mp he]
        intro hcurrent
        exact hj (h.eq_of_mem (h.mem_of_current hcurrent) (h.mem_of_current hold))
  single := by
    rw [List.map_append, List.map_singleton, ← List.concat_eq_append]
    refine h.single.concat fun hmem => ?_
    obtain ⟨e, he, heq⟩ := List.mem_map.mp hmem
    exact h.spent e he k (heq ▸ hold)

theorem close (h : r.Chained) (ks : κ → Bool) :
    Chained { r with current := fun k => if ks k then none else r.current k } where
  nodup := h.nodup
  chain := h.chain
  last j b hb := by
    dsimp only at hb
    split at hb
    · cases hb
    · exact h.last j b hb
  swapped := h.swapped
  spent e he j := by
    dsimp only
    split
    · simp
    · exact h.spent e he j
  single := h.single

/-- Every step keeps the chains. -/
theorem step {act : Act κ α} (h : r.Chained) (hstep : Step r act r') : r'.Chained := by
  cases hstep with
  | opens hk ha => exact h.opens hk ha
  | swap hold hnew => exact h.swap hold hnew
  | close => exact h.close _
  | stay => exact h

theorem run {acts : List (Act κ α)} (h : r.Chained) (hrun : Run Step r acts r') : r'.Chained :=
  hrun.invariant (fun _ _ _ h hstep => h.step hstep) h

end Chained

/-- A cell that was closed stays closed, and nothing of it is swapped. -/
theorem run_of_closed {acts : List (Act κ α)} (hrun : Run Step r acts r')
    (hk : entriesOf r.handed k ≠ []) (hclosed : r.current k = none) :
    r'.current k = none ∧ entriesOf r'.swaps k = entriesOf r.swaps k := by
  induction hrun with
  | nil => exact ⟨hclosed, rfl⟩
  | cons hstep _ ih =>
      cases hstep with
      | @opens j a hj ha =>
          have hne : k ≠ j := by
            rintro rfl
            exact hk (entriesOf_eq_nil_iff.mpr hj)
          refine ih ?_ ?_
          · rw [entriesOf_concat]
            exact List.append_ne_nil_of_left_ne_nil hk _
          · dsimp only
            rw [Function.update_of_ne hne]
            exact hclosed
      | @swap j old new hold hnew =>
          have hne : k ≠ j := by
            rintro rfl
            rw [hclosed] at hold
            cases hold
          have hrest := ih (by
            rw [entriesOf_concat]
            exact List.append_ne_nil_of_left_ne_nil hk _) (by
            dsimp only
            rw [Function.update_of_ne hne]
            exact hclosed)
          rw [entriesOf_concat, if_neg (Ne.symm hne), List.append_nil] at hrest
          exact hrest
      | close =>
          refine ih hk ?_
          dsimp only
          split
          · rfl
          · exact hclosed
      | stay => exact ih hk hclosed

end Rotation

end Lib

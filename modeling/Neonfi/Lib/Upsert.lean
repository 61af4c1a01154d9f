import Mathlib.Data.Set.Basic

/-!
# Rows that are put and dropped

A put creates a row that is not there and changes one that is; a drop removes it.  Doing a list
of them twice leaves what doing it once leaves, when the changes absorb each other, a created
row already shows its own change, and a put that cannot create does not change either.
-/

namespace Lib

variable {ρ : Type*}

inductive RowOp (ρ : Type*)
  | put (create : Option ρ) (change : ρ → ρ)
  | drop

namespace RowOp

def run : RowOp ρ → Option ρ → Option ρ
  | put create _, none => create
  | put _ change, some r => some (change r)
  | drop, _ => none

/-- What the operation does to a row that is there and stays. -/
def change : RowOp ρ → ρ → ρ
  | put _ change => change
  | drop => id

def isDrop : RowOp ρ → Bool
  | put _ _ => false
  | drop => true

def changes (ops : List (RowOp ρ)) (r : ρ) : ρ := ops.foldl (fun r op => op.change r) r

end RowOp

/-- Changes that are closed under composition; one that is made again later absorbs the earlier
time. -/
structure Absorbing (S : Set (ρ → ρ)) : Prop where
  id_mem : id ∈ S
  comp_mem : ∀ f ∈ S, ∀ g ∈ S, g ∘ f ∈ S
  absorb : ∀ f ∈ S, ∀ g ∈ S, ∀ r, f (g (f r)) = f (g r)

/-- A put whose row shows its change, and that changes only where it could create. -/
def RowOp.Sound (S : Set (ρ → ρ)) : RowOp ρ → Prop
  | put create change =>
      change ∈ S ∧ (∀ r, create = some r → change r = r) ∧ (create = none → change = id)
  | drop => True

namespace RowOp

variable {S : Set (ρ → ρ)} {ops : List (RowOp ρ)}

theorem changes_mem (hS : Absorbing S) (hops : ∀ op ∈ ops, op.Sound S) : changes ops ∈ S := by
  induction ops with
  | nil => exact hS.id_mem
  | cons op ops ih =>
      have hfirst : op.change ∈ S := by
        cases op with
        | put create change => exact (hops _ List.mem_cons_self).1
        | drop => exact hS.id_mem
      exact hS.comp_mem _ hfirst _ (ih fun o ho => hops o (List.mem_cons_of_mem op ho))

/-- Puts keep a row that is there. -/
theorem run_some (hputs : ∀ op ∈ ops, op.isDrop = false) (r : ρ) :
    ops.foldl (fun r op => op.run r) (some r) = some (changes ops r) := by
  induction ops generalizing r with
  | nil => rfl
  | cons op ops ih =>
      have hrest := fun o ho => hputs o (List.mem_cons_of_mem op ho)
      cases op with
      | put create change => exact ih hrest (change r)
      | drop => cases hputs _ List.mem_cons_self

/-- Puts twice from no row. -/
theorem run_none (hS : Absorbing S) (hops : ∀ op ∈ ops, op.Sound S)
    (hputs : ∀ op ∈ ops, op.isDrop = false) :
    ops.foldl (fun r op => op.run r) (ops.foldl (fun r op => op.run r) none) =
      ops.foldl (fun r op => op.run r) none := by
  induction ops with
  | nil => rfl
  | cons op ops ih =>
      have hrest := fun o ho => hops o (List.mem_cons_of_mem op ho)
      have hrestPuts := fun o ho => hputs o (List.mem_cons_of_mem op ho)
      cases op with
      | drop => cases hputs _ List.mem_cons_self
      | put create change =>
          obtain ⟨hchange, hshows, hsame⟩ := hops _ List.mem_cons_self
          cases create with
          | none =>
              obtain rfl := hsame rfl
              have hpass : ∀ r : Option ρ, (put none id).run r = r := by
                intro r
                cases r <;> rfl
              rw [List.foldl_cons, List.foldl_cons, hpass, hpass]
              exact ih hrest hrestPuts
          | some r =>
              have hcreated : (put (some r) change).run none = some r := rfl
              rw [List.foldl_cons, List.foldl_cons, hcreated, run_some hrestPuts]
              show List.foldl _ (some (change (changes ops r))) ops = _
              rw [run_some hrestPuts, hS.absorb _ (changes_mem hS hrest) _ hchange,
                hshows r rfl]

/-- After a drop it does not matter what was there before. -/
theorem run_of_drop {op : RowOp ρ} (hmem : op ∈ ops) (hdrop : op.isDrop) (x y : Option ρ) :
    ops.foldl (fun r op => op.run r) x = ops.foldl (fun r op => op.run r) y := by
  induction ops generalizing x y with
  | nil => cases hmem
  | cons first ops ih =>
      rcases List.mem_cons.mp hmem with rfl | hmem
      · cases op with
        | put create change => cases hdrop
        | drop => rfl
      · exact ih hmem _ _

/-- Doing the operations twice is doing them once. -/
theorem run_run (hS : Absorbing S) (hops : ∀ op ∈ ops, op.Sound S) (x : Option ρ) :
    ops.foldl (fun r op => op.run r) (ops.foldl (fun r op => op.run r) x) =
      ops.foldl (fun r op => op.run r) x := by
  by_cases hdrop : ∃ op ∈ ops, op.isDrop = true
  · obtain ⟨op, hmem, hop⟩ := hdrop
    exact run_of_drop hmem hop _ _
  · have hputs : ∀ op ∈ ops, op.isDrop = false := by
      intro op hmem
      exact Bool.eq_false_iff.mpr fun hop => hdrop ⟨op, hmem, hop⟩
    cases x with
    | none => exact run_none hS hops hputs
    | some r =>
        have hid := hS.absorb _ (changes_mem hS hops) _ hS.id_mem r
        rw [run_some hputs, run_some hputs]
        exact congrArg some hid

end RowOp

/-! ## What changes keep -/

/-- The part of a list after the last element that satisfies `p`, if there is one. -/
def sinceLast {α : Type*} (p : α → Bool) : List α → Option (List α)
  | [] => none
  | a :: as => (sinceLast p as).or (if p a then some as else none)

section SinceLast

variable {α β : Type*} {p : α → Bool} {as bs rest : List α}

theorem sinceLast_eq_none_iff : sinceLast p as = none ↔ ∀ a ∈ as, p a = false := by
  induction as with
  | nil => simp [sinceLast]
  | cons a as ih => simp [sinceLast, ih, and_comm]

theorem sinceLast_eq_some (h : sinceLast p as = some rest) :
    (∀ a ∈ rest, p a = false) ∧ ∃ before a, p a = true ∧ as = before ++ a :: rest := by
  induction as with
  | nil => cases h
  | cons a as ih =>
      rw [sinceLast, Option.or_eq_some_iff] at h
      obtain h | ⟨hnone, h⟩ := h
      · obtain ⟨hrest, before, b, hb, rfl⟩ := ih h
        exact ⟨hrest, a :: before, b, hb, rfl⟩
      · split at h
        · next ha =>
            cases h
            exact ⟨sinceLast_eq_none_iff.mp hnone, [], a, ha, rfl⟩
        · cases h

theorem sinceLast_map {q : β → Bool} (f : α → β) :
    sinceLast q (as.map f) = (sinceLast (fun a => q (f a)) as).map (List.map f) := by
  induction as with
  | nil => rfl
  | cons a as ih =>
      rw [List.map_cons, sinceLast, sinceLast, ih]
      cases sinceLast (fun a => q (f a)) as with
      | some rest => rfl
      | none => cases q (f a) <;> rfl

theorem sinceLast_append_of_none (h : ∀ b ∈ bs, p b = false) :
    sinceLast p (as ++ bs) = (sinceLast p as).map (· ++ bs) := by
  induction as with
  | nil => exact sinceLast_eq_none_iff.mpr h
  | cons a as ih =>
      rw [List.cons_append, sinceLast, sinceLast, ih]
      cases sinceLast p as with
      | some rest => rfl
      | none => cases p a <;> rfl

end SinceLast

namespace RowOp

variable {β : Type*} {ops : List (RowOp ρ)} {f : ρ → β} {d : β}

/-- The put has a row to create. -/
def creates : RowOp ρ → Bool
  | put create _ => create.isSome
  | drop => false

/-- Changes keep the value of `f`, and a created row has the value `d`. -/
def Keeps (f : ρ → β) (d : β) : RowOp ρ → Prop
  | put create change => (∀ r, f (change r) = f r) ∧ ∀ r, create = some r → f r = d
  | drop => True

theorem run_eq_none_iff (hputs : ∀ op ∈ ops, op.isDrop = false) :
    ops.foldl (fun r op => op.run r) none = none ↔ ∀ op ∈ ops, op.creates = false := by
  induction ops with
  | nil => simp
  | cons op ops ih =>
      have hrest := fun o ho => hputs o (List.mem_cons_of_mem op ho)
      cases op with
      | drop => cases hputs _ List.mem_cons_self
      | put create change =>
          rw [List.foldl_cons, List.forall_mem_cons]
          cases create with
          | none =>
              change List.foldl _ none ops = none ↔ _
              rw [ih hrest]
              exact (and_iff_right rfl).symm
          | some r =>
              change List.foldl _ (some r) ops = none ↔ _
              rw [run_some hrest]
              simp [creates]

theorem value_of_run (hkeeps : ∀ op ∈ ops, op.Keeps f d) {x : Option ρ} {r : ρ}
    (h : ops.foldl (fun r op => op.run r) x = some r) :
    f r = d ∨ ∃ r₀, x = some r₀ ∧ f r = f r₀ := by
  induction ops generalizing x with
  | nil => exact .inr ⟨r, h, rfl⟩
  | cons op ops ih =>
      have hfirst := hkeeps op List.mem_cons_self
      rw [List.foldl_cons] at h
      obtain hd | ⟨r₁, hr₁, hvalue⟩ := ih (fun o ho => hkeeps o (List.mem_cons_of_mem op ho)) h
      · exact .inl hd
      · cases op with
        | drop => cases hr₁
        | put create change =>
            cases x with
            | none => exact .inl (hvalue.trans (hfirst.2 r₁ hr₁))
            | some r₀ =>
                cases hr₁
                exact .inr ⟨r₀, rfl, hvalue.trans (hfirst.1 r₀)⟩

theorem value_changes (hkeeps : ∀ op ∈ ops, op.Keeps f d) (hputs : ∀ op ∈ ops, op.isDrop = false)
    (r : ρ) : f (changes ops r) = f r := by
  induction ops generalizing r with
  | nil => rfl
  | cons op ops ih =>
      have hrest := fun r => ih (fun o ho => hkeeps o (List.mem_cons_of_mem op ho))
        (fun o ho => hputs o (List.mem_cons_of_mem op ho)) r
      cases op with
      | drop => cases hputs _ List.mem_cons_self
      | put create change =>
          exact (hrest _).trans ((hkeeps _ List.mem_cons_self).1 r)

/-- A row that is still there has kept its value exactly when it was not dropped and created
again. -/
theorem kept_iff (hkeeps : ∀ op ∈ ops, op.Keeps f d) {r : ρ} (hr : f r ≠ d) :
    (∀ r', ops.foldl (fun r op => op.run r) (some r) = some r' → f r' = f r) ↔
      ∀ rest, sinceLast isDrop ops = some rest → ∀ op ∈ rest, op.creates = false := by
  cases hlast : sinceLast isDrop ops with
  | none =>
      have hputs := sinceLast_eq_none_iff.mp hlast
      refine ⟨fun _ => nofun, fun _ r' hr' => ?_⟩
      rw [run_some hputs] at hr'
      cases hr'
      exact value_changes hkeeps hputs r
  | some rest =>
      obtain ⟨hputs, before, op, hop, rfl⟩ := sinceLast_eq_some hlast
      have hrun : (before ++ op :: rest).foldl (fun r op => op.run r) (some r) =
          rest.foldl (fun r op => op.run r) none := by
        cases op with
        | put create change => cases hop
        | drop =>
            rw [List.foldl_append, List.foldl_cons]
            rfl
      have hkeepsRest : ∀ o ∈ rest, o.Keeps f d := fun o ho =>
        hkeeps o (List.mem_append_right _ (List.mem_cons_of_mem op ho))
      rw [hrun]
      constructor
      · intro hsame rest' hrest'
        cases hrest'
        rw [← run_eq_none_iff hputs, Option.eq_none_iff_forall_ne_some]
        intro r' hr'
        obtain hd | ⟨r₀, hr₀, -⟩ := value_of_run hkeepsRest hr'
        · exact hr ((hsame r' hr').symm.trans hd)
        · cases hr₀
      · intro hnone r' hr'
        rw [(run_eq_none_iff hputs).mpr (hnone rest rfl)] at hr'
        cases hr'

end RowOp

end Lib

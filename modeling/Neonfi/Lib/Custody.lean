import Mathlib.Data.List.Basic

/-!
# Items in one hand at a time

`H k v x` says that `x` holds the item `k`, whose value is `v`.  An item that is issued once and
passed on stays in one hand, with the value it was issued with.
-/

namespace Lib

variable {κ ν χ : Type*}

structure Kept (issued : List (κ × ν)) (H : κ → ν → χ → Prop) : Prop where
  alone : ∀ {k v v' x x'}, H k v x → H k v' x' → x = x' ∧ v = v'
  issued : ∀ {k v x}, H k v x → (k, v) ∈ issued

namespace Kept

variable {issued : List (κ × ν)} {H H' : κ → ν → χ → Prop}

theorem none (h : ∀ k v x, ¬ H k v x) : Kept issued H where
  alone := fun hx => absurd hx (h _ _ _)
  issued := fun hx => absurd hx (h _ _ _)

/-- `x₀` passes the item `k₀` to `x₁`; items may be lost besides. -/
theorem pass (h : Kept issued H) {k₀ : κ} {x₀ x₁ : χ}
    (hpass : ∀ k v x, H' k v x →
      k = k₀ ∧ x = x₁ ∧ H k v x₀ ∨ H k v x ∧ ¬ (k = k₀ ∧ x = x₀)) : Kept issued H' where
  alone := by
    intro k v v' x x' hx hx'
    rcases hpass k v x hx with ⟨hk, rfl, hheld⟩ | ⟨hheld, hother⟩
    · rcases hpass k v' x' hx' with ⟨-, rfl, hheld'⟩ | ⟨hheld', hother'⟩
      · exact ⟨rfl, (h.alone hheld hheld').2⟩
      · exact absurd ⟨hk, (h.alone hheld' hheld).1⟩ hother'
    · rcases hpass k v' x' hx' with ⟨hk, rfl, hheld'⟩ | ⟨hheld', hother'⟩
      · exact absurd ⟨hk, (h.alone hheld hheld').1⟩ hother
      · exact h.alone hheld hheld'
  issued := by
    intro k v x hx
    rcases hpass k v x hx with ⟨-, -, hheld⟩ | ⟨hheld, -⟩
    · exact h.issued hheld
    · exact h.issued hheld

theorem sub (h : Kept issued H) (hsub : ∀ k v x, H' k v x → H k v x) : Kept issued H' where
  alone := fun hx hx' => h.alone (hsub _ _ _ hx) (hsub _ _ _ hx')
  issued := fun hx => h.issued (hsub _ _ _ hx)

/-- A new item is put in one hand. -/
theorem issue (h : Kept issued H) {k₀ : κ} {v₀ : ν} {x₀ : χ} (hfresh : ∀ v, (k₀, v) ∉ issued)
    (hnew : ∀ k v x, H' k v x → k = k₀ ∧ v = v₀ ∧ x = x₀ ∨ H k v x) :
    Kept ((k₀, v₀) :: issued) H' where
  alone := by
    intro k v v' x x' hx hx'
    rcases hnew k v x hx with ⟨rfl, rfl, rfl⟩ | hheld
    · rcases hnew _ v' x' hx' with ⟨-, rfl, rfl⟩ | hheld'
      · exact ⟨rfl, rfl⟩
      · exact absurd (h.issued hheld') (hfresh v')
    · rcases hnew k v' x' hx' with ⟨rfl, rfl, rfl⟩ | hheld'
      · exact absurd (h.issued hheld) (hfresh v)
      · exact h.alone hheld hheld'
  issued := by
    intro k v x hx
    rcases hnew k v x hx with ⟨rfl, rfl, -⟩ | hheld
    · exact List.mem_cons_self
    · exact List.mem_cons_of_mem _ (h.issued hheld)

end Kept

end Lib

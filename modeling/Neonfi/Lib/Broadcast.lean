import Mathlib.Data.List.Infix
import Mathlib.Data.Set.Basic
import Neonfi.Lib.Run

/-!
# Broadcast to listeners that come and go

A message that is published reaches the inbox of everyone who listens.  A listener joins once and
may leave for good, so its inbox is a segment of what was published.
-/

namespace Lib

variable {ι μ : Type*}

/-- `members` are those who have ever joined. -/
structure Board (ι μ : Type*) where
  log : List μ
  inbox : ι → List μ
  listeners : Set ι
  members : Set ι

namespace Board

/-- Who listens already may leave, and who never joined may join. -/
structure Moves (b b' : Board ι μ) : Prop where
  log : b'.log = b.log
  inbox : b'.inbox = b.inbox
  members : b.members ⊆ b'.members
  stays : ∀ i ∈ b.members, i ∈ b'.listeners → i ∈ b.listeners
  joined : b'.listeners ⊆ b'.members

structure Publishes (m : μ) (b b' : Board ι μ) : Prop where
  log : b'.log = b.log ++ [m]
  listeners : b'.listeners = b.listeners
  members : b'.members = b.members
  hears : ∀ i ∈ b.listeners, b'.inbox i = b.inbox i ++ [m]
  deaf : ∀ i ∉ b.listeners, b'.inbox i = b.inbox i

/-- A step publishes the message it is labelled with, if there is one. -/
def Steps (b : Board ι μ) (m : Option μ) (b' : Board ι μ) : Prop :=
  match m with
  | none => Moves b b'
  | some m => Publishes m b b'

/-- Nobody has received what was not published, or has missed what was published meanwhile. -/
structure Sound (b : Board ι μ) : Prop where
  joined : b.listeners ⊆ b.members
  unread : ∀ i ∉ b.members, b.inbox i = []
  segment : ∀ i, b.inbox i <:+: b.log
  upToDate : ∀ i ∈ b.listeners, b.inbox i <:+ b.log

variable {b b' : Board ι μ} {m : Option μ} {ms : List (Option μ)}

theorem Sound.moves (h : Sound b) (hstep : Moves b b') : Sound b' where
  joined := hstep.joined
  unread := by
    intro i hi
    rw [hstep.inbox]
    exact h.unread i fun hmem => hi (hstep.members hmem)
  segment := by
    intro i
    rw [hstep.inbox, hstep.log]
    exact h.segment i
  upToDate := by
    intro i hi
    rw [hstep.inbox, hstep.log]
    by_cases hmem : i ∈ b.members
    · exact h.upToDate i (hstep.stays i hmem hi)
    · rw [h.unread i hmem]
      exact List.nil_suffix

theorem Sound.publishes {m : μ} (h : Sound b) (hstep : Publishes m b b') : Sound b' where
  joined := by
    rw [hstep.listeners, hstep.members]
    exact h.joined
  unread := by
    intro i hi
    rw [hstep.members] at hi
    rw [hstep.deaf i fun hlisten => hi (h.joined hlisten)]
    exact h.unread i hi
  segment := by
    intro i
    rw [hstep.log]
    by_cases hlisten : i ∈ b.listeners
    · rw [hstep.hears i hlisten]
      obtain ⟨before, hbefore⟩ := h.upToDate i hlisten
      exact ⟨before, [], by rw [← hbefore, List.append_nil, List.append_assoc]⟩
    · rw [hstep.deaf i hlisten]
      exact (h.segment i).trans (List.prefix_append b.log [m]).isInfix
  upToDate := by
    intro i hi
    rw [hstep.listeners] at hi
    rw [hstep.log, hstep.hears i hi]
    obtain ⟨before, hbefore⟩ := h.upToDate i hi
    exact ⟨before, by rw [← hbefore, List.append_assoc]⟩

theorem Sound.step (h : Sound b) (hstep : Steps b m b') : Sound b' := by
  cases m with
  | none => exact h.moves hstep
  | some m => exact h.publishes hstep

theorem Sound.run (h : Sound b) (hrun : Run Steps b ms b') : Sound b' :=
  hrun.invariant (fun _ _ _ hs hstep => hs.step hstep) h

theorem members_step (hstep : Steps b m b') : b.members ⊆ b'.members := by
  cases m with
  | none => exact Moves.members hstep
  | some m => exact (Publishes.members hstep).ge

theorem log_run (hrun : Run Steps b ms b') : b'.log = b.log ++ ms.filterMap id := by
  induction hrun with
  | nil => rw [List.filterMap_nil, List.append_nil]
  | @cons _ _ _ m _ hstep _ ih =>
      rw [ih]
      cases m with
      | none =>
          rw [Moves.log hstep]
          rfl
      | some m =>
          rw [Publishes.log hstep, List.append_assoc]
          rfl

/-- Along a run a member receives a prefix of what is published: all of it while it listens, and
nothing once it has left. -/
theorem received_run (h : Sound b) (hrun : Run Steps b ms b') {i : ι} (hi : i ∈ b.members) :
    ∃ got, got <+: ms.filterMap id ∧ b'.inbox i = b.inbox i ++ got ∧
      (i ∈ b'.listeners → i ∈ b.listeners ∧ got = ms.filterMap id) ∧
      (i ∉ b.listeners → got = []) := by
  induction hrun with
  | nil b => exact ⟨[], List.prefix_rfl, (List.append_nil _).symm, fun hl => ⟨hl, rfl⟩, fun _ => rfl⟩
  | @cons b b₁ b' m ms hstep _ ih =>
      obtain ⟨got, hprefix, hinbox, hall, hnone⟩ := ih (h.step hstep) (members_step hstep hi)
      cases m with
      | none =>
          have hstays := Moves.stays hstep i hi
          rw [Moves.inbox hstep] at hinbox
          exact ⟨got, hprefix, hinbox, fun hl => ⟨hstays (hall hl).1, (hall hl).2⟩,
            fun hl => hnone fun hl₁ => hl (hstays hl₁)⟩
      | some m =>
          rw [Publishes.listeners hstep] at hall hnone
          by_cases hl : i ∈ b.listeners
          · refine ⟨m :: got, ?_, ?_, fun hl' => ⟨hl, ?_⟩, fun hnot => absurd hl hnot⟩
            · exact List.cons_prefix_cons.mpr ⟨rfl, hprefix⟩
            · rw [hinbox, Publishes.hears hstep i hl, List.append_assoc]
              rfl
            · exact congrArg (m :: ·) (hall hl').2
          · obtain rfl := hnone hl
            refine ⟨[], List.nil_prefix, ?_, fun hl' => absurd (hall hl').1 hl, fun _ => rfl⟩
            rw [hinbox, Publishes.deaf hstep i hl]

/-- Who joins during a run receives a segment of what the run publishes. -/
theorem unread_run (h : Sound b) (hrun : Run Steps b ms b') {i : ι} (hi : i ∉ b.members) :
    b'.inbox i <:+: ms.filterMap id := by
  induction hrun with
  | nil b =>
      rw [h.unread i hi]
      exact List.nil_infix
  | @cons b b₁ b' m ms hstep hrest ih =>
      cases m with
      | none =>
          by_cases hjoins : i ∈ b₁.members
          · obtain ⟨got, hprefix, hinbox, -⟩ := received_run (h.step hstep) hrest hjoins
            rw [hinbox, Moves.inbox hstep, h.unread i hi]
            exact hprefix.isInfix
          · exact ih (h.step hstep) hjoins
      | some m =>
          have hsame := ih (h.step hstep) ((Publishes.members hstep).symm ▸ hi)
          exact hsame.trans (List.suffix_cons m _).isInfix

end Board

end Lib

import Neonfi.Billing.Handlers
import Neonfi.Lib.Run

/-!
# Deliveries of one event

`processWebhookEvent` claims the event id, runs the handler and releases the claim when the
handler fails.  Stripe sends the event again until a delivery is answered 200.  Deliveries
interleave in any order, and each may be lost with its process at any point.
-/

namespace Neonfi.Billing

open Lib

/-! ## The steps of a delivery -/

/-- Where a delivery stands: the signature is verified; the handler runs; the handler failed
and the claim is to be released; a status is to be sent; nothing is left to do. -/
inductive Phase
  | arrived
  | dispatching
  | releasing
  | replying (status : ℕ)
  | closed
  deriving DecidableEq, Repr

/-- All deliveries of one event: the claim in Redis, the tables, whether Stripe has received
a 200, and whether the handler has run to success. -/
structure Inbox where
  claimed : Bool
  db : Db
  deliveries : List Phase
  acknowledged : Bool
  succeeded : Bool

/-- `i` is the delivery that takes the step. -/
inductive InboxAction
  | send
  | claim (i : ℕ)
  | dispatch (i : ℕ) (api : StripeApi)
  | fail (i : ℕ)
  | release (i : ℕ) (reached : Bool)
  | reply (i : ℕ)
  | crash (i : ℕ)
  | expire

def Inbox.start (db : Db) : Inbox where
  claimed := false
  db := db
  deliveries := []
  acknowledged := false
  succeeded := false

def Inbox.move (i : ℕ) (phase : Phase) (inbox : Inbox) : Inbox :=
  { inbox with deliveries := inbox.deliveries.set i phase }

/-- `SET NX` of the claim: a duplicate is answered 200. -/
def Inbox.claim (i : ℕ) (inbox : Inbox) : Inbox :=
  if inbox.claimed then inbox.move i (.replying 200)
  else { inbox.move i .dispatching with claimed := true }

/-- The handler returns or throws. -/
def Inbox.dispatch (event : StripeEvent) (i : ℕ) (api : StripeApi) (inbox : Inbox) : Inbox :=
  match Billing.dispatch api event inbox.db with
  | .ok db => { inbox.move i (.replying 200) with db, succeeded := true }
  | .error _ => inbox.move i .releasing

/-- The errors of the `DEL` are swallowed. -/
def Inbox.release (i : ℕ) (reached : Bool) (inbox : Inbox) : Inbox :=
  { inbox.move i (.replying 500) with claimed := inbox.claimed && !reached }

def Inbox.step (event : StripeEvent) (inbox : Inbox) : InboxAction → Option Inbox
  | .send =>
      if inbox.acknowledged then none
      else some { inbox with deliveries := inbox.deliveries ++ [.arrived] }
  | .claim i =>
      if inbox.deliveries[i]? = some .arrived then some (inbox.claim i) else none
  | .dispatch i api =>
      if inbox.deliveries[i]? = some .dispatching then some (inbox.dispatch event i api) else none
  | .fail i =>
      if inbox.deliveries[i]? = some .dispatching then some (inbox.move i .releasing) else none
  | .release i reached =>
      if inbox.deliveries[i]? = some .releasing then some (inbox.release i reached) else none
  | .reply i =>
      match inbox.deliveries[i]? with
      | some (.replying status) =>
          some { inbox.move i .closed with
            acknowledged := inbox.acknowledged || status == 200 }
      | _ => none
  | .crash i => some (inbox.move i .closed)
  | .expire => some { inbox with claimed := false }

def Delivers (event : StripeEvent) (inbox : Inbox) (action : InboxAction)
    (inbox' : Inbox) : Prop :=
  inbox.step event action = some inbox'

/-! ## What an answer promises -/

namespace Inbox

variable (inbox : Inbox)

/-- Delivery `i` runs the handler. -/
def Running (i : ℕ) : Prop := inbox.deliveries[i]? = some .dispatching

/-- Stripe has received a 200, or is about to. -/
def Promised : Prop :=
  inbox.acknowledged = true ∨ ∃ i : ℕ, inbox.deliveries[i]? = some (.replying 200)

/-- A promised success has happened, or a handler still works on it. -/
def Kept : Prop :=
  inbox.Promised → inbox.succeeded = true ∨ ∃ i, inbox.Running i

/-- The promise does not hang on delivery `i` alone. -/
def Spares (i : ℕ) : Prop :=
  inbox.Promised → inbox.succeeded = true ∨ ∃ j ≠ i, inbox.Running j

/-- Every delivery is over. -/
def Ended : Prop := ∀ phase ∈ inbox.deliveries, phase = .closed

end Inbox

/-- A duplicate is answered only while the handler runs or after it succeeded, and no handler
that a 200 relies on fails or is lost. -/
def KeepsPromise (event : StripeEvent) (inbox : Inbox) : InboxAction → Prop
  | .claim _ => inbox.claimed = true → inbox.succeeded = true ∨ ∃ j, inbox.Running j
  | .dispatch i api => (∃ db, dispatch api event inbox.db = .ok db) ∨ inbox.Spares i
  | .fail i => inbox.Spares i
  | .crash i => inbox.Spares i
  | _ => True

/-! ## One delivery moves -/

section Move

variable {inbox : Inbox} {i j : ℕ} {phase : Phase}

theorem deliveries_move_self (h : inbox.deliveries[i]?.isSome) :
    (inbox.move i phase).deliveries[i]? = some phase := by
  unfold Inbox.move
  dsimp only
  rw [List.getElem?_set_self']
  cases hi : inbox.deliveries[i]? with
  | none =>
      rw [hi] at h
      cases h
  | some _ => rfl

theorem deliveries_move_of_ne (h : j ≠ i) :
    (inbox.move i phase).deliveries[j]? = inbox.deliveries[j]? := by
  unfold Inbox.move
  exact List.getElem?_set_ne h.symm

/-- A delivery that does not run the handler takes nothing away by moving on. -/
theorem running_move {old : Phase} (hi : inbox.deliveries[i]? = some old)
    (hold : old ≠ .dispatching) (h : inbox.Running j) : (inbox.move i phase).Running j := by
  have hne : j ≠ i := by
    intro heq
    unfold Inbox.Running at h
    rw [heq, hi] at h
    exact hold (Option.some.inj h)
  unfold Inbox.Running
  rw [deliveries_move_of_ne hne]
  exact h

/-- Moving on to anything but a 200 promises nothing new. -/
theorem promised_of_move {inbox' : Inbox} (hphase : phase ≠ .replying 200)
    (hdeliveries : inbox'.deliveries = (inbox.move i phase).deliveries)
    (hack : inbox'.acknowledged = true → inbox.Promised) (h : inbox'.Promised) :
    inbox.Promised := by
  rcases h with hacked | ⟨j, hj⟩
  · exact hack hacked
  · rw [hdeliveries] at hj
    refine .inr ⟨j, ?_⟩
    by_cases hne : j = i
    · subst hne
      unfold Inbox.move at hj
      dsimp only at hj
      rw [List.getElem?_set_self'] at hj
      cases hold : inbox.deliveries[j]? with
      | none =>
          rw [hold] at hj
          cases hj
      | some old =>
          rw [hold] at hj
          exact absurd (Option.some.inj hj) hphase
    · rwa [deliveries_move_of_ne hne] at hj

/-- A delivery that is spared may stop. -/
theorem kept_of_spares {inbox' : Inbox} (hphase : phase ≠ .replying 200)
    (hdeliveries : inbox'.deliveries = (inbox.move i phase).deliveries)
    (hack : inbox'.acknowledged = inbox.acknowledged)
    (hsucceeded : inbox'.succeeded = inbox.succeeded) (h : inbox.Spares i) : inbox'.Kept := by
  intro hpromised
  rcases h (promised_of_move hphase hdeliveries (fun h => .inl (hack ▸ h)) hpromised) with
    hdone | ⟨j, hne, hj⟩
  · exact .inl (hsucceeded.trans hdone)
  · refine .inr ⟨j, ?_⟩
    unfold Inbox.Running
    rw [hdeliveries, deliveries_move_of_ne hne]
    exact hj

/-- A delivery that does not run the handler moves on. -/
theorem Inbox.Kept.move {inbox' : Inbox} (h : inbox.Kept) {old : Phase}
    (hi : inbox.deliveries[i]? = some old) (hold : old ≠ .dispatching)
    (hphase : phase ≠ .replying 200)
    (hdeliveries : inbox'.deliveries = (inbox.move i phase).deliveries)
    (hack : inbox'.acknowledged = true → inbox.Promised)
    (hsucceeded : inbox'.succeeded = inbox.succeeded) : inbox'.Kept := by
  intro hpromised
  rcases h (promised_of_move hphase hdeliveries hack hpromised) with hdone | ⟨j, hj⟩
  · exact .inl (hsucceeded.trans hdone)
  · refine .inr ⟨j, ?_⟩
    unfold Inbox.Running
    rw [hdeliveries]
    exact running_move hi hold hj

end Move

/-! ## Runs -/

/-- One step keeps every promise. -/
theorem Inbox.Kept.step {event : StripeEvent} {inbox inbox' : Inbox} {action : InboxAction}
    (h : inbox.Kept) (hstep : Delivers event inbox action inbox')
    (hkeeps : KeepsPromise event inbox action) : inbox'.Kept := by
  unfold Delivers Inbox.step at hstep
  cases action with
  | send =>
      dsimp only at hstep
      split at hstep
      · cases hstep
      · cases hstep
        intro hpromised
        have hbefore : inbox.Promised := by
          rcases hpromised with hacked | ⟨j, hj⟩
          · exact .inl hacked
          · refine .inr ⟨j, ?_⟩
            dsimp only at hj
            rw [List.getElem?_append] at hj
            split at hj
            · exact hj
            · have hnew := List.mem_of_getElem? hj
              rw [List.mem_singleton] at hnew
              cases hnew
        rcases h hbefore with hdone | ⟨j, hj⟩
        · exact .inl hdone
        · refine .inr ⟨j, ?_⟩
          unfold Inbox.Running
          dsimp only
          have hlt := (List.getElem?_eq_some_iff.mp hj).1
          rw [List.getElem?_append_left hlt]
          exact hj
  | claim i =>
      dsimp only at hstep
      split at hstep
      · next hi =>
          cases hstep
          unfold Inbox.claim
          split
          · next hclaimed =>
              intro _
              rcases hkeeps hclaimed with hdone | ⟨j, hj⟩
              · exact .inl hdone
              · exact .inr ⟨j, running_move hi (by decide) hj⟩
          · exact fun _ => .inr ⟨i, deliveries_move_self (by rw [hi]; rfl)⟩
      · cases hstep
  | dispatch i api =>
      dsimp only at hstep
      split at hstep
      · cases hstep
        unfold Inbox.dispatch
        split
        · exact fun _ => .inl rfl
        · next herror =>
            rcases hkeeps with ⟨db, hok⟩ | hspares
            · rw [herror] at hok
              cases hok
            · exact kept_of_spares (by decide) rfl rfl rfl hspares
      · cases hstep
  | fail i =>
      dsimp only at hstep
      split at hstep
      · cases hstep
        exact kept_of_spares (by decide) rfl rfl rfl hkeeps
      · cases hstep
  | release i reached =>
      dsimp only at hstep
      split at hstep
      · next hi =>
          cases hstep
          exact h.move hi (by decide) (by decide) rfl .inl rfl
      · cases hstep
  | reply i =>
      dsimp only at hstep
      split at hstep
      · next status hi =>
          cases hstep
          refine h.move hi (fun heq => nomatch heq) (by decide) rfl ?_ rfl
          intro hacked
          rcases Bool.or_eq_true_iff.mp hacked with hbefore | hstatus
          · exact .inl hbefore
          · rw [beq_iff_eq.mp hstatus] at hi
            exact .inr ⟨i, hi⟩
      · cases hstep
  | crash i =>
      cases hstep
      exact kept_of_spares (by decide) rfl rfl rfl hkeeps
  | expire =>
      cases hstep
      exact h

/-- A step of a running handler that keeps every promise spares it. -/
theorem spares_of_kept {inbox inbox' : Inbox} {i : ℕ} {phase : Phase}
    (hi : inbox.Running i) (hphase : phase ≠ .dispatching)
    (hdeliveries : inbox'.deliveries = (inbox.move i phase).deliveries)
    (hack : inbox'.acknowledged = inbox.acknowledged)
    (hsucceeded : inbox'.succeeded = inbox.succeeded) (h : inbox'.Kept) : inbox.Spares i := by
  intro hpromised
  have hself : inbox'.deliveries[i]? = some phase := by
    rw [hdeliveries]
    exact deliveries_move_self (by rw [hi]; rfl)
  have hpromised' : inbox'.Promised := by
    rcases hpromised with hacked | ⟨j, hj⟩
    · exact .inl (hack.trans hacked)
    · refine .inr ⟨j, ?_⟩
      have hne : j ≠ i := by
        intro heq
        rw [heq, hi] at hj
        cases hj
      rw [hdeliveries, deliveries_move_of_ne hne]
      exact hj
  rcases h hpromised' with hdone | ⟨j, hj⟩
  · exact .inl (hsucceeded.symm.trans hdone)
  · have hne : j ≠ i := by
      intro heq
      unfold Inbox.Running at hj
      rw [heq, hself] at hj
      exact hphase (Option.some.inj hj)
    refine .inr ⟨j, hne, ?_⟩
    unfold Inbox.Running at hj ⊢
    rwa [hdeliveries, deliveries_move_of_ne hne] at hj

/-- The condition is exact: a step that keeps every promise satisfies it. -/
theorem keepsPromise_of_kept {event : StripeEvent} {inbox inbox' : Inbox}
    {action : InboxAction} (hbefore : inbox.Kept) (hstep : Delivers event inbox action inbox')
    (h : inbox'.Kept) : KeepsPromise event inbox action := by
  unfold Delivers Inbox.step at hstep
  cases action with
  | claim i =>
      dsimp only at hstep
      split at hstep
      · next hi =>
          intro hclaimed
          cases hstep
          unfold Inbox.claim at h
          rw [if_pos hclaimed] at h
          have hself := @deliveries_move_self _ _ (.replying 200) (by rw [hi]; rfl)
          rcases h (.inr ⟨i, hself⟩) with hdone | ⟨j, hj⟩
          · exact .inl hdone
          · refine .inr ⟨j, ?_⟩
            unfold Inbox.Running at hj ⊢
            by_cases hne : j = i
            · rw [hne, hself] at hj
              cases hj
            · rwa [deliveries_move_of_ne hne] at hj
      · cases hstep
  | dispatch i api =>
      dsimp only at hstep
      split at hstep
      · next hi =>
          cases hstep
          unfold Inbox.dispatch at h
          unfold KeepsPromise
          split at h
          · next db hok => exact .inl ⟨db, hok⟩
          · exact .inr (spares_of_kept hi (by decide) rfl rfl rfl h)
      · cases hstep
  | fail i =>
      dsimp only at hstep
      split at hstep
      · next hi =>
          cases hstep
          exact spares_of_kept hi (by decide) rfl rfl rfl h
      · cases hstep
  | crash i =>
      cases hstep
      by_cases hi : inbox.Running i
      · exact spares_of_kept hi (by decide) rfl rfl rfl h
      · intro hpromised
        rcases hbefore hpromised with hdone | ⟨j, hj⟩
        · exact .inl hdone
        · exact .inr ⟨j, fun heq => hi (heq ▸ hj), hj⟩
  | send => trivial
  | release => trivial
  | reply => trivial
  | expire => trivial

/-- In a run that keeps its promises, no event is acknowledged and lost. -/
theorem not_lost_of_keepsPromise {event : StripeEvent} {db : Db} {actions : List InboxAction}
    {inbox : Inbox}
    (hrun : Run (Guarded (Delivers event) (KeepsPromise event)) (.start db) actions inbox) :
    inbox.Kept ∧ (inbox.Ended → inbox.acknowledged = true → inbox.succeeded = true) := by
  have hkept : inbox.Kept := by
    refine hrun.invariant (I := Inbox.Kept) (fun s a t hs ⟨hstep, hkeeps⟩ => hs.step hstep hkeeps)
      ?_
    rintro (hacked | ⟨i, hi⟩)
    · cases hacked
    · cases hi
  refine ⟨hkept, fun hended hacked => ?_⟩
  rcases hkept (.inl hacked) with hdone | ⟨i, hi⟩
  · exact hdone
  · cases hended _ (List.mem_of_getElem? hi)

/-! ### Two deliveries of the first invoice -/

def firstInvoicePaid : StripeEvent := ⟨"evt_1", .invoicePaid firstInvoice⟩

/-- The second delivery is a duplicate of the first, whose handler succeeds. -/
theorem not_lost_duplicate :
    ∃ inbox, Run (Delivers firstInvoicePaid) (.start proUser)
        [.send, .send, .claim 0, .claim 1, .reply 1, .dispatch 0 quietApi, .reply 0] inbox ∧
      inbox.succeeded = true := by
  let ok (inbox : Inbox) (action : InboxAction) := KeepsPromise firstInvoicePaid inbox action
  have hpaid : ∀ db, db = proUser → ∃ db', dispatch quietApi firstInvoicePaid db = .ok db' := by
    rintro db rfl
    exact ⟨_, rfl⟩
  have hrun : ∃ inbox, Run (Guarded (Delivers firstInvoicePaid) ok) (.start proUser)
      [.send, .send, .claim 0, .claim 1, .reply 1, .dispatch 0 quietApi, .reply 0] inbox ∧
      inbox.Ended ∧ inbox.acknowledged = true := by
    refine ⟨_, .cons ⟨rfl, trivial⟩ (.cons ⟨rfl, trivial⟩ (.cons ⟨rfl, fun h => nomatch h⟩
      (.cons ⟨rfl, fun _ => .inr ⟨0, rfl⟩⟩ (.cons ⟨rfl, trivial⟩ (.cons ⟨rfl, .inl (hpaid _ rfl)⟩
      (.cons ⟨rfl, trivial⟩ (.nil _))))))), ?_, ?_⟩
    · unfold Inbox.Ended
      decide +kernel
    · decide +kernel
  obtain ⟨inbox, hguarded, hended, hacked⟩ := hrun
  exact ⟨inbox, hguarded.mono fun _ _ _ h => h.1,
    (not_lost_of_keepsPromise hguarded).2 hended hacked⟩

/-- The duplicate is answered 200, then the process of the first delivery is gone. -/
theorem lost_crashedHandler :
    ∃ inbox, Run (Delivers firstInvoicePaid) (.start proUser)
        [.send, .send, .claim 0, .claim 1, .reply 1, .crash 0] inbox ∧
      inbox.Ended ∧ inbox.acknowledged = true ∧ inbox.succeeded = false := by
  refine ⟨_, .cons rfl (.cons rfl (.cons rfl (.cons rfl (.cons rfl (.cons rfl (.nil _)))))),
    ?_, ?_, ?_⟩
  · unfold Inbox.Ended
    decide +kernel
  · decide +kernel
  · decide +kernel

end Neonfi.Billing

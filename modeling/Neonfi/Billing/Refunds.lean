import Neonfi.Billing.Handlers
import Neonfi.Billing.Subscriptions
import Neonfi.Lib.Run

/-!
# Refund requests beside the webhooks

`refundSubscription` takes the refundable flag with a compare-and-set, calls Stripe and then
revokes the plan or gives the flag back.  Requests run interleaved with each other and with
webhook handlers; the Redis key is a lock without an owner that may expire.
-/

namespace Neonfi.Billing

open Lib
open Ledger (bind_eq_ok)

/-! ## Requests in flight -/

/-- Where a request stands after its reads, with what it has read. -/
inductive RefundStage
  | found
  | locked
  | flipped
  | refunded
  | failed
  | finished
  deriving DecidableEq, Repr

structure RefundRequest where
  sub : Subscription
  payment : Payment
  stage : RefundStage

structure RefundState where
  db : Db
  /-- The keys `refund:<paymentId>` that Redis holds. -/
  locks : ℕ → Bool
  requests : ℕ → Option RefundRequest

inductive RefundEvent
  | begin (i userId : ℕ)
  | lock (i : ℕ)
  | flip (i : ℕ)
  | callStripe (i : ℕ) (reason : Option String)
  | restore (i : ℕ)
  | revoke (i : ℕ)
  | unlock (i : ℕ)
  | expire (paymentId : ℕ)
  | crash (i : ℕ)
  | webhook (event : StripeEvent)

namespace RefundState

variable (s : RefundState) (i : ℕ)

def put (request : RefundRequest) : RefundState :=
  { s with requests := Function.update s.requests i (some request) }

def drop : RefundState := { s with requests := Function.update s.requests i none }

/-- The request at a stage goes on. -/
def at? (stage : RefundStage) (next : RefundRequest → Option RefundState) :
    Option RefundState :=
  match s.requests i with
  | some request => if request.stage = stage then next request else none
  | none => none

/-- One step.  `stripe` is what Stripe answers to it, `api` what it answers to a handler.  A
Stripe call that reports an error may have been performed: its webhook is free to come. -/
def step (stripe : StripeAnswers) (api : StripeApi) : RefundEvent → Option RefundState
  | .begin i userId =>
      match s.requests i, s.db.findSubscriptionByUserId userId,
        findRefundable stripe userId s.db with
      | none, some sub, .ok payment => some (s.put i ⟨sub, payment, .found⟩)
      | _, _, _ => none
  | .lock i => s.at? i .found fun request =>
      if s.locks request.payment.id then some (s.drop i)
      else
        some { s.put i { request with stage := .locked } with
          locks := Function.update s.locks request.payment.id true }
  | .flip i => s.at? i .locked fun request =>
      match flipRefundable request.payment.id s.db with
      | some db => some { s.put i { request with stage := .flipped } with db }
      | none => some (s.put i { request with stage := .finished })
  | .callStripe i reason => s.at? i .flipped fun request =>
      match stripe.perform (.createRefund request.payment.stripePaymentIntentId reason) with
      | .ok _ => some (s.put i { request with stage := .refunded })
      | .error _ => some (s.put i { request with stage := .failed })
  | .restore i => s.at? i .failed fun request =>
      some { s.put i { request with stage := .finished } with
        db := restoreRefundable request.payment.id s.db }
  | .revoke i => s.at? i .refunded fun request =>
      some { s.put i { request with stage := .finished } with
        db := (revokeAtPeriodEnd stripe request.sub s.db).1 }
  | .unlock i => s.at? i .finished fun request =>
      some { s.drop i with locks := Function.update s.locks request.payment.id false }
  | .expire paymentId => some { s with locks := Function.update s.locks paymentId false }
  | .crash i => some (s.drop i)
  | .webhook event =>
      match dispatch api event s.db with
      | .ok db => some { s with db }
      | .error _ => some s

end RefundState

/-- A step with the answers that Stripe gives to it. -/
structure RefundAction where
  event : RefundEvent
  stripe : StripeAnswers
  api : StripeApi

def RefundState.act (s : RefundState) (a : RefundAction) : Option RefundState :=
  s.step a.stripe a.api a.event

/-! ## Payments under one statement -/

/-- Every refundable payment has succeeded. -/
def Db.RefundSafe (db : Db) : Prop :=
  ∀ p ∈ db.payments.rows, p.refundAvailable = true → p.status = .succeeded

instance {db : Db} : Decidable db.RefundSafe :=
  inferInstanceAs (Decidable (∀ p ∈ db.payments.rows, p.refundAvailable = true →
    p.status = .succeeded))

/-- A statement keeps the payments refund-safe, and the refunded ones refunded. -/
structure Db.KeepsRefunds (db db' : Db) : Prop where
  safe : db.RefundSafe → db'.RefundSafe
  refunded : ∀ p ∈ db.payments.rows, p.status = .refunded →
    ∃ p' ∈ db'.payments.rows, p'.id = p.id ∧ p'.status = .refunded

namespace Db.KeepsRefunds

variable {db db' db'' : Db}

theorem of_payments (h : db'.payments.rows = db.payments.rows) : db.KeepsRefunds db' where
  safe hsafe p hp := hsafe p (h ▸ hp)
  refunded p hp hstatus := ⟨p, h ▸ hp, rfl, hstatus⟩

theorem refl : db.KeepsRefunds db := .of_payments rfl

theorem trans (h : db.KeepsRefunds db') (h' : db'.KeepsRefunds db'') :
    db.KeepsRefunds db'' where
  safe hsafe := h'.safe (h.safe hsafe)
  refunded p hp hstatus := by
    obtain ⟨p', hp', hid, hstatus'⟩ := h.refunded p hp hstatus
    obtain ⟨p'', hp'', hid', hstatus''⟩ := h'.refunded p' hp' hstatus'
    exact ⟨p'', hp'', hid'.trans hid, hstatus''⟩

theorem append {new : Payment} (h : db'.payments.rows = db.payments.rows ++ [new])
    (hnew : new.refundAvailable = true → new.status = .succeeded) : db.KeepsRefunds db' where
  safe hsafe p hp := by
    rw [h] at hp
    rcases List.mem_append.mp hp with hp | hp
    · exact hsafe p hp
    · rw [List.mem_singleton.mp hp]
      exact hnew
  refunded p hp hstatus := ⟨p, h ▸ List.mem_append_left _ hp, rfl, hstatus⟩

theorem updatePayment {paymentId : ℕ} {f : PaymentState → PaymentState}
    (hsafe : ∀ p ∈ db.payments.rows, p.id = paymentId →
      (p.refundAvailable = true → p.status = .succeeded) →
      (f p.toPaymentState).refundAvailable = true → (f p.toPaymentState).status = .succeeded)
    (hrefunded : ∀ p ∈ db.payments.rows, p.id = paymentId → p.status = .refunded →
      (f p.toPaymentState).status = .refunded) :
    db.KeepsRefunds (db.updatePayment paymentId f) where
  safe h p' hp' := by
    obtain ⟨p, hp, rfl⟩ := List.mem_map.mp hp'
    by_cases hpid : p.id = paymentId
    · rw [if_pos hpid]
      exact hsafe p hp hpid (h p hp)
    · rw [if_neg hpid]
      exact h p hp
  refunded p hp hstatus := by
    refine ⟨_, List.mem_map_of_mem hp, ?_, ?_⟩
    · split <;> rfl
    · split
      · next hpid => exact hrefunded p hp hpid hstatus
      · exact hstatus

theorem updateSubscription {subId : ℕ} {f : SubscriptionColumns → SubscriptionColumns} :
    db.KeepsRefunds (db.updateSubscription subId f) := .of_payments rfl

theorem createPayment {data : PaymentData}
    (hnew : data.refundAvailable = true → data.status = .succeeded)
    (h : db.createPayment data = .ok db') : db.KeepsRefunds db' := by
  unfold Db.createPayment at h
  split at h
  · next hinsert =>
      cases h
      exact .append (SerialTable.of_insert? hinsert).1 hnew
  · cases h

theorem upsertPayment {data : PaymentData}
    (hnew : data.refundAvailable = true → data.status = .succeeded) :
    db.KeepsRefunds (db.upsertPayment data) := by
  unfold Db.upsertPayment
  split
  · next hinsert => exact .append (SerialTable.of_insert? hinsert).1 hnew
  · exact refl

theorem createSubscription {userId : ℕ} {columns : SubscriptionColumns}
    (h : db.createSubscription userId columns = .ok db') : db.KeepsRefunds db' := by
  unfold Db.createSubscription at h
  split at h
  · cases h
  · split at h
    · cases h
      exact .of_payments rfl
    · cases h

theorem transitionToCompleteOnboarding {userId : ℕ}
    (h : db.transitionToCompleteOnboarding userId = .ok db') : db.KeepsRefunds db' := by
  unfold Db.transitionToCompleteOnboarding at h
  split at h
  · cases h
  · cases h
    exact .of_payments rfl

theorem invoicePayment {api : StripeApi} {sub : Subscription} {invoice : Invoice}
    {paymentIntentId : String} {status : PaymentStatus} {amount : ℤ} :
    (Billing.invoicePayment api sub invoice paymentIntentId status amount).refundAvailable =
        true →
      (Billing.invoicePayment api sub invoice paymentIntentId status amount).status =
        .succeeded := by
  simp [Billing.invoicePayment]

/-! ### Handlers -/

theorem handleCheckoutSessionCompleted {api : StripeApi} {session : CheckoutSession}
    (h : Billing.handleCheckoutSessionCompleted api session db = .ok db') :
    db.KeepsRefunds db' := by
  unfold Billing.handleCheckoutSessionCompleted at h
  split at h
  · obtain ⟨period?, -, h⟩ := bind_eq_ok h
    obtain ⟨period, -, h⟩ := bind_eq_ok h
    obtain ⟨db₁, hupsert, h⟩ := bind_eq_ok h
    obtain ⟨db₂, hpayment, h⟩ := bind_eq_ok h
    have hfirst : db.KeepsRefunds db₁ := by
      unfold upsertSubscriptionFromCheckout at hupsert
      split at hupsert
      · cases hupsert
        exact updateSubscription
      · exact createSubscription hupsert
    have hsecond : db₁.KeepsRefunds db₂ := by
      unfold createCheckoutPayment at hpayment
      split at hpayment
      · cases hpayment
        exact refl
      · exact createPayment (fun _ => rfl) hpayment
    exact (hfirst.trans hsecond).trans (transitionToCompleteOnboarding h)
  · cases h
    exact refl

theorem handleInvoicePaymentSucceeded {api : StripeApi} {invoice : Invoice}
    (h : Billing.handleInvoicePaymentSucceeded api invoice db = .ok db') :
    db.KeepsRefunds db' := by
  unfold Billing.handleInvoicePaymentSucceeded at h
  split at h
  · cases h
    exact refl
  · obtain ⟨paymentIntentId?, -, h⟩ := bind_eq_ok h
    split at h
    · cases h
      exact (upsertPayment invoicePayment).trans updateSubscription
    · cases h
      exact refl

theorem handleInvoicePaymentFailed {api : StripeApi} {eventId : String} {invoice : Invoice}
    (h : Billing.handleInvoicePaymentFailed api eventId invoice db = .ok db') :
    db.KeepsRefunds db' := by
  unfold Billing.handleInvoicePaymentFailed at h
  split at h
  · cases h
    exact refl
  · obtain ⟨paymentIntentId?, -, h⟩ := bind_eq_ok h
    cases h
    exact upsertPayment invoicePayment

theorem handleChargeRefunded {charge : Charge} :
    db.KeepsRefunds (Billing.handleChargeRefunded charge db) := by
  unfold Billing.handleChargeRefunded
  split
  · exact refl
  · exact updatePayment (fun p _ _ _ h => by cases h) fun _ _ _ _ => rfl

theorem dispatch {api : StripeApi} {event : StripeEvent}
    (h : Billing.dispatch api event db = .ok db') : db.KeepsRefunds db' := by
  unfold Billing.dispatch at h
  split at h
  · exact handleCheckoutSessionCompleted h
  · exact handleInvoicePaymentSucceeded h
  · exact handleInvoicePaymentSucceeded h
  · exact handleInvoicePaymentFailed h
  · cases h
    unfold handleSubscriptionUpdated
    split
    · exact refl
    · exact updateSubscription
  · cases h
    unfold handleSubscriptionDeleted
    split
    · exact refl
    · split
      · exact updateSubscription
      · exact updateSubscription
  · cases h
    exact handleChargeRefunded

/-! ### Requests -/

theorem flipRefundable {paymentId : ℕ} (h : Billing.flipRefundable paymentId db = some db') :
    db.KeepsRefunds db' := by
  unfold Billing.flipRefundable at h
  split at h
  · cases h
    exact updatePayment (fun _ _ _ _ h => by cases h) fun _ _ _ hstatus => hstatus
  · cases h

theorem restoreRefundable {paymentId : ℕ}
    (hstatus : ∀ p ∈ db.payments.find? paymentId, p.status = .succeeded) :
    db.KeepsRefunds (Billing.restoreRefundable paymentId db) := by
  refine updatePayment (fun p hp hid _ _ => ?_) fun p _ _ hrefunded => hrefunded
  exact hstatus p (SerialTable.find?_eq_some_iff.mpr ⟨hp, hid⟩)

theorem revokeAtPeriodEnd {stripe : StripeAnswers} {sub : Subscription} :
    db.KeepsRefunds (Billing.revokeAtPeriodEnd stripe sub db).1 := by
  unfold Billing.revokeAtPeriodEnd
  split
  · exact refl
  · split
    · exact refl
    · dsimp only
      split
      · exact refl
      · exact .of_payments rfl

end Db.KeepsRefunds

/-! ## Interleavings -/

theorem RefundState.at?_eq_some {s s' : RefundState} {i : ℕ} {stage : RefundStage}
    {next : RefundRequest → Option RefundState} (h : s.at? i stage next = some s') :
    ∃ request, s.requests i = some request ∧ request.stage = stage ∧ next request = some s' := by
  unfold RefundState.at? at h
  split at h
  · next request hrequest =>
      split at h
      · next hstage => exact ⟨request, hrequest, hstage, h⟩
      · cases h
  · cases h

/-- The flag is only given back while the payment is still a succeeded one. -/
def RestoresSucceeded (s : RefundState) (a : RefundAction) : Prop :=
  match a.event with
  | .restore i => ∀ request ∈ s.requests i,
      ∀ p ∈ s.db.payments.find? request.payment.id, p.status = .succeeded
  | _ => True

instance {s : RefundState} {a : RefundAction} : Decidable (RestoresSucceeded s a) :=
  match h : a.event with
  | .restore i => decidable_of_iff (∀ request ∈ s.requests i,
      ∀ p ∈ s.db.payments.find? request.payment.id, p.status = .succeeded) (by
        unfold RestoresSucceeded
        rw [h])
  | .begin .. | .lock _ | .flip _ | .callStripe .. | .revoke _ | .unlock _ | .expire _
  | .crash _ | .webhook _ => .isTrue (by
        unfold RestoresSucceeded
        rw [h]
        trivial)

def RefundStep (s : RefundState) (a : RefundAction) (s' : RefundState) : Prop :=
  s.act a = some s'

theorem RefundStep.keepsRefunds {s s' : RefundState} {a : RefundAction}
    (hstep : RefundStep s a s') (hok : RestoresSucceeded s a) : s.db.KeepsRefunds s'.db := by
  unfold RefundStep RefundState.act at hstep
  unfold RestoresSucceeded at hok
  cases hevent : a.event with
  | begin i userId =>
      rw [hevent, RefundState.step] at hstep
      split at hstep
      · cases hstep
        exact .refl
      · cases hstep
  | lock i =>
      rw [hevent, RefundState.step] at hstep
      obtain ⟨request, -, -, hnext⟩ := RefundState.at?_eq_some hstep
      split at hnext
      · cases hnext
        exact .refl
      · cases hnext
        exact .refl
  | flip i =>
      rw [hevent, RefundState.step] at hstep
      obtain ⟨request, -, -, hnext⟩ := RefundState.at?_eq_some hstep
      split at hnext
      · next hflip =>
          cases hnext
          exact .flipRefundable hflip
      · cases hnext
        exact .refl
  | callStripe i reason =>
      rw [hevent, RefundState.step] at hstep
      obtain ⟨request, -, -, hnext⟩ := RefundState.at?_eq_some hstep
      split at hnext
      · cases hnext
        exact .refl
      · cases hnext
        exact .refl
  | restore i =>
      rw [hevent, RefundState.step] at hstep
      rw [hevent] at hok
      obtain ⟨request, hrequest, -, hnext⟩ := RefundState.at?_eq_some hstep
      cases hnext
      exact .restoreRefundable (hok request hrequest)
  | revoke i =>
      rw [hevent, RefundState.step] at hstep
      obtain ⟨request, -, -, hnext⟩ := RefundState.at?_eq_some hstep
      cases hnext
      exact .revokeAtPeriodEnd
  | unlock i =>
      rw [hevent, RefundState.step] at hstep
      obtain ⟨request, -, -, hnext⟩ := RefundState.at?_eq_some hstep
      cases hnext
      exact .refl
  | expire paymentId =>
      rw [hevent, RefundState.step] at hstep
      cases hstep
      exact .refl
  | crash i =>
      rw [hevent, RefundState.step] at hstep
      cases hstep
      exact .refl
  | webhook event =>
      rw [hevent, RefundState.step] at hstep
      split at hstep
      · next hdispatch =>
          cases hstep
          exact .dispatch hdispatch
      · cases hstep
        exact .refl

/-- In every state of a run that restores the flag of succeeded payments only, the payments
are refund-safe, and those refunded by then stay refunded and are not refundable. -/
theorem refunds_safe_of_restoresSucceeded {s m s' : RefundState} {before after : List RefundAction}
    (hsafe : s.db.RefundSafe)
    (hrun : Run (Guarded RefundStep RestoresSucceeded) s before m)
    (hrun' : Run (Guarded RefundStep RestoresSucceeded) m after s') :
    m.db.RefundSafe ∧ ∀ p ∈ m.db.payments.rows, p.status = .refunded →
      ∃ p' ∈ s'.db.payments.rows,
        p'.id = p.id ∧ p'.status = .refunded ∧ p'.refundAvailable = false := by
  have hkeeps : ∀ {s s' : RefundState} {actions : List RefundAction},
      Run (Guarded RefundStep RestoresSucceeded) s actions s' → s.db.KeepsRefunds s'.db := by
    intro s s' actions hrun
    exact hrun.invariant (I := fun t => s.db.KeepsRefunds t.db)
      (fun _ _ _ h hstep => h.trans (hstep.1.keepsRefunds hstep.2)) .refl
  have hmiddle := (hkeeps hrun).safe hsafe
  refine ⟨hmiddle, fun p hp hstatus => ?_⟩
  obtain ⟨p', hp', hid, hstatus'⟩ := (hkeeps hrun').refunded p hp hstatus
  refine ⟨p', hp', hid, hstatus', ?_⟩
  by_contra hflag
  have hsucceeded := (hkeeps hrun').safe hmiddle p' hp' (by simpa using hflag)
  rw [hstatus'] at hsucceeded
  cases hsucceeded

/-! ### One payment, one refund request -/

def paidUser : Db :=
  { proUser with
    payments :=
      { rows :=
          [{ id := 1, userId := some 1, subscriptionId := some 1
             stripePaymentIntentId := "pi_1", amount := 900, currency := "usd"
             status := .succeeded, refundAvailable := true, createdAt := 0 }]
        next := 2
        nodup := by decide
        below := by decide
        unique := by decide } }

def paidState : RefundState := ⟨paidUser, fun _ => false, fun _ => none⟩

theorem paidState_safe : paidState.db.RefundSafe := by decide

/-- A step that Stripe answers with success or with an error. -/
def refundAction (succeeds : Bool) (event : RefundEvent) : RefundAction where
  event := event
  stripe :=
    { now := 10
      perform := fun _ => if succeeds then .ok none else .error (.database "timeout") }
  api := quietApi

def refundedWebhook : RefundEvent :=
  .webhook ⟨"evt_1", .chargeRefunded ⟨some "pi_1", 900, "usd"⟩⟩

/-- A request whose Stripe call fails gives the flag back; the next one is performed and its
webhook comes before the request ends. -/
def retriedRefund : List RefundAction :=
  [.begin 0 1, .lock 0, .flip 0].map (refundAction true) ++
    [.callStripe 0 none, .restore 0, .unlock 0].map (refundAction false) ++
    [.begin 1 1, .lock 1, .flip 1, .callStripe 1 none, refundedWebhook].map (refundAction true)

def endRefund : List RefundAction := [.revoke 1, .unlock 1].map (refundAction true)

theorem refunds_safe_retriedRefund :
    ∃ m s', Run (Guarded RefundStep RestoresSucceeded) paidState retriedRefund m ∧
      Run (Guarded RefundStep RestoresSucceeded) m endRefund s' ∧
      m.db.RefundSafe ∧ ∀ p ∈ m.db.payments.rows, p.status = .refunded →
        ∃ p' ∈ s'.db.payments.rows,
          p'.id = p.id ∧ p'.status = .refunded ∧ p'.refundAvailable = false := by
  have hrun : ((retriedRefund.foldlM
      (fun s a => if RestoresSucceeded s a then s.act a else none) paidState).bind fun m =>
        endRefund.foldlM (fun s a => if RestoresSucceeded s a then s.act a else none) m).isSome :=
            by
    decide +kernel
  obtain ⟨s', hs'⟩ := Option.isSome_iff_exists.mp hrun
  obtain ⟨m, hm, hs'⟩ := Option.bind_eq_some_iff.mp hs'
  exact ⟨m, s', run_of_foldlM hm, run_of_foldlM hs',
    refunds_safe_of_restoresSucceeded paidState_safe (run_of_foldlM hm) (run_of_foldlM hs')⟩

/-- Stripe performs the refund and its webhook is handled, then the call reports an error. -/
def refundReportedLate : List RefundAction :=
  [.begin 0 1, .lock 0, .flip 0, refundedWebhook].map (refundAction true) ++
    [.callStripe 0 none, .restore 0].map (refundAction false)

theorem refundReportedLate_unsafe :
    paidState.db.RefundSafe ∧
      ∃ s, Run RefundStep paidState refundReportedLate s ∧ ¬ s.db.RefundSafe := by
  refine ⟨paidState_safe, ?_⟩
  have hrun : (refundReportedLate.foldlM (fun s a => if True then s.act a else none)
      paidState).any (fun s => s.db.payments.rows.any fun p =>
        p.refundAvailable && decide (p.status = .refunded)) = true := by
    decide +kernel
  obtain ⟨s, hs, hbad⟩ := (Option.any_eq_true _ _).mp hrun
  obtain ⟨p, hp, hboth⟩ := List.any_eq_true.mp hbad
  refine ⟨s, (@run_of_foldlM _ _ _ (fun _ _ => True) _ _ _ _ hs).mono fun _ _ _ hstep => hstep.1,
      ?_⟩
  intro hsafe
  have hboth' : p.refundAvailable = true ∧ p.status = .refunded := by simpa using hboth
  have hsucceeded := hsafe p hp hboth'.1
  rw [hboth'.2] at hsucceeded
  cases hsucceeded

end Neonfi.Billing

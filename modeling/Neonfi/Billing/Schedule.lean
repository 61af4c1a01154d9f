import Neonfi.Billing.Frame
import Neonfi.Billing.Subscriptions
import Neonfi.Lib.Run

/-!
# Scheduled billing changes

Runs of subscription requests and webhooks.  The billing cycle of a subscription changes by an
upgrade, a checkout or the downgrade to free; an updated event that rolls a subscription over
into a new period never executes the scheduled cycle.
-/

namespace Neonfi.Billing

open Lib
open Ledger (bind_eq_ok)

/-! ## Requests and webhooks as steps -/

inductive BillingAction
  | activate (userId : ℕ) (body : CreateSubscriptionBody)
  | upgrade (userId : ℕ) (requested : BillingCycle)
  | downgrade (userId : ℕ) (body : DowngradeBody)
  | cancel (userId : ℕ)
  | refund (userId : ℕ) (reason : Option String)
  | webhook (event : StripeEvent)

/-- An action with what Stripe answers while it runs. -/
structure BillingStep where
  action : BillingAction
  stripe : StripeAnswers
  api : StripeApi

/-- The database after a request; one that throws writes nothing. -/
def Outcome.after (outcome : Outcome) (db : Db) : Db :=
  match outcome with
  | .ok (db', _) => db'
  | .error _ => db

/-- The database after a refund request; one that fails still restores the flag. -/
def refundAfter (stripe : StripeAnswers) (userId : ℕ) (reason : Option String) (db : Db) : Db :=
  match refundSubscription stripe userId reason db with
  | .ok (db', _) => db'
  | .error (_, db') => db'

def BillingStep.run (step : BillingStep) (db : Db) : Db :=
  match step.action with
  | .activate userId body =>
      match db.users.find? userId with
      | some user => Outcome.after (activateSubscription step.stripe user body db) db
      | none => db
  | .upgrade userId requested =>
      Outcome.after (upgradeSubscription step.stripe userId requested db) db
  | .downgrade userId body => Outcome.after (downgradeSubscription step.stripe userId body db) db
  | .cancel userId => Outcome.after (cancelSubscription step.stripe userId db) db
  | .refund userId reason => refundAfter step.stripe userId reason db
  | .webhook event =>
      match dispatch step.api event db with
      | .ok db' => db'
      | .error _ => db

def Bills (db : Db) (step : BillingStep) (db' : Db) : Prop := step.run db = db'

/-! ## What a scheduled change should do -/

/-- The step is an updated event that moves a subscription with a scheduled cycle into a
period after the stored one. -/
def RollsOver (db : Db) (step : BillingStep) (sub : Subscription) (cycle : BillingCycle) : Prop :=
  ∃ (eventId : String) (raw : StripeSubscription) (stored next : Period),
    step.action = .webhook ⟨eventId, .subscriptionUpdated raw⟩ ∧
      db.findStripeSubscription raw.id = some sub ∧ sub.scheduledBillingCycle = some cycle ∧
      sub.currentPeriod = some stored ∧ raw.period = some next ∧ stored.finish ≤ next.start

/-- The subscription is billed as scheduled and the schedule is cleared. -/
def TakesEffect (db' : Db) (sub : Subscription) (cycle : BillingCycle) : Prop :=
  ∃ sub' ∈ db'.subscriptions.rows, sub'.id = sub.id ∧ sub'.billingCycle = some cycle ∧
    sub'.scheduledPlan = none ∧ sub'.scheduledBillingCycle = none

/-- The steps that may change a billing cycle outside a roll-over. -/
def BillingStep.mayChangeCycle (db : Db) (step : BillingStep) : Prop :=
  match step.action with
  | .upgrade .. => True
  | .webhook event =>
      match event.body with
      | .checkoutSessionCompleted _ => True
      | .subscriptionDeleted raw =>
          ∃ sub, db.findStripeSubscription raw.id = some sub ∧ sub.scheduledPlan = some .free
      | _ => False
  | _ => False

/-- Roll-overs take effect, and nothing else changes a billing cycle unasked. -/
structure KeepsSchedule (db : Db) (step : BillingStep) (db' : Db) : Prop where
  rollover : ∀ sub cycle, RollsOver db step sub cycle → TakesEffect db' sub cycle
  cycle : ∀ sub ∈ db.subscriptions.rows, ∀ sub' ∈ db'.subscriptions.rows, sub'.id = sub.id →
    sub'.billingCycle ≠ sub.billingCycle →
    step.mayChangeCycle db ∨ ∃ cycle, RollsOver db step sub cycle

/-! ## Billing cycles under one statement -/

/-- Every subscription that was there keeps its billing cycle. -/
def KeepsCycles (db db' : Db) : Prop :=
  ∀ sub ∈ db.subscriptions.rows, ∀ sub' ∈ db'.subscriptions.rows, sub'.id = sub.id →
    sub'.billingCycle = sub.billingCycle

namespace KeepsCycles

variable {db db' : Db}

theorem of_subscriptions (h : db'.subscriptions = db.subscriptions) : KeepsCycles db db' := by
  intro sub hsub sub' hsub' hid
  rw [h] at hsub'
  rw [SerialTable.eq_of_id_eq hsub' hsub hid]

theorem updateSubscription {subId : ℕ} {f : SubscriptionColumns → SubscriptionColumns}
    (hf : ∀ s, (f s).billingCycle = s.billingCycle) :
    KeepsCycles db (db.updateSubscription subId f) := by
  intro sub hsub sub' hsub' hid
  rw [rows_updateSubscription] at hsub'
  obtain ⟨old, hold, rfl⟩ := List.mem_map.mp hsub'
  have hold_id : (Subscription.updated subId f old).id = old.id := by
    unfold Subscription.updated
    split <;> rfl
  rw [hold_id] at hid
  rw [SerialTable.eq_of_id_eq hold hsub hid]
  unfold Subscription.updated
  split
  · exact hf _
  · rfl

theorem createSubscription {userId : ℕ} {columns : SubscriptionColumns}
    (h : db.createSubscription userId columns = .ok db') : KeepsCycles db db' := by
  unfold Db.createSubscription at h
  split at h
  · cases h
  · split at h
    · next hinsert =>
        cases h
        intro sub hsub sub' hsub' hid
        rw [(SerialTable.of_insert? hinsert).1] at hsub'
        rcases List.mem_append.mp hsub' with hold | hnew
        · rw [SerialTable.eq_of_id_eq hold hsub hid]
        · have hlt := db.subscriptions.below sub hsub
          rw [← hid, List.mem_singleton.mp hnew] at hlt
          exact absurd hlt (lt_irrefl _)
    · cases h

/-- Rewriting payments or users first does not matter. -/
theorem congr {db₁ : Db} (h : KeepsCycles db₁ db') (hsame : db₁.subscriptions = db.subscriptions) :
    KeepsCycles db db' := by
  intro sub hsub
  exact h sub (hsame ▸ hsub)

theorem revokeAtPeriodEnd {stripe : StripeAnswers} {sub : Subscription} :
    KeepsCycles db (Billing.revokeAtPeriodEnd stripe sub db).1 := by
  unfold Billing.revokeAtPeriodEnd
  split
  · exact of_subscriptions rfl
  · split
    · exact of_subscriptions rfl
    · dsimp only
      split
      · exact of_subscriptions rfl
      · exact updateSubscription fun _ => rfl

end KeepsCycles

theorem Outcome.after_ok {outcome : Outcome} {P : Db → Prop} {db : Db} (hkept : P db)
    (hok : ∀ db' calls, outcome = .ok (db', calls) → P db') : P (outcome.after db) := by
  unfold Outcome.after
  split
  · exact hok _ _ rfl
  · exact hkept

/-! ### Requests -/

section Requests

variable {stripe : StripeAnswers} {db db' : Db} {calls : List StripeCall}

theorem keepsCycles_activate {user : User} {body : CreateSubscriptionBody}
    (h : activateSubscription stripe user body db = .ok (db', calls)) : KeepsCycles db db' := by
  unfold activateSubscription at h
  obtain ⟨_, -, h⟩ := bind_eq_ok h
  obtain ⟨_, -, h⟩ := bind_eq_ok h
  cases body with
  | free =>
      obtain ⟨db₁, hcreate, h⟩ := bind_eq_ok h
      obtain ⟨db₂, honboard, h⟩ := bind_eq_ok h
      cases h
      have hkept : KeepsCycles db db₁ := .createSubscription hcreate
      unfold Db.transitionToCompleteOnboarding at honboard
      split at honboard
      · cases honboard
      · cases honboard
        intro sub hsub sub' hsub'
        exact hkept sub hsub sub' hsub'
  | pro billingCycle =>
      unfold createProCheckoutSession at h
      obtain ⟨_, -, h⟩ := bind_eq_ok h
      cases h
      exact .of_subscriptions rfl

theorem keepsCycles_downgrade {userId : ℕ} {body : DowngradeBody}
    (h : downgradeSubscription stripe userId body db = .ok (db', calls)) :
    KeepsCycles db db' := by
  unfold downgradeSubscription at h
  obtain ⟨sub, -, h⟩ := bind_eq_ok h
  obtain ⟨_, -, h⟩ := bind_eq_ok h
  obtain ⟨_, -, h⟩ := bind_eq_ok h
  cases body with
  | free =>
      unfold downgradeToFree at h
      obtain ⟨_, -, h⟩ := bind_eq_ok h
      obtain ⟨stripeId, -, h⟩ := bind_eq_ok h
      obtain ⟨_, -, h⟩ := bind_eq_ok h
      cases h
      exact .updateSubscription fun _ => rfl
  | monthly =>
      unfold downgradeToMonthly at h
      obtain ⟨_, -, h⟩ := bind_eq_ok h
      obtain ⟨_, -, h⟩ := bind_eq_ok h
      obtain ⟨stripeId, -, h⟩ := bind_eq_ok h
      obtain ⟨_, -, h⟩ := bind_eq_ok h
      cases h
      exact .updateSubscription fun _ => rfl

theorem keepsCycles_cancel {userId : ℕ}
    (h : cancelSubscription stripe userId db = .ok (db', calls)) : KeepsCycles db db' := by
  unfold cancelSubscription at h
  obtain ⟨sub, -, h⟩ := bind_eq_ok h
  obtain ⟨_, -, h⟩ := bind_eq_ok h
  obtain ⟨_, -, h⟩ := bind_eq_ok h
  split at h
  · cases h
    exact .of_subscriptions rfl
  · obtain ⟨stripeId, -, h⟩ := bind_eq_ok h
    obtain ⟨_, -, h⟩ := bind_eq_ok h
    cases h
    exact .updateSubscription fun _ => rfl

theorem keepsCycles_refund {userId : ℕ} {reason : Option String} :
    KeepsCycles db (refundAfter stripe userId reason db) := by
  have hsame : ∀ {paymentId : ℕ} {flipped : Db}, flipRefundable paymentId db = some flipped →
      flipped.subscriptions = db.subscriptions := by
    intro paymentId flipped hflip
    unfold flipRefundable at hflip
    split at hflip
    · cases hflip
      rfl
    · cases hflip
  unfold refundAfter
  cases hrefund : refundSubscription stripe userId reason db with
  | error failed =>
      obtain ⟨_, db'⟩ := failed
      refine .of_subscriptions ?_
      dsimp only
      unfold refundSubscription at hrefund
      split at hrefund
      · cases hrefund
        rfl
      · cases hrefund
        rfl
      · split at hrefund
        · cases hrefund
          rfl
        · next flipped hflip =>
            have hflipped := hsame hflip
            dsimp only at hrefund
            split at hrefund
            · cases hrefund
              exact hflipped
            · cases hrefund
  | ok done =>
      obtain ⟨db', _⟩ := done
      unfold refundSubscription at hrefund
      split at hrefund
      · cases hrefund
      · cases hrefund
      · split at hrefund
        · cases hrefund
        · next flipped hflip =>
            dsimp only at hrefund
            split at hrefund
            · cases hrefund
            · cases hrefund
              exact (@KeepsCycles.revokeAtPeriodEnd flipped _ _).congr (hsame hflip)

end Requests

/-! ### Webhooks -/

section Webhooks

variable {api : StripeApi} {db db' : Db}

theorem keepsCycles_invoicePaid {invoice : Invoice}
    (h : handleInvoicePaymentSucceeded api invoice db = .ok db') : KeepsCycles db db' := by
  unfold handleInvoicePaymentSucceeded at h
  split at h
  · cases h
    exact .of_subscriptions rfl
  · obtain ⟨paymentIntentId?, -, h⟩ := bind_eq_ok h
    split at h
    · cases h
      exact (KeepsCycles.updateSubscription (f := SubscriptionColumns.setPeriod invoice.period)
        fun _ => rfl).congr subscriptions_upsertPayment
    · cases h
      exact .of_subscriptions rfl

theorem keepsCycles_invoiceFailed {eventId : String} {invoice : Invoice}
    (h : handleInvoicePaymentFailed api eventId invoice db = .ok db') : KeepsCycles db db' := by
  unfold handleInvoicePaymentFailed at h
  split at h
  · cases h
    exact .of_subscriptions rfl
  · obtain ⟨paymentIntentId?, -, h⟩ := bind_eq_ok h
    cases h
    exact .of_subscriptions subscriptions_upsertPayment

theorem keepsCycles_updated {raw : StripeSubscription} :
    KeepsCycles db (handleSubscriptionUpdated raw db) := by
  unfold handleSubscriptionUpdated
  split
  · exact .of_subscriptions rfl
  · exact .updateSubscription fun _ => rfl

theorem keepsCycles_deleted {raw : StripeSubscription}
    (hkept : ∀ sub, db.findStripeSubscription raw.id = some sub →
      sub.scheduledPlan ≠ some .free) :
    KeepsCycles db (handleSubscriptionDeleted raw db) := by
  unfold handleSubscriptionDeleted
  split
  · exact .of_subscriptions rfl
  · next sub hsub =>
      rw [if_neg (hkept sub hsub)]
      exact .updateSubscription fun _ => rfl

theorem keepsCycles_refunded {charge : Charge} :
    KeepsCycles db (handleChargeRefunded charge db) := by
  unfold handleChargeRefunded
  split
  · exact .of_subscriptions rfl
  · exact .of_subscriptions rfl

end Webhooks

/-- A step that may not change a billing cycle does not. -/
theorem keepsCycles_of_not_mayChange {db : Db} {step : BillingStep}
    (hnot : ¬ step.mayChangeCycle db) : KeepsCycles db (step.run db) := by
  unfold BillingStep.mayChangeCycle at hnot
  unfold BillingStep.run
  have hkept : KeepsCycles db db := .of_subscriptions rfl
  cases haction : step.action with
  | activate userId body =>
      dsimp only
      split
      · exact Outcome.after_ok hkept fun _ _ => keepsCycles_activate
      · exact hkept
  | upgrade userId requested =>
      rw [haction] at hnot
      exact absurd trivial hnot
  | downgrade userId body => exact Outcome.after_ok hkept fun _ _ => keepsCycles_downgrade
  | cancel userId => exact Outcome.after_ok hkept fun _ _ => keepsCycles_cancel
  | refund userId reason => exact keepsCycles_refund
  | webhook event =>
      rw [haction] at hnot
      dsimp only at hnot ⊢
      unfold dispatch
      cases hbody : event.body with
      | checkoutSessionCompleted session =>
          rw [hbody] at hnot
          exact absurd trivial hnot
      | invoicePaid invoice =>
          dsimp only
          split
          · next h => exact keepsCycles_invoicePaid h
          · exact hkept
      | invoicePaymentSucceeded invoice =>
          dsimp only
          split
          · next h => exact keepsCycles_invoicePaid h
          · exact hkept
      | invoicePaymentFailed invoice =>
          dsimp only
          split
          · next h => exact keepsCycles_invoiceFailed h
          · exact hkept
      | subscriptionUpdated raw => exact keepsCycles_updated
      | subscriptionDeleted raw =>
          rw [hbody] at hnot
          refine keepsCycles_deleted fun sub hsub hfree => hnot ⟨sub, hsub, hfree⟩
      | chargeRefunded charge => exact keepsCycles_refunded

/-- The updated event leaves the schedule of a rolled-over subscription in place. -/
theorem not_takesEffect_of_rollsOver {db : Db} {step : BillingStep} {sub : Subscription}
    {cycle : BillingCycle} (h : RollsOver db step sub cycle) :
    ¬ TakesEffect (step.run db) sub cycle := by
  obtain ⟨eventId, raw, stored, next, haction, hfind, hscheduled, -, -, -⟩ := h
  have hrun : step.run db = db.updateSubscription sub.id raw.apply := by
    unfold BillingStep.run
    rw [haction]
    show handleSubscriptionUpdated raw db = _
    unfold handleSubscriptionUpdated
    rw [hfind]
  have hmem : sub ∈ db.subscriptions.rows := List.mem_of_find?_eq_some hfind
  rintro ⟨sub', hsub', hid, -, -, hcleared⟩
  rw [hrun, rows_updateSubscription] at hsub'
  obtain ⟨old, hold, rfl⟩ := List.mem_map.mp hsub'
  unfold Subscription.updated at hid hcleared
  split at hid
  · next hold_id =>
      rw [if_pos hold_id, SerialTable.eq_of_id_eq hold hmem hold_id] at hcleared
      have hkept : sub.scheduledBillingCycle = none := hcleared
      rw [hscheduled] at hkept
      cases hkept
  · next hne => exact hne hid

theorem keepsSchedule_iff {db : Db} {step : BillingStep} :
    KeepsSchedule db step (step.run db) ↔ ∀ sub cycle, ¬ RollsOver db step sub cycle := by
  constructor
  · intro h sub cycle hroll
    exact not_takesEffect_of_rollsOver hroll (h.rollover sub cycle hroll)
  · intro h
    refine ⟨fun sub cycle hroll => absurd hroll (h sub cycle), ?_⟩
    intro sub hsub sub' hsub' hid hne
    by_contra hnot
    rw [not_or] at hnot
    exact hne (keepsCycles_of_not_mayChange hnot.1 sub hsub sub' hsub' hid)

/-- A run keeps every schedule exactly when none of its steps is a roll-over. -/
theorem schedule_kept_iff {db db' : Db} {steps : List BillingStep} :
    Run (fun s a t => Bills s a t ∧ KeepsSchedule s a t) db steps db' ↔
      Run (Guarded Bills fun s a => ∀ sub cycle, ¬ RollsOver s a sub cycle) db steps db' := by
  constructor
  · intro hrun
    refine hrun.mono fun s a t ⟨hstep, hkeeps⟩ => ⟨hstep, ?_⟩
    rw [← hstep] at hkeeps
    exact keepsSchedule_iff.mp hkeeps
  · intro hrun
    refine hrun.mono fun s a t ⟨hstep, hnone⟩ => ⟨hstep, ?_⟩
    rw [← hstep]
    exact keepsSchedule_iff.mpr hnone

/-! ### A yearly subscriber who goes monthly -/

/-- The user of the first customer, billed yearly with monthly billing scheduled. -/
def scheduledUser : Db :=
  proUser.updateSubscription 1 fun s =>
    { s with billingCycle := some .yearly, scheduledBillingCycle := some .monthly }

/-- The event of the renewal. -/
def renewal : BillingStep where
  action := .webhook ⟨"evt_1", .subscriptionUpdated ⟨"sub_1", false, some ⟨30, 60⟩⟩⟩
  stripe := ⟨30, fun _ => .ok none⟩
  api := quietApi

theorem renewal_not_kept :
    ∃ db', Run Bills scheduledUser [renewal] db' ∧
      ¬ Run (fun s a t => Bills s a t ∧ KeepsSchedule s a t) scheduledUser [renewal] db' := by
  refine ⟨renewal.run scheduledUser, .cons rfl (.nil _), fun hrun => ?_⟩
  cases hrun with
  | cons hstep _ =>
      have hkeeps := hstep.2
      rw [← hstep.1] at hkeeps
      refine keepsSchedule_iff.mp hkeeps
        { id := 1, userId := 1, plan := .pro, billingCycle := some .yearly, status := .active
          stripeSubscriptionId := some "sub_1", currentPeriod := some ⟨0, 30⟩
          scheduledBillingCycle := some .monthly } .monthly ?_
      exact ⟨"evt_1", ⟨"sub_1", false, some ⟨30, 60⟩⟩, ⟨0, 30⟩, ⟨30, 60⟩, rfl,
        by decide +kernel, rfl, rfl, rfl, le_refl _⟩

end Neonfi.Billing

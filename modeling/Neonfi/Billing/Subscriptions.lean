import Neonfi.Billing.Handlers
import Mathlib.Data.List.Sort

/-!
# Subscription requests

The requests of `subscriptions.service.ts`.  Each returns the database and the calls it made
to Stripe that change a Stripe object; a request that throws leaves the database alone.
-/

namespace Neonfi.Billing

open Lib
open Ledger (Millis Failure ensure require)

/-! ## Calls to Stripe -/

inductive Price
  | proMonthly
  | proYearly
  deriving DecidableEq, Repr

def BillingCycle.price : BillingCycle → Price
  | .monthly => .proMonthly
  | .yearly => .proYearly

inductive StripeCall
  | createCheckoutSession (userId : ℕ) (billingCycle : BillingCycle)
  | updateSubscription (id : String) (price : Option Price) (cancelAtPeriodEnd : Bool)
  | createSchedule (id : String) (phases : Price × Price)
  | createRefund (paymentIntentId : String) (reason : Option String)
  deriving DecidableEq, Repr

/-- What Stripe answers to a request: whether a call fails, and the top-level period fields
of an updated subscription. -/
structure StripeAnswers where
  now : Millis
  perform : StripeCall → Except Failure (Option Period)

abbrev Outcome := Except Failure (Db × List StripeCall)

def subscriptionError (statusCode : ℕ) (code message : String) : Failure :=
  .api statusCode code message []

/-- A null where the code asserts there is none. -/
def nullAccess : Failure := .database "TypeError"

section Requests

variable (stripe : StripeAnswers)

/-! ## Activate -/

inductive CreateSubscriptionBody
  | free
  | pro (billingCycle : BillingCycle)
  deriving DecidableEq, Repr

def createProCheckoutSession (userId : ℕ) (billingCycle : BillingCycle) (db : Db) : Outcome := do
  let call := .createCheckoutSession userId billingCycle
  let _ ← stripe.perform call
  return (db, [call])

def createFreeSubscription (userId : ℕ) (db : Db) : Except Failure Db :=
  db.createSubscription userId freeColumns

def activateSubscription (user : User) (body : CreateSubscriptionBody) (db : Db) : Outcome := do
  ensure (user.onboardingStatus ≠ .pendingVerification)
    (subscriptionError 403 "EMAIL_NOT_VERIFIED"
      "Email must be verified before activating a subscription")
  ensure (user.onboardingStatus ≠ .planSelected ∧ user.onboardingStatus ≠ .complete)
    (subscriptionError 409 "SUBSCRIPTION_ALREADY_ACTIVATED" "Subscription is already activated")
  match body with
  | .free =>
      let db ← createFreeSubscription user.id db
      let db ← db.transitionToCompleteOnboarding user.id
      return (db, [])
  | .pro billingCycle => createProCheckoutSession stripe user.id billingCycle db

/-! ## Upgrade -/

/-- The columns of an immediate change from monthly to yearly. -/
def SubscriptionColumns.toYearly (period : Period) (s : SubscriptionColumns) :
    SubscriptionColumns :=
  { s with
    billingCycle := some .yearly
    currentPeriod := some period
    scheduledPlan := none
    scheduledBillingCycle := none
    status := .active }

/-- The columns of a reactivation. -/
def SubscriptionColumns.reactivate (s : SubscriptionColumns) :
    SubscriptionColumns :=
  { s with status := .active, scheduledPlan := none, scheduledBillingCycle := none }

def SubscriptionColumns.hasPendingState (s : SubscriptionColumns) : Bool :=
  s.status = .cancelled || s.scheduledPlan.isSome || s.scheduledBillingCycle.isSome

def upgradeToYearly (sub : Subscription) (db : Db) : Outcome := do
  let stripeId ← require sub.stripeSubscriptionId nullAccess
  let call := .updateSubscription stripeId (some .proYearly) false
  let period? ← stripe.perform call
  let period ← require period? invalidDate
  return (db.updateSubscription sub.id (SubscriptionColumns.toYearly period), [call])

def reactivateSubscription (sub : Subscription) (db : Db) : Outcome := do
  let stripeId ← require sub.stripeSubscriptionId nullAccess
  let call := .updateSubscription stripeId none false
  let _ ← stripe.perform call
  return (db.updateSubscription sub.id SubscriptionColumns.reactivate, [call])

def upgradeSubscription (userId : ℕ) (requested : BillingCycle) (db : Db) : Outcome := do
  let sub ← require (db.findSubscriptionByUserId userId)
    (subscriptionError 409 "NO_SUBSCRIPTION_TO_UPGRADE"
      "No subscription found. Use POST /subscriptions to activate.")
  if sub.status = .expired ∨ sub.plan = .free then
    createProCheckoutSession stripe userId requested db
  else do
    let current ← require sub.billingCycle nullAccess
    match current, requested with
    | .monthly, .yearly => upgradeToYearly stripe sub db
    | .yearly, .monthly =>
        .error (subscriptionError 400 "INVALID_UPGRADE"
          "To switch from yearly to monthly billing, use POST /subscriptions/downgrade")
    | _, _ =>
        if sub.hasPendingState then reactivateSubscription stripe sub db
        else
          .error (subscriptionError 400 "NO_CHANGE_TO_APPLY"
            "The requested billing cycle is already active with no pending changes")

/-! ## Downgrade -/

inductive DowngradeBody
  | free
  | monthly
  deriving DecidableEq, Repr

/-- The columns of a scheduled downgrade to the free plan. -/
def SubscriptionColumns.scheduleFree (s : SubscriptionColumns) :
    SubscriptionColumns :=
  { s with scheduledPlan := some .free, scheduledBillingCycle := none }

/-- The column of a scheduled change to monthly billing. -/
def SubscriptionColumns.scheduleMonthly (s : SubscriptionColumns) :
    SubscriptionColumns :=
  { s with scheduledBillingCycle := some .monthly }

def cannotDowngradeFromFree : Failure :=
  subscriptionError 400 "CANNOT_DOWNGRADE_FROM_FREE" "Cannot downgrade from the Free plan"

def downgradeToFree (sub : Subscription) (db : Db) : Outcome := do
  ensure (sub.plan ≠ .free) cannotDowngradeFromFree
  let stripeId ← require sub.stripeSubscriptionId nullAccess
  let call := .updateSubscription stripeId none true
  let _ ← stripe.perform call
  return (db.updateSubscription sub.id SubscriptionColumns.scheduleFree, [call])

def downgradeToMonthly (sub : Subscription) (db : Db) : Outcome := do
  ensure (sub.plan ≠ .free) cannotDowngradeFromFree
  ensure (sub.billingCycle ≠ some .monthly)
    (subscriptionError 400 "NO_CHANGE_TO_APPLY" "Already on monthly billing")
  let stripeId ← require sub.stripeSubscriptionId nullAccess
  let call := .createSchedule stripeId (.proYearly, .proMonthly)
  let _ ← stripe.perform call
  return (db.updateSubscription sub.id SubscriptionColumns.scheduleMonthly, [call])

def downgradeSubscription (userId : ℕ) (body : DowngradeBody) (db : Db) : Outcome := do
  let sub ← require (db.findSubscriptionByUserId userId)
    (subscriptionError 409 "NO_SUBSCRIPTION_TO_DOWNGRADE"
      "No subscription found. Use POST /subscriptions to activate.")
  ensure (sub.status ≠ .expired)
    (subscriptionError 409 "SUBSCRIPTION_EXPIRED"
      "Subscription has expired. Use POST /subscriptions to reactivate.")
  ensure (sub.scheduledPlan = none ∧ sub.scheduledBillingCycle = none)
    (subscriptionError 409 "DOWNGRADE_ALREADY_SCHEDULED"
      "A downgrade is already scheduled. Cancel or upgrade to clear it first.")
  match body with
  | .free => downgradeToFree stripe sub db
  | .monthly => downgradeToMonthly stripe sub db

/-! ## Cancel -/

def SubscriptionColumns.cancel (s : SubscriptionColumns) : SubscriptionColumns :=
  { s with status := .cancelled }

def cancelSubscription (userId : ℕ) (db : Db) : Outcome := do
  let sub ← require (db.findSubscriptionByUserId userId)
    (subscriptionError 409 "NO_SUBSCRIPTION_TO_CANCEL"
      "No subscription found. Use POST /subscriptions to activate.")
  ensure (sub.plan ≠ .free)
    (subscriptionError 400 "CANNOT_CANCEL_FREE"
      "Free plan subscriptions cannot be cancelled. See account deletion for full removal.")
  ensure (sub.status ≠ .expired)
    (subscriptionError 409 "SUBSCRIPTION_EXPIRED" "Subscription has already expired.")
  if sub.status = .cancelled then return (db, [])
  else do
    let stripeId ← require sub.stripeSubscriptionId nullAccess
    let call := .updateSubscription stripeId none true
    let _ ← stripe.perform call
    return (db.updateSubscription sub.id SubscriptionColumns.cancel, [call])

/-! ## Refund -/

/-- Three days. -/
def refundWindowMs : Millis := 3 * 24 * 60 * 60 * 1000

/-- `orderBy: { createdAt: 'desc' }`. -/
def newestFirst (p q : Payment) : Prop := q.createdAt ≤ p.createdAt

instance : DecidableRel newestFirst := fun p q =>
  inferInstanceAs (Decidable (q.createdAt ≤ p.createdAt))

/-- The latest succeeded payment of a user. -/
def latestSucceeded (userId : ℕ) (db : Db) : Option Payment :=
  ((db.payments.rows.filter fun p => p.userId = some userId ∧ p.status = .succeeded).insertionSort
    newestFirst).head?

def Payment.refundEligible (now : Millis) (p : Payment) : Bool :=
  p.refundAvailable && p.status = .succeeded && decide (now - p.createdAt ≤ refundWindowMs)

def refundInProgress : Failure :=
  subscriptionError 409 "REFUND_IN_PROGRESS" "A refund for this payment is already being processed"

def refundFailed : Failure := subscriptionError 400 "REFUND_FAILED" "Refund request failed"

/-- The payment a refund request takes. -/
def findRefundable (userId : ℕ) (db : Db) : Except Failure Payment := do
  let payment ← require (latestSucceeded userId db)
    (subscriptionError 409 "NO_PAYMENT_TO_REFUND" "No successful payment found to refund")
  ensure (payment.refundEligible stripe.now)
    (subscriptionError 400 "REFUND_NOT_ELIGIBLE" "This payment is not eligible for refund")
  return payment

def PaymentState.setRefundable (refundAvailable : Bool) (p : PaymentState) : PaymentState :=
  { p with refundAvailable }

/-- The compare-and-set on `refundAvailable`; `none` is a lost race. -/
def flipRefundable (paymentId : ℕ) (db : Db) : Option Db :=
  if (db.payments.find? paymentId).any fun p => p.refundAvailable then
    some (db.updatePayment paymentId (PaymentState.setRefundable false))
  else none

def restoreRefundable (paymentId : ℕ) (db : Db) : Db :=
  db.updatePayment paymentId (PaymentState.setRefundable true)

/-- After a refund the paid plan ends with its period; a failure here is only logged. -/
def revokeAtPeriodEnd (sub : Subscription) (db : Db) : Db × List StripeCall :=
  match sub.stripeSubscriptionId with
  | none => (db, [])
  | some stripeId =>
      if sub.plan = .free then (db, [])
      else
        let call := .updateSubscription stripeId none true
        match stripe.perform call with
        | .error _ => (db, [])
        | .ok _ =>
            (db.updateSubscription sub.id SubscriptionColumns.scheduleFree, [call])

/-- A refund request that runs alone.  The error of a failed Stripe call keeps the restored
database. -/
def refundSubscription (userId : ℕ) (reason : Option String) (db : Db) :
    Except (Failure × Db) (Db × List StripeCall) :=
  match db.findSubscriptionByUserId userId, findRefundable stripe userId db with
  | none, _ =>
      .error (subscriptionError 409 "NO_SUBSCRIPTION_TO_REFUND"
        "No subscription found for this user", db)
  | some _, .error e => .error (e, db)
  | some sub, .ok payment =>
      match flipRefundable payment.id db with
      | none => .error (refundInProgress, db)
      | some flipped =>
          let call := .createRefund payment.stripePaymentIntentId reason
          match stripe.perform call with
          | .error _ => .error (refundFailed, restoreRefundable payment.id flipped)
          | .ok _ =>
              let (revoked, calls) := revokeAtPeriodEnd stripe sub flipped
              .ok (revoked, call :: calls)

end Requests

end Neonfi.Billing

import Neonfi.Billing.Model

/-!
# The Stripe event handlers

One function per handled event type, as `stripe-handlers.ts` has them.  E-mails and the
`plan_changed` publish write no table and are left out; a handler that warns and returns
leaves the database as it is.
-/

namespace Neonfi.Billing

open Lib
open Ledger (Failure require)

/-! ## checkout.session.completed -/

/-- The columns a completed checkout writes. -/
def checkoutColumns (billingCycle : BillingCycle) (stripeCustomerId : Option String)
    (stripeSubscriptionId : String) (currentPeriod : Period) : SubscriptionColumns where
  plan := .pro
  billingCycle := some billingCycle
  status := .active
  stripeCustomerId := stripeCustomerId
  stripeSubscriptionId := some stripeSubscriptionId
  currentPeriod := some currentPeriod

def upsertSubscriptionFromCheckout (userId : ℕ) (columns : SubscriptionColumns) (db : Db) :
    Except Failure Db :=
  match db.findSubscriptionByUserId userId with
  | some sub => .ok (db.updateSubscription sub.id fun _ => columns)
  | none => db.createSubscription userId columns

/-- The payment of a checkout session that carries a payment intent. -/
def createCheckoutPayment (api : StripeApi) (userId : ℕ) (session : CheckoutSession) (db : Db) :
    Except Failure Db :=
  match session.paymentIntent with
  | none => .ok db
  | some paymentIntentId =>
      db.createPayment
        { userId := some userId
          subscriptionId := (db.findSubscriptionByUserId userId).map Subscription.id
          stripePaymentIntentId := paymentIntentId
          amount := session.amountTotal.getD 0
          currency := (session.currency.getD "usd").toLower
          status := .succeeded
          refundAvailable := true
          createdAt := api.now }

def handleCheckoutSessionCompleted (api : StripeApi) (session : CheckoutSession) (db : Db) :
    Except Failure Db :=
  match session.userId.filter (· ≠ 0), session.subscription with
  | some userId, some stripeSubscriptionId => do
      let period? ← api.retrieveSubscription stripeSubscriptionId
      let period ← require period? (.database "no item billing period")
      let db ← upsertSubscriptionFromCheckout userId
        (checkoutColumns (session.billingCycle.getD .monthly) session.customer
          stripeSubscriptionId period) db
      let db ← createCheckoutPayment api userId session db
      db.transitionToCompleteOnboarding userId
  | _, _ => .ok db

/-! ## Invoices -/

/-- The payment intent of an invoice: the field, else the expanded payments. -/
def resolveInvoicePaymentIntentId (api : StripeApi) (invoice : Invoice) :
    Except Failure (Option String) :=
  match invoice.paymentIntent, invoice.id with
  | some paymentIntentId, _ => .ok (some paymentIntentId)
  | none, some id => api.retrieveInvoicePaymentIntent id
  | none, none => .ok none

/-- The payment row of an invoice of a known subscription. -/
def invoicePayment (api : StripeApi) (sub : Subscription) (invoice : Invoice)
    (paymentIntentId : String) (status : PaymentStatus) (amount : ℤ) : PaymentData where
  userId := some sub.userId
  subscriptionId := some sub.id
  stripePaymentIntentId := paymentIntentId
  amount := amount
  currency := invoice.currency.toLower
  status := status
  refundAvailable := status = .succeeded
  createdAt := api.now

def SubscriptionColumns.setPeriod (period : Period) (s : SubscriptionColumns) :
    SubscriptionColumns :=
  { s with currentPeriod := some period }

def handleInvoicePaymentSucceeded (api : StripeApi) (invoice : Invoice) (db : Db) :
    Except Failure Db :=
  match invoice.subscription with
  | none => .ok db
  | some stripeSubscriptionId => do
      let paymentIntentId? ← resolveInvoicePaymentIntentId api invoice
      match paymentIntentId?, db.findStripeSubscription stripeSubscriptionId with
      | some paymentIntentId, some localSub =>
          let db := db.upsertPayment
            (invoicePayment api localSub invoice paymentIntentId .succeeded invoice.amountPaid)
          return db.updateSubscription localSub.id (SubscriptionColumns.setPeriod invoice.period)
      | _, _ => return db

def handleInvoicePaymentFailed (api : StripeApi) (eventId : String) (invoice : Invoice)
    (db : Db) : Except Failure Db :=
  match invoice.subscription.bind db.findStripeSubscription with
  | none => .ok db
  | some localSub => do
      let paymentIntentId? ← resolveInvoicePaymentIntentId api invoice
      let intentId := paymentIntentId?.getD s!"failed_{eventId}"
      return db.upsertPayment
        (invoicePayment api localSub invoice intentId .failed invoice.amountDue)

/-! ## Subscriptions -/

/-- What `customer.subscription.updated` writes: the period when it is present, and the
status when the cancellation flag contradicts it. -/
def StripeSubscription.apply (raw : StripeSubscription) (s : SubscriptionColumns) :
    SubscriptionColumns :=
  { s with
    currentPeriod := raw.period.or s.currentPeriod
    status :=
      if raw.cancelAtPeriodEnd = true ∧ s.status = .active then .cancelled
      else if raw.cancelAtPeriodEnd = false ∧ s.status = .cancelled then .active
      else s.status }

def handleSubscriptionUpdated (raw : StripeSubscription) (db : Db) : Db :=
  match db.findStripeSubscription raw.id with
  | none => db
  | some localSub => db.updateSubscription localSub.id raw.apply

/-- The columns of a free subscription, which is not a Stripe one. -/
def freeColumns : SubscriptionColumns where
  plan := .free
  status := .active

def SubscriptionColumns.expire (s : SubscriptionColumns) : SubscriptionColumns :=
  { s with status := .expired }

def applyScheduledDowngrade (subscriptionId : ℕ) (db : Db) : Db :=
  db.updateSubscription subscriptionId fun _ => freeColumns

def handleSubscriptionDeleted (raw : StripeSubscription) (db : Db) : Db :=
  match db.findStripeSubscription raw.id with
  | none => db
  | some localSub =>
      if localSub.scheduledPlan = some .free then applyScheduledDowngrade localSub.id db
      else db.updateSubscription localSub.id SubscriptionColumns.expire

/-! ## charge.refunded -/

def PaymentState.refunded : PaymentState where
  status := .refunded

def handleChargeRefunded (charge : Charge) (db : Db) : Db :=
  match charge.paymentIntent.bind db.findPayment with
  | none => db
  | some payment => db.updatePayment payment.id fun _ => .refunded

/-! ## Dispatch -/

/-- `dispatch`: both success events of an invoice share a handler. -/
def dispatch (api : StripeApi) (event : StripeEvent) (db : Db) : Except Failure Db :=
  match event.body with
  | .checkoutSessionCompleted session => handleCheckoutSessionCompleted api session db
  | .invoicePaid invoice => handleInvoicePaymentSucceeded api invoice db
  | .invoicePaymentSucceeded invoice => handleInvoicePaymentSucceeded api invoice db
  | .invoicePaymentFailed invoice => handleInvoicePaymentFailed api event.id invoice db
  | .subscriptionUpdated sub => .ok (handleSubscriptionUpdated sub db)
  | .subscriptionDeleted sub => .ok (handleSubscriptionDeleted sub db)
  | .chargeRefunded charge => .ok (handleChargeRefunded charge db)

/-! ## A first customer -/

/-- One user on the monthly plan, with no payment yet. -/
def proUser : Db where
  users := ⟨[⟨1, .complete⟩], by decide⟩
  subscriptions :=
    { rows :=
        [{ id := 1, userId := 1, plan := .pro, billingCycle := some .monthly, status := .active
           stripeSubscriptionId := some "sub_1", currentPeriod := some ⟨0, 30⟩ }]
      next := 2
      nodup := by decide
      below := by decide
      unique := by decide }
  payments := SerialTable.empty

/-- Stripe at time 10, with nothing to look up. -/
def quietApi : StripeApi where
  now := 10
  retrieveSubscription _ := .ok none
  retrieveInvoicePaymentIntent _ := .ok none

/-- The first invoice of that user. -/
def firstInvoice : Invoice where
  id := some "in_1"
  subscription := some "sub_1"
  paymentIntent := some "pi_1"
  amountPaid := 900
  amountDue := 900
  currency := "usd"
  period := ⟨0, 30⟩
  nextPaymentAttempt := none

example : (handleInvoicePaymentSucceeded quietApi firstInvoice proUser).isOk = true := by
  decide +kernel

end Neonfi.Billing

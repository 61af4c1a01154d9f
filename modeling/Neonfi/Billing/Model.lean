import Neonfi.Ledger.Model

/-!
# The billing tables

Users, subscriptions and payments as the Prisma schema declares them, and the Stripe objects
the webhook handlers read.  Lookup tables (plan, billing cycle, statuses) are enumerations.
-/

namespace Neonfi.Billing

open Lib
open Ledger (Millis Plan Failure uniqueViolation)

inductive BillingCycle
  | monthly
  | yearly
  deriving DecidableEq, Repr

inductive SubscriptionStatus
  | active
  | cancelled
  | expired
  deriving DecidableEq, Repr

inductive PaymentStatus
  | pending
  | succeeded
  | failed
  | refunded
  deriving DecidableEq, Repr

inductive OnboardingStatus
  | pendingVerification
  | verified
  | planSelected
  | complete
  deriving DecidableEq, Repr

/-! ## Rows -/

structure User where
  id : ℕ
  onboardingStatus : OnboardingStatus
  deriving DecidableEq, Repr

/-- The start and the end of a billing period. -/
structure Period where
  start : Millis
  finish : Millis
  deriving DecidableEq, Repr

/-- The columns of a `subscription` row that requests and webhooks rewrite.  The two period
columns are always written together. -/
structure SubscriptionColumns where
  plan : Plan
  billingCycle : Option BillingCycle := none
  status : SubscriptionStatus
  stripeCustomerId : Option String := none
  stripeSubscriptionId : Option String := none
  currentPeriod : Option Period := none
  scheduledPlan : Option Plan := none
  scheduledBillingCycle : Option BillingCycle := none
  deriving DecidableEq, Repr

structure Subscription extends SubscriptionColumns where
  id : ℕ
  userId : ℕ
  deriving DecidableEq, Repr

/-- The columns of a `payment` row that are rewritten after its creation. -/
structure PaymentState where
  status : PaymentStatus
  refundAvailable : Bool := false
  deriving DecidableEq, Repr

structure PaymentData extends PaymentState where
  userId : Option ℕ
  subscriptionId : Option ℕ
  stripePaymentIntentId : String
  amount : ℤ
  currency : String
  createdAt : Millis
  deriving DecidableEq, Repr

structure Payment extends PaymentData where
  id : ℕ
  deriving DecidableEq, Repr

/-! ## The database -/

abbrev UserTable := Table User ℕ User.id
abbrev SubscriptionTable :=
  SerialTable Subscription ℕ Subscription.id fun s => some s.userId
abbrev PaymentTable :=
  SerialTable Payment String Payment.id fun p => some p.stripePaymentIntentId

@[ext]
structure Db where
  users : UserTable
  subscriptions : SubscriptionTable
  payments : PaymentTable

namespace Db

variable (db : Db)

def findSubscriptionByUserId (userId : ℕ) : Option Subscription :=
  db.subscriptions.findUniq? userId

/-- `prisma.subscription.findFirst({ where: { stripeSubscriptionId } })`. -/
def findStripeSubscription (stripeSubscriptionId : String) : Option Subscription :=
  db.subscriptions.rows.find? fun s => s.stripeSubscriptionId = some stripeSubscriptionId

def findPayment (stripePaymentIntentId : String) : Option Payment :=
  db.payments.findUniq? stripePaymentIntentId

/-- `subscription.update` of the row with this id. -/
def updateSubscription (subId : ℕ) (f : SubscriptionColumns → SubscriptionColumns) : Db :=
  { db with
    subscriptions := db.subscriptions.modify
      (fun s =>
        if s.id = subId then { s with toSubscriptionColumns := f s.toSubscriptionColumns } else s)
      (fun s => by split <;> rfl) fun s => by split <;> rfl }

/-- `payment.update` of the row with this id. -/
def updatePayment (paymentId : ℕ) (f : PaymentState → PaymentState) : Db :=
  { db with
    payments := db.payments.modify
      (fun p => if p.id = paymentId then { p with toPaymentState := f p.toPaymentState } else p)
      (fun p => by split <;> rfl) fun p => by split <;> rfl }

end Db

/-- Prisma's foreign key violation. -/
def foreignKeyViolation : Failure := .database "P2003"

/-- Prisma's missing record. -/
def recordNotFound : Failure := .database "P2025"

/-- A `Date` that is not a number, refused by Prisma. -/
def invalidDate : Failure := .database "invalid date"

namespace Db

/-- `tx.payment.create`. -/
def createPayment (data : PaymentData) (db : Db) : Except Failure Db :=
  match db.payments.insert? (fun id => { data with id }) fun _ => rfl with
  | some payments => .ok { db with payments }
  | none => .error uniqueViolation

/-- `payment.upsert` with an empty update: a row under the same payment intent stays. -/
def upsertPayment (data : PaymentData) (db : Db) : Db :=
  match db.payments.insert? (fun id => { data with id }) fun _ => rfl with
  | some payments => { db with payments }
  | none => db

/-- `subscription.create`; the user must exist. -/
def createSubscription (userId : ℕ) (columns : SubscriptionColumns) (db : Db) :
    Except Failure Db :=
  if (db.users.find? userId).isNone then .error foreignKeyViolation
  else
    match db.subscriptions.insert? (fun id => { columns with id, userId }) fun _ => rfl with
    | some subscriptions => .ok { db with subscriptions }
    | none => .error uniqueViolation

def transitionToCompleteOnboarding (userId : ℕ) (db : Db) : Except Failure Db :=
  if (db.users.find? userId).isNone then .error recordNotFound
  else
    .ok { db with
      users := db.users.modify
        (fun u => if u.id = userId then { u with onboardingStatus := .complete } else u)
        fun u => by split <;> rfl }

end Db

/-! ## Stripe objects -/

/-- `checkout.session.completed`.  `userId` is what `parseInt` reads from the metadata. -/
structure CheckoutSession where
  userId : Option ℕ
  billingCycle : Option BillingCycle
  customer : Option String
  subscription : Option String
  paymentIntent : Option String
  amountTotal : Option ℤ
  currency : Option String
  deriving DecidableEq, Repr

/-- The invoice of the three invoice events; each handler reads the fields it needs. -/
structure Invoice where
  id : Option String
  subscription : Option String
  paymentIntent : Option String
  amountPaid : ℤ
  amountDue : ℤ
  currency : String
  period : Period
  nextPaymentAttempt : Option Millis
  deriving DecidableEq, Repr

/-- `customer.subscription.updated` or `.deleted`. -/
structure StripeSubscription where
  id : String
  cancelAtPeriodEnd : Bool
  period : Option Period
  deriving DecidableEq, Repr

structure Charge where
  paymentIntent : Option String
  amountRefunded : ℤ
  currency : String
  deriving DecidableEq, Repr

inductive EventBody
  | checkoutSessionCompleted (session : CheckoutSession)
  | invoicePaid (invoice : Invoice)
  | invoicePaymentSucceeded (invoice : Invoice)
  | invoicePaymentFailed (invoice : Invoice)
  | subscriptionUpdated (sub : StripeSubscription)
  | subscriptionDeleted (sub : StripeSubscription)
  | chargeRefunded (charge : Charge)
  deriving DecidableEq, Repr

structure StripeEvent where
  id : String
  body : EventBody
  deriving DecidableEq, Repr

/-- What Stripe answers while an event is handled: the billing period of the first item of a
subscription, and the payment intent of an invoice with its payments expanded. -/
structure StripeApi where
  now : Millis
  retrieveSubscription : String → Except Failure (Option Period)
  retrieveInvoicePaymentIntent : String → Except Failure (Option String)

end Neonfi.Billing

import Neonfi.Billing.Frame

/-!
# Retries of one payment

The invoice events of one payment intent, in the order they are processed.  The first one of
a known subscription creates the payment row and every later one leaves it alone.
-/

namespace Neonfi.Billing

open Lib

/-- An event with what Stripe answers while it is handled. -/
structure Delivery where
  event : StripeEvent
  api : StripeApi

/-- The database after a delivery; a handler that throws writes nothing. -/
def deliver (db : Db) (d : Delivery) : Db :=
  match dispatch d.api d.event db with
  | .ok db' => db'
  | .error _ => db

/-- The invoice of an invoice event. -/
def EventBody.invoice? : EventBody → Option Invoice
  | .invoicePaid invoice => some invoice
  | .invoicePaymentSucceeded invoice => some invoice
  | .invoicePaymentFailed invoice => some invoice
  | _ => none

def EventBody.paysInvoice : EventBody → Bool
  | .invoicePaid _ => true
  | .invoicePaymentSucceeded _ => true
  | _ => false

/-- An invoice event that resolves to the payment intent. -/
def Delivery.ResolvesTo (paymentIntentId : String) (d : Delivery) : Prop :=
  ∃ invoice, d.event.body.invoice? = some invoice ∧
    resolveInvoicePaymentIntentId d.api invoice = .ok (some paymentIntentId)

/-- The subscription of the event's invoice has a local row. -/
def Delivery.known (db : Db) (d : Delivery) : Bool :=
  ((d.event.body.invoice?.bind Invoice.subscription).bind db.findStripeSubscription).isSome

/-- The payment row says that the retry went through. -/
def RetryWon (paymentIntentId : String) (amount : ℤ) (db : Db) : Prop :=
  ∃ p, db.findPayment paymentIntentId = some p ∧ p.status = .succeeded ∧ p.amount = amount ∧
    p.refundAvailable = true

section Deliveries

variable {db : Db} {d : Delivery} {paymentIntentId : String}

/-- What a delivery for the payment intent does: nothing without a local subscription, else
an upsert of the payment of its kind and, for a success, the period. -/
theorem deliver_cases (hresolves : d.ResolvesTo paymentIntentId) :
    (d.known db = false ∧ deliver db d = db) ∨
      ∃ (sub : Subscription) (invoice : Invoice),
        d.known db = true ∧ d.event.body.invoice? = some invoice ∧
        ((d.event.body.paysInvoice = true ∧
          deliver db d =
            (db.upsertPayment (invoicePayment d.api sub invoice paymentIntentId .succeeded
              invoice.amountPaid)).updateSubscription sub.id
                (SubscriptionColumns.setPeriod invoice.period)) ∨
          (d.event.body.paysInvoice = false ∧
            deliver db d =
              db.upsertPayment (invoicePayment d.api sub invoice paymentIntentId .failed
                invoice.amountDue))) := by
  obtain ⟨invoice, hinvoice, hresolve⟩ := hresolves
  have hsuccess : ∀ stripeId sub, invoice.subscription = some stripeId →
      db.findStripeSubscription stripeId = some sub →
      handleInvoicePaymentSucceeded d.api invoice db =
        .ok ((db.upsertPayment (invoicePayment d.api sub invoice paymentIntentId .succeeded
          invoice.amountPaid)).updateSubscription sub.id
            (SubscriptionColumns.setPeriod invoice.period)) := by
    intro stripeId sub hstripe hsub
    unfold handleInvoicePaymentSucceeded
    rw [hstripe]
    dsimp only
    rw [hresolve]
    rw [hsub]
    rfl
  have hfailure : ∀ sub, invoice.subscription.bind db.findStripeSubscription = some sub →
      handleInvoicePaymentFailed d.api d.event.id invoice db =
        .ok (db.upsertPayment (invoicePayment d.api sub invoice paymentIntentId .failed
          invoice.amountDue)) := by
    intro sub hsub
    unfold handleInvoicePaymentFailed
    rw [hsub]
    dsimp only
    rw [hresolve]
    rfl
  have hknown : d.known db = (invoice.subscription.bind db.findStripeSubscription).isSome := by
    unfold Delivery.known
    rw [hinvoice]
    rfl
  have hdeliver : deliver db d = match dispatch d.api d.event db with
      | .ok db' => db'
      | .error _ => db := rfl
  have hpaid : d.event.body.paysInvoice = true →
      dispatch d.api d.event db = handleInvoicePaymentSucceeded d.api invoice db := by
    intro hpays
    unfold dispatch
    cases hbody : d.event.body <;> rw [hbody] at hpays hinvoice <;> cases hpays <;>
      cases hinvoice <;> rfl
  have hfailed : d.event.body.paysInvoice = false →
      dispatch d.api d.event db = handleInvoicePaymentFailed d.api d.event.id invoice db := by
    intro hpays
    unfold dispatch
    cases hbody : d.event.body <;> rw [hbody] at hpays hinvoice <;> cases hpays <;>
      cases hinvoice <;> rfl
  cases hpays : d.event.body.paysInvoice with
  | true =>
      rw [hdeliver, hpaid hpays]
      cases hstripe : invoice.subscription with
      | none =>
          left
          rw [hknown, hstripe]
          refine ⟨rfl, ?_⟩
          unfold handleInvoicePaymentSucceeded
          rw [hstripe]
      | some stripeId =>
          cases hsub : db.findStripeSubscription stripeId with
          | none =>
              left
              rw [hknown, hstripe]
              refine ⟨by rw [Option.bind_some, hsub]; rfl, ?_⟩
              unfold handleInvoicePaymentSucceeded
              rw [hstripe]
              dsimp only
              rw [hresolve]
              rw [hsub]
              rfl
          | some sub =>
              right
              rw [hsuccess stripeId sub hstripe hsub]
              refine ⟨sub, invoice, ?_, hinvoice, .inl ⟨rfl, rfl⟩⟩
              rw [hknown, hstripe, Option.bind_some, hsub]
              rfl
  | false =>
      rw [hdeliver, hfailed hpays]
      cases hsub : invoice.subscription.bind db.findStripeSubscription with
      | none =>
          left
          rw [hknown, hsub]
          refine ⟨rfl, ?_⟩
          unfold handleInvoicePaymentFailed
          rw [hsub]
      | some sub =>
          right
          rw [hfailure sub hsub]
          refine ⟨sub, invoice, ?_, hinvoice, .inr ⟨rfl, rfl⟩⟩
          rw [hknown, hsub]
          rfl

/-- A stored payment stays as it is. -/
theorem findPayment_deliver_of_found {p : Payment} (hresolves : d.ResolvesTo paymentIntentId)
    (hfound : db.findPayment paymentIntentId = some p) :
    (deliver db d).findPayment paymentIntentId = some p := by
  rcases @deliver_cases db _ _ hresolves with ⟨-, h⟩ | ⟨sub, invoice, -, -, ⟨-, h⟩ | ⟨-, h⟩⟩
  · rw [h, hfound]
  · rw [h, findPayment_updateSubscription, upsertPayment_of_found hfound, hfound]
  · rw [h, upsertPayment_of_found hfound, hfound]

/-- The first delivery of a known subscription decides the row. -/
theorem findPayment_deliver_of_known (hresolves : d.ResolvesTo paymentIntentId)
    (hknown : d.known db = true) (hfree : db.findPayment paymentIntentId = none) :
    ∃ p invoice, (deliver db d).findPayment paymentIntentId = some p ∧
      d.event.body.invoice? = some invoice ∧
      (d.event.body.paysInvoice = true → p.status = .succeeded ∧
        p.amount = invoice.amountPaid ∧ p.refundAvailable = true) ∧
      (d.event.body.paysInvoice = false → p.status = .failed) := by
  rcases @deliver_cases db _ _ hresolves with
    ⟨hunknown, -⟩ | ⟨sub, invoice, -, hinvoice, ⟨hpays, h⟩ | ⟨hpays, h⟩⟩
  · rw [hunknown] at hknown
    cases hknown
  · have hfound := @findPayment_upsertPayment _ (invoicePayment d.api sub invoice paymentIntentId
      .succeeded invoice.amountPaid) hfree
    rw [← @findPayment_updateSubscription _ _ sub.id (SubscriptionColumns.setPeriod
        invoice.period)] at hfound
    refine ⟨_, invoice, h ▸ hfound, hinvoice, fun _ => ⟨rfl, rfl, rfl⟩, fun hnot => ?_⟩
    rw [hpays] at hnot
    cases hnot
  · have hfound := @findPayment_upsertPayment _ (invoicePayment d.api sub invoice paymentIntentId
      .failed invoice.amountDue) hfree
    refine ⟨_, invoice, h ▸ hfound, hinvoice, fun hnot => ?_, fun _ => rfl⟩
    rw [hpays] at hnot
    cases hnot

/-- Once the row is there, no further delivery changes the outcome. -/
theorem findPayment_deliverAll_of_found {p : Payment} {ds : List Delivery}
    (hresolves : ∀ d ∈ ds, d.ResolvesTo paymentIntentId)
    (hfound : db.findPayment paymentIntentId = some p) :
    (ds.foldl deliver db).findPayment paymentIntentId = some p := by
  induction ds generalizing db with
  | nil => exact hfound
  | cons d ds ih =>
      rw [List.foldl_cons]
      exact ih (fun d' hd' => hresolves d' (List.mem_cons_of_mem _ hd'))
        (findPayment_deliver_of_found (hresolves d List.mem_cons_self) hfound)

/-- The retry wins exactly when the first delivery of a known subscription is a success. -/
theorem retryWon_iff {ds : List Delivery} {amount : ℤ}
    (hfree : db.findPayment paymentIntentId = none)
    (hresolves : ∀ d ∈ ds, d.ResolvesTo paymentIntentId)
    (hamount : ∀ d ∈ ds, d.event.body.paysInvoice = true →
      ∀ invoice ∈ d.event.body.invoice?, invoice.amountPaid = amount) :
    RetryWon paymentIntentId amount (ds.foldl deliver db) ↔
      ∃ d, ds.find? (Delivery.known db) = some d ∧ d.event.body.paysInvoice = true := by
  induction ds generalizing db with
  | nil =>
      constructor
      · rintro ⟨p, hfound, -⟩
        rw [List.foldl_nil, hfree] at hfound
        cases hfound
      · rintro ⟨d, hfind, -⟩
        cases hfind
  | cons d ds ih =>
      have hd := hresolves d List.mem_cons_self
      have hrest : ∀ d' ∈ ds, d'.ResolvesTo paymentIntentId :=
        fun d' hd' => hresolves d' (List.mem_cons_of_mem _ hd')
      rw [List.foldl_cons]
      cases hknown : d.known db with
      | false =>
          have hsame : deliver db d = db := by
            rcases @deliver_cases db _ _ hd with ⟨-, h⟩ | ⟨_, _, hyes, -⟩
            · exact h
            · rw [hknown] at hyes
              cases hyes
          rw [hsame, List.find?_cons_of_neg (by simp [hknown])]
          exact ih hfree hrest fun d' hd' => hamount d' (List.mem_cons_of_mem _ hd')
      | true =>
          obtain ⟨p, invoice, hfound, hinvoice, hpaid, hfailed⟩ :=
            findPayment_deliver_of_known hd hknown hfree
          have hend := findPayment_deliverAll_of_found hrest hfound
          rw [List.find?_cons_of_pos hknown]
          constructor
          · rintro ⟨p', hfound', hstatus, -⟩
            cases hend.symm.trans hfound'
            refine ⟨d, rfl, ?_⟩
            by_contra hnot
            rw [hfailed (by simpa using hnot)] at hstatus
            cases hstatus
          · rintro ⟨d', hd', hpays⟩
            cases hd'
            obtain ⟨hstatus, hpaidAmount, hflag⟩ := hpaid hpays
            refine ⟨p, hend, hstatus, ?_, hflag⟩
            rw [hpaidAmount]
            exact hamount d List.mem_cons_self hpays invoice hinvoice

end Deliveries

/-! ### One invoice -/

def firstDelivery (id : String) (body : Invoice → EventBody) : Delivery :=
  ⟨⟨id, body firstInvoice⟩, quietApi⟩

theorem firstDelivery_resolves {id : String} {body : Invoice → EventBody}
    (hbody : (body firstInvoice).invoice? = some firstInvoice) :
    (firstDelivery id body).ResolvesTo "pi_1" := ⟨firstInvoice, hbody, rfl⟩

/-- Both success events of one paid invoice. -/
def paidTwice : List Delivery :=
  [firstDelivery "evt_1" .invoicePaid, firstDelivery "evt_2" .invoicePaymentSucceeded]

theorem retryWon_paidTwice :
    RetryWon "pi_1" 900 (paidTwice.foldl deliver proUser) ↔
      ∃ d, paidTwice.find? (Delivery.known proUser) = some d ∧
        d.event.body.paysInvoice = true := by
  refine retryWon_iff (by decide +kernel) (fun d hd => ?_) fun d hd hpays invoice hinvoice => ?_
  · simp only [paidTwice, List.mem_cons, List.not_mem_nil, or_false] at hd
    rcases hd with rfl | rfl
    · exact firstDelivery_resolves rfl
    · exact firstDelivery_resolves rfl
  · simp only [paidTwice, List.mem_cons, List.not_mem_nil, or_false] at hd
    rcases hd with rfl | rfl
    · cases hinvoice
      rfl
    · cases hinvoice
      rfl

/-- A failed attempt, then the successful retry of the same payment intent. -/
def failedThenPaid : List Delivery :=
  [firstDelivery "evt_1" .invoicePaymentFailed, firstDelivery "evt_2" .invoicePaid]

theorem failedThenPaid_not_won :
    proUser.findPayment "pi_1" = none ∧ (∀ d ∈ failedThenPaid, d.ResolvesTo "pi_1") ∧
      (∃ d ∈ failedThenPaid, d.event.body.paysInvoice = true ∧ d.known proUser = true) ∧
      ¬ RetryWon "pi_1" 900 (failedThenPaid.foldl deliver proUser) := by
  refine ⟨by decide +kernel, fun d hd => ?_, by decide +kernel, ?_⟩
  · simp only [failedThenPaid, List.mem_cons, List.not_mem_nil, or_false] at hd
    rcases hd with rfl | rfl
    · exact firstDelivery_resolves rfl
    · exact firstDelivery_resolves rfl
  · rintro ⟨p, hfound, hstatus, -⟩
    have hfailed : ((failedThenPaid.foldl deliver proUser).findPayment "pi_1").all
        (fun p => p.status = .failed) = true := by
      decide +kernel
    rw [hfound] at hfailed
    simp [hstatus] at hfailed

end Neonfi.Billing

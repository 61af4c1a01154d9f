import Neonfi.Billing.Frame
import Neonfi.Billing.Retries

/-!
# The books of one subscription

What the events of one Stripe subscription are for: the subscription row of its user and one
payment per payment intent.  The handlers refine the effects on these books.
-/

namespace Neonfi.Billing

open Lib
open Ledger (Failure require_ok bind_eq_ok)

/-! ## Books and effects -/

/-- A payment without its numbers and its time. -/
structure Entry where
  status : PaymentStatus
  refundAvailable : Bool
  amount : ℤ
  currency : String
  deriving DecidableEq, Repr

def PaymentData.entry (data : PaymentData) : Entry :=
  ⟨data.status, data.refundAvailable, data.amount, data.currency⟩

@[ext]
structure Books where
  sub : Option SubscriptionColumns
  payments : String → Option Entry

def Db.books (userId : ℕ) (db : Db) : Books where
  sub := (db.findSubscriptionByUserId userId).map Subscription.toSubscriptionColumns
  payments paymentIntentId := (db.findPayment paymentIntentId).map fun p => p.entry

/-- The row of the user is that of the Stripe subscription. -/
def Books.linked (stripeId : String) (books : Books) : Bool :=
  books.sub.any fun s => s.stripeSubscriptionId = some stripeId

/-- A payment intent is recorded once. -/
def Books.record (paymentIntentId : String) (entry : Entry) (books : Books) :
    String → Option Entry :=
  Function.update books.payments paymentIntentId
    (some ((books.payments paymentIntentId).getD entry))

def Entry.refund (entry : Entry) : Entry :=
  { entry with status := .refunded, refundAvailable := false }

/-- The columns after the end of the Stripe subscription. -/
def SubscriptionColumns.delete (s : SubscriptionColumns) : SubscriptionColumns :=
  if s.scheduledPlan = some .free then freeColumns else s.expire

inductive Effect
  | checkout (columns : SubscriptionColumns) (payment : Option (String × Entry))
  | paid (paymentIntentId : String) (entry : Entry) (period : Period)
  | failed (paymentIntentId : String) (entry : Entry)
  | updated (raw : StripeSubscription)
  | deleted
  | refunded (paymentIntentId : String)
  | nothing

def Books.apply (stripeId : String) (books : Books) : Effect → Books
  | .checkout columns none => { books with sub := some columns }
  | .checkout columns (some (paymentIntentId, entry)) =>
      { sub := some columns, payments := books.record paymentIntentId entry }
  | .paid paymentIntentId entry period =>
      if books.linked stripeId then
        { sub := books.sub.map (SubscriptionColumns.setPeriod period)
          payments := books.record paymentIntentId entry }
      else books
  | .failed paymentIntentId entry =>
      if books.linked stripeId then
        { books with payments := books.record paymentIntentId entry }
      else books
  | .updated raw =>
      if books.linked stripeId then { books with sub := books.sub.map raw.apply } else books
  | .deleted =>
      if books.linked stripeId then { books with sub := books.sub.map .delete } else books
  | .refunded paymentIntentId =>
      { books with
        payments := Function.update books.payments paymentIntentId
          ((books.payments paymentIntentId).map Entry.refund) }
  | .nothing => books

/-! ## The effect of a delivery -/

/-- The payment a checkout session creates. -/
def CheckoutSession.payment (session : CheckoutSession) : Option (String × Entry) :=
  session.paymentIntent.map fun paymentIntentId =>
    (paymentIntentId,
      ⟨.succeeded, true, session.amountTotal.getD 0, (session.currency.getD "usd").toLower⟩)

def CheckoutSession.effect (api : StripeApi) (session : CheckoutSession) : Effect :=
  match session.userId.filter (· ≠ 0), session.subscription with
  | some _, some stripeSubscriptionId =>
      match api.retrieveSubscription stripeSubscriptionId with
      | .ok (some period) =>
          .checkout
            (checkoutColumns (session.billingCycle.getD .monthly) session.customer
              stripeSubscriptionId period) session.payment
      | _ => .nothing
  | _, _ => .nothing

def Invoice.paidEffect (api : StripeApi) (invoice : Invoice) : Effect :=
  match resolveInvoicePaymentIntentId api invoice with
  | .ok (some paymentIntentId) =>
      .paid paymentIntentId
        ⟨.succeeded, true, invoice.amountPaid, invoice.currency.toLower⟩ invoice.period
  | _ => .nothing

def Invoice.failedEffect (api : StripeApi) (eventId : String) (invoice : Invoice) : Effect :=
  match resolveInvoicePaymentIntentId api invoice with
  | .ok paymentIntentId? =>
      .failed (paymentIntentId?.getD s!"failed_{eventId}")
        ⟨.failed, false, invoice.amountDue, invoice.currency.toLower⟩
  | .error _ => .nothing

def Charge.effect (charge : Charge) : Effect :=
  match charge.paymentIntent with
  | some paymentIntentId => .refunded paymentIntentId
  | none => .nothing

def Delivery.effect (d : Delivery) : Effect :=
  match d.event.body with
  | .checkoutSessionCompleted session => session.effect d.api
  | .invoicePaid invoice => invoice.paidEffect d.api
  | .invoicePaymentSucceeded invoice => invoice.paidEffect d.api
  | .invoicePaymentFailed invoice => invoice.failedEffect d.api d.event.id
  | .subscriptionUpdated raw => .updated raw
  | .subscriptionDeleted _ => .deleted
  | .chargeRefunded charge => charge.effect

/-- The event is one of this user's subscription. -/
def Delivery.Concerns (userId : ℕ) (stripeId : String) (d : Delivery) : Prop :=
  match d.event.body with
  | .checkoutSessionCompleted session =>
      session.userId.filter (· ≠ 0) = some userId ∧ session.subscription = some stripeId
  | .invoicePaid invoice => invoice.subscription = some stripeId
  | .invoicePaymentSucceeded invoice => invoice.subscription = some stripeId
  | .invoicePaymentFailed invoice => invoice.subscription = some stripeId
  | .subscriptionUpdated raw => raw.id = stripeId
  | .subscriptionDeleted raw => raw.id = stripeId
  | .chargeRefunded _ => True

/-- No other user has a row of this Stripe subscription. -/
def Owns (userId : ℕ) (stripeId : String) (db : Db) : Prop :=
  ∀ s ∈ db.subscriptions.rows, s.stripeSubscriptionId = some stripeId → s.userId = userId

/-! ## Statements on the books -/

section Statements

variable {userId : ℕ} {stripeId : String} {db db' : Db}

/-- The row of the Stripe subscription is the row of its user, where that is linked. -/
theorem findStripeSubscription_eq (hown : Owns userId stripeId db) :
    db.findStripeSubscription stripeId =
      (db.findSubscriptionByUserId userId).filter
        fun s => s.stripeSubscriptionId = some stripeId := by
  cases hfind : db.findStripeSubscription stripeId with
  | some sub =>
      have hmem := List.mem_of_find?_eq_some hfind
      have hkey : sub.stripeSubscriptionId = some stripeId := by
        simpa using List.find?_some hfind
      have huser : db.findSubscriptionByUserId userId = some sub :=
        SerialTable.findUniq?_eq_some_iff.mpr ⟨hmem, by rw [hown sub hmem hkey]⟩
      rw [huser, Option.filter_some, if_pos (by simpa using hkey)]
  | none =>
      cases huser : db.findSubscriptionByUserId userId with
      | none => rfl
      | some sub =>
          have hmem := (SerialTable.findUniq?_eq_some_iff.mp huser).1
          have hnot := List.find?_eq_none.mp hfind sub hmem
          rw [Option.filter_some, if_neg hnot]

theorem linked_books (hown : Owns userId stripeId db) :
    (db.books userId).linked stripeId = (db.findStripeSubscription stripeId).isSome := by
  rw [findStripeSubscription_eq hown]
  unfold Books.linked Db.books
  dsimp only
  cases db.findSubscriptionByUserId userId with
  | none => rfl
  | some sub =>
      rw [Option.map_some, Option.any_some, Option.filter_some]
      split
      · next h => exact h
      · next h => exact Bool.eq_false_iff.mpr h

theorem findUser_of_findStripe (hown : Owns userId stripeId db) {sub : Subscription}
    (h : db.findStripeSubscription stripeId = some sub) :
    db.findSubscriptionByUserId userId = some sub := by
  rw [findStripeSubscription_eq hown] at h
  exact (Option.filter_eq_some_iff.mp h).1

theorem books_updateSubscription {sub : Subscription}
    {f : SubscriptionColumns → SubscriptionColumns}
    (hsub : db.findSubscriptionByUserId userId = some sub) :
    (db.updateSubscription sub.id f).books userId =
      { db.books userId with sub := (db.books userId).sub.map f } := by
  unfold Db.books
  rw [findSubscriptionByUserId_updateSubscription, hsub, Option.map_some, Option.map_some,
    Option.map_some, toSubscriptionColumns_updated rfl]
  rfl

theorem owns_updateSubscription {subId : ℕ} {f : SubscriptionColumns → SubscriptionColumns}
    (hown : Owns userId stripeId db)
    (hf : ∀ sub ∈ db.subscriptions.rows, sub.id = subId → sub.userId = userId ∨
      (f sub.toSubscriptionColumns).stripeSubscriptionId = sub.stripeSubscriptionId) :
    Owns userId stripeId (db.updateSubscription subId f) := by
  intro s hs hkey
  rw [rows_updateSubscription] at hs
  obtain ⟨old, hold, rfl⟩ := List.mem_map.mp hs
  unfold Subscription.updated at hkey ⊢
  split at hkey
  · next hid =>
      rw [if_pos hid]
      rcases hf old hold hid with huser | hsame
      · exact huser
      · exact hown old hold (hsame.symm.trans hkey)
  · next hid =>
      rw [if_neg hid]
      exact hown old hold hkey

theorem owns_of_subscriptions (hown : Owns userId stripeId db)
    (hsame : db'.subscriptions = db.subscriptions) : Owns userId stripeId db' := by
  intro s hs
  rw [hsame] at hs
  exact hown s hs

/-- A rewrite of the user's row. -/
theorem owns_update (hown : Owns userId stripeId db) {sub : Subscription}
    {f : SubscriptionColumns → SubscriptionColumns}
    (hsub : db.findSubscriptionByUserId userId = some sub) :
    Owns userId stripeId (db.updateSubscription sub.id f) := by
  obtain ⟨hmem, huser⟩ := SerialTable.findUniq?_eq_some_iff.mp hsub
  refine owns_updateSubscription hown fun old hold hid => .inl ?_
  rw [SerialTable.eq_of_id_eq hold hmem hid]
  exact Option.some.inj huser

theorem findSubscriptionByUserId_upsertPayment {data : PaymentData} :
    (db.upsertPayment data).findSubscriptionByUserId userId =
      db.findSubscriptionByUserId userId := by
  unfold Db.findSubscriptionByUserId
  rw [subscriptions_upsertPayment]

theorem books_upsertPayment {data : PaymentData} :
    (db.upsertPayment data).books userId =
      { db.books userId with
        payments := (db.books userId).record data.stripePaymentIntentId data.entry } := by
  unfold Db.books Books.record
  rw [findSubscriptionByUserId_upsertPayment]
  ext : 1
  · rfl
  · funext paymentIntentId
    dsimp only
    rw [findPayment_upsertPayment_or, Function.update_apply]
    by_cases heq : paymentIntentId = data.stripePaymentIntentId
    · subst heq
      rw [if_pos rfl, if_pos rfl]
      cases db.findPayment data.stripePaymentIntentId <;> rfl
    · rw [if_neg heq, if_neg (Ne.symm heq), Option.or_none]

theorem createPayment_ok {data : PaymentData} (h : db.createPayment data = .ok db') :
    db' = db.upsertPayment data := by
  unfold Db.createPayment at h
  unfold Db.upsertPayment
  split at h
  · cases h
    rfl
  · cases h

/-- A rewrite of the payment of one payment intent. -/
theorem books_updatePayment {paymentIntentId : String} {payment : Payment}
    {f : PaymentState → PaymentState} {g : Entry → Entry}
    (hfound : db.findPayment paymentIntentId = some payment)
    (hg : ∀ data : PaymentData, { data with toPaymentState := f data.toPaymentState }.entry =
      g data.entry) :
    (db.updatePayment payment.id f).books userId =
      { db.books userId with
        payments := Function.update (db.books userId).payments paymentIntentId
          (((db.books userId).payments paymentIntentId).map g) } := by
  unfold Db.books
  ext : 1
  · rfl
  · funext other
    dsimp only
    rw [Function.update_apply]
    have hfind : (db.updatePayment payment.id f).findPayment other =
        (db.findPayment other).map fun p =>
          if p.id = payment.id then { p with toPaymentState := f p.toPaymentState } else p := by
      unfold Db.findPayment Db.updatePayment
      rw [SerialTable.findUniq?_modify]
    rw [hfind]
    by_cases heq : other = paymentIntentId
    · rw [if_pos heq, heq, hfound, Option.map_some, Option.map_some, Option.map_some,
        Option.map_some, if_pos rfl, ← hg]
    · rw [if_neg heq, Option.map_map]
      cases hother : db.findPayment other with
      | none => rfl
      | some p =>
          have hne : p.id ≠ payment.id := by
            intro hid
            obtain ⟨hmem, hkey⟩ := findPayment_eq_some_iff.mp hother
            obtain ⟨hmem', hkey'⟩ := findPayment_eq_some_iff.mp hfound
            rw [SerialTable.eq_of_id_eq hmem hmem' hid, hkey'] at hkey
            exact heq hkey.symm
          rw [Option.map_some, Option.map_some, Function.comp_apply, if_neg hne]

theorem books_upsertSubscription {columns : SubscriptionColumns}
    (h : upsertSubscriptionFromCheckout userId columns db = .ok db') :
    db'.books userId = { db.books userId with sub := some columns } := by
  unfold upsertSubscriptionFromCheckout at h
  split at h
  · next sub hsub =>
      cases h
      rw [books_updateSubscription hsub]
      unfold Db.books
      rw [hsub]
      rfl
  · next hnone =>
      unfold Db.createSubscription at h
      split at h
      · cases h
      · split at h
        · next subscriptions hinsert =>
            cases h
            have hnone' : db.subscriptions.findUniq? userId = none := hnone
            unfold Db.books Db.findSubscriptionByUserId
            dsimp only
            rw [SerialTable.findUniq?_of_insert? hinsert, hnone', Option.none_or, if_pos rfl]
            rfl
        · cases h

theorem owns_upsertSubscription {columns : SubscriptionColumns}
    (hown : Owns userId stripeId db)
    (h : upsertSubscriptionFromCheckout userId columns db = .ok db') :
    Owns userId stripeId db' := by
  unfold upsertSubscriptionFromCheckout at h
  split at h
  · next sub hsub =>
      cases h
      exact owns_update hown hsub
  · unfold Db.createSubscription at h
    split at h
    · cases h
    · split at h
      · next hinsert =>
          cases h
          intro s hs hkey
          rw [(SerialTable.of_insert? hinsert).1] at hs
          rcases List.mem_append.mp hs with hold | hnew
          · exact hown s hold hkey
          · rw [List.mem_singleton.mp hnew]
      · cases h

end Statements

/-! ## The handlers refine the effects -/

section Handlers

variable {userId : ℕ} {stripeId : String} {db db' : Db} {api : StripeApi}

/-- The database shows the books, and the subscription is this user's. -/
structure Shows (userId : ℕ) (stripeId : String) (db : Db) (books : Books) : Prop where
  books : db.books userId = books
  owns : Owns userId stripeId db

theorem shows_checkout {session : CheckoutSession} (hown : Owns userId stripeId db)
    (huser : session.userId.filter (· ≠ 0) = some userId)
    (hstripe : session.subscription = some stripeId)
    (h : handleCheckoutSessionCompleted api session db = .ok db') :
    Shows userId stripeId db' ((db.books userId).apply stripeId (session.effect api)) := by
  unfold handleCheckoutSessionCompleted at h
  unfold CheckoutSession.effect
  rw [huser, hstripe] at h ⊢
  dsimp only at h ⊢
  obtain ⟨period?, hretrieve, h⟩ := bind_eq_ok h
  obtain ⟨period, hperiod, h⟩ := bind_eq_ok h
  obtain ⟨db₁, hupsert, h⟩ := bind_eq_ok h
  obtain ⟨db₂, hpayment, honboard⟩ := bind_eq_ok h
  rw [hretrieve, require_ok hperiod]
  dsimp only
  have hbooks := books_upsertSubscription hupsert
  have hown₁ := owns_upsertSubscription hown hupsert
  have hlast : db'.books userId = db₂.books userId ∧ db'.subscriptions = db₂.subscriptions := by
    unfold Db.transitionToCompleteOnboarding at honboard
    split at honboard
    · cases honboard
    · cases honboard
      exact ⟨rfl, rfl⟩
  unfold createCheckoutPayment at hpayment
  unfold CheckoutSession.payment
  cases hintent : session.paymentIntent with
  | none =>
      rw [hintent] at hpayment
      cases hpayment
      exact ⟨hlast.1.trans hbooks, owns_of_subscriptions hown₁ hlast.2⟩
  | some paymentIntentId =>
      rw [hintent] at hpayment
      have hcreated := createPayment_ok hpayment
      subst hcreated
      refine ⟨?_, owns_of_subscriptions hown₁ (hlast.2.trans subscriptions_upsertPayment)⟩
      rw [hlast.1, books_upsertPayment, hbooks]
      rfl

theorem shows_invoicePaid {invoice : Invoice} (hown : Owns userId stripeId db)
    (hstripe : invoice.subscription = some stripeId)
    (h : handleInvoicePaymentSucceeded api invoice db = .ok db') :
    Shows userId stripeId db' ((db.books userId).apply stripeId (invoice.paidEffect api)) := by
  unfold handleInvoicePaymentSucceeded at h
  unfold Invoice.paidEffect
  rw [hstripe] at h
  dsimp only at h
  obtain ⟨paymentIntentId?, hresolve, h⟩ := bind_eq_ok h
  rw [hresolve]
  cases paymentIntentId? with
  | none =>
      cases h
      exact ⟨rfl, hown⟩
  | some paymentIntentId =>
      dsimp only at h ⊢
      unfold Books.apply
      dsimp only
      rw [linked_books hown]
      cases hfind : db.findStripeSubscription stripeId with
      | none =>
          rw [hfind] at h
          cases h
          exact ⟨rfl, hown⟩
      | some sub =>
          rw [hfind] at h
          cases h
          have huser := findUser_of_findStripe hown hfind
          rw [← @findSubscriptionByUserId_upsertPayment userId] at huser
          refine ⟨?_, owns_update (owns_of_subscriptions hown subscriptions_upsertPayment) huser⟩
          rw [books_updateSubscription huser, books_upsertPayment]
          rfl

theorem shows_invoiceFailed {eventId : String} {invoice : Invoice}
    (hown : Owns userId stripeId db) (hstripe : invoice.subscription = some stripeId)
    (h : handleInvoicePaymentFailed api eventId invoice db = .ok db') :
    Shows userId stripeId db'
      ((db.books userId).apply stripeId (invoice.failedEffect api eventId)) := by
  unfold handleInvoicePaymentFailed at h
  rw [hstripe, Option.bind_some] at h
  have hlinked := linked_books hown
  cases hfind : db.findStripeSubscription stripeId with
  | none =>
      rw [hfind] at h hlinked
      cases h
      refine ⟨?_, hown⟩
      unfold Invoice.failedEffect
      split
      · unfold Books.apply
        dsimp only
        rw [hlinked]
        rfl
      · rfl
  | some sub =>
      rw [hfind] at h hlinked
      dsimp only at h
      obtain ⟨paymentIntentId?, hresolve, h⟩ := bind_eq_ok h
      cases h
      unfold Invoice.failedEffect
      rw [hresolve]
      dsimp only
      refine ⟨?_, owns_of_subscriptions hown subscriptions_upsertPayment⟩
      unfold Books.apply
      dsimp only
      rw [hlinked, books_upsertPayment]
      rfl

theorem shows_updated {raw : StripeSubscription} (hown : Owns userId stripeId db)
    (hstripe : raw.id = stripeId) :
    Shows userId stripeId (handleSubscriptionUpdated raw db)
      ((db.books userId).apply stripeId (.updated raw)) := by
  unfold handleSubscriptionUpdated Books.apply
  dsimp only
  rw [hstripe, linked_books hown]
  cases hfind : db.findStripeSubscription stripeId with
  | none => exact ⟨rfl, hown⟩
  | some sub =>
      have huser := findUser_of_findStripe hown hfind
      exact ⟨books_updateSubscription huser, owns_update hown huser⟩

theorem shows_deleted {raw : StripeSubscription} (hown : Owns userId stripeId db)
    (hstripe : raw.id = stripeId) :
    Shows userId stripeId (handleSubscriptionDeleted raw db)
      ((db.books userId).apply stripeId .deleted) := by
  unfold handleSubscriptionDeleted Books.apply
  dsimp only
  rw [hstripe, linked_books hown]
  cases hfind : db.findStripeSubscription stripeId with
  | none => exact ⟨rfl, hown⟩
  | some sub =>
      have huser := findUser_of_findStripe hown hfind
      have hcolumns : (db.books userId).sub = some sub.toSubscriptionColumns := by
        unfold Db.books
        rw [huser]
        rfl
      have hdelete : ∀ f, f sub.toSubscriptionColumns = sub.toSubscriptionColumns.delete →
          Shows userId stripeId (db.updateSubscription sub.id f)
            { db.books userId with
              sub := (db.books userId).sub.map SubscriptionColumns.delete } := by
        intro f hf
        refine ⟨?_, owns_update hown huser⟩
        rw [books_updateSubscription huser, hcolumns, Option.map_some, Option.map_some, hf]
      dsimp only
      split
      · next hfree => exact hdelete _ (if_pos hfree).symm
      · next hfree => exact hdelete _ (if_neg hfree).symm

theorem shows_refunded {charge : Charge} (hown : Owns userId stripeId db) :
    Shows userId stripeId (handleChargeRefunded charge db)
      ((db.books userId).apply stripeId charge.effect) := by
  unfold handleChargeRefunded Charge.effect
  cases charge.paymentIntent with
  | none => exact ⟨rfl, hown⟩
  | some paymentIntentId =>
      rw [Option.bind_some]
      cases hfound : db.findPayment paymentIntentId with
      | none =>
          refine ⟨?_, hown⟩
          unfold Books.apply Db.books
          dsimp only
          rw [hfound]
          ext : 1
          · rfl
          · funext other
            dsimp only
            rw [Function.update_apply]
            split
            · next heq => rw [heq, hfound]; rfl
            · rfl
      | some payment => exact ⟨books_updatePayment hfound fun _ => rfl, hown⟩

/-- A handled event of the subscription has its effect on the books. -/
theorem shows_dispatch {d : Delivery} (hown : Owns userId stripeId db)
    (hconcerns : d.Concerns userId stripeId) (h : dispatch d.api d.event db = .ok db') :
    Shows userId stripeId db' ((db.books userId).apply stripeId d.effect) := by
  unfold dispatch at h
  unfold Delivery.Concerns at hconcerns
  unfold Delivery.effect
  cases hbody : d.event.body with
  | checkoutSessionCompleted session =>
      rw [hbody] at h hconcerns
      exact shows_checkout hown hconcerns.1 hconcerns.2 h
  | invoicePaid invoice =>
      rw [hbody] at h hconcerns
      exact shows_invoicePaid hown hconcerns h
  | invoicePaymentSucceeded invoice =>
      rw [hbody] at h hconcerns
      exact shows_invoicePaid hown hconcerns h
  | invoicePaymentFailed invoice =>
      rw [hbody] at h hconcerns
      exact shows_invoiceFailed hown hconcerns h
  | subscriptionUpdated raw =>
      rw [hbody] at h hconcerns
      cases h
      exact shows_updated hown hconcerns
  | subscriptionDeleted raw =>
      rw [hbody] at h hconcerns
      cases h
      exact shows_deleted hown hconcerns
  | chargeRefunded charge =>
      rw [hbody] at h
      cases h
      exact shows_refunded hown

end Handlers

/-- Every event is delivered until it is acknowledged. -/
def deliverAll (db : Db) (ds : List Delivery) : Except Failure Db :=
  ds.foldlM (fun db d => dispatch d.api d.event db) db

/-- The handlers refine the books over any sequence of acknowledged events. -/
theorem books_deliverAll {userId : ℕ} {stripeId : String} {db db' : Db} {ds : List Delivery}
    (hown : Owns userId stripeId db) (hconcerns : ∀ d ∈ ds, d.Concerns userId stripeId)
    (h : deliverAll db ds = .ok db') :
    db'.books userId =
      (ds.map Delivery.effect).foldl (Books.apply stripeId) (db.books userId) := by
  induction ds generalizing db with
  | nil =>
      cases h
      rfl
  | cons d ds ih =>
      obtain ⟨db₁, hfirst, hrest⟩ := bind_eq_ok h
      have hshows := shows_dispatch hown (hconcerns d List.mem_cons_self) hfirst
      rw [ih hshows.owns (fun d' hd' => hconcerns d' (List.mem_cons_of_mem d hd')) hrest,
        hshows.books]
      rfl

end Neonfi.Billing

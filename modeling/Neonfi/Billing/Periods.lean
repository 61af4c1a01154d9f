import Neonfi.Billing.Subscriptions
import Neonfi.Billing.Books

/-!
# The billing period of an upgrade

`stripe-handlers.ts` reads the billing period of a Stripe subscription from its first item,
where the pinned API version keeps it; `upgradeSubscription` reads it from the subscription
itself, after Stripe has made the change.
-/

namespace Neonfi.Billing

open Ledger (Millis Failure require)

/-! ## Stripe subscriptions -/

/-- An item of a Stripe subscription; an absent field is `none`. -/
structure StripeItem where
  id : String
  currentPeriodStart : Option ℤ := none
  currentPeriodEnd : Option ℤ := none
  deriving DecidableEq, Repr

/-- A Stripe subscription.  Its own period fields are those of older API versions. -/
structure StripeObject where
  id : String
  cancelAtPeriodEnd : Bool
  currentPeriodStart : Option ℤ := none
  currentPeriodEnd : Option ℤ := none
  items : List StripeItem
  deriving DecidableEq, Repr

/-- `new Date(seconds * 1000)`. -/
def dateOfSeconds (seconds : ℤ) : Millis := seconds * 1000

/-- The period the handlers read: a missing or zero date counts as no period. -/
def StripeItem.period (item : StripeItem) : Option Period := do
  let start ← item.currentPeriodStart.filter (· ≠ 0)
  let finish ← item.currentPeriodEnd.filter (· ≠ 0)
  return ⟨dateOfSeconds start, dateOfSeconds finish⟩

namespace StripeObject

variable (object : StripeObject)

def itemPeriod : Option Period := object.items.head?.bind StripeItem.period

/-- The period `upgradeSubscription` reads: a missing date makes an invalid `Date`. -/
def topPeriod : Option Period := do
  let start ← object.currentPeriodStart
  let finish ← object.currentPeriodEnd
  return ⟨dateOfSeconds start, dateOfSeconds finish⟩

/-- What `handleSubscriptionUpdated` reads of the object. -/
def updatedEvent : StripeSubscription where
  id := object.id
  cancelAtPeriodEnd := object.cancelAtPeriodEnd
  period := object.itemPeriod

/-- The shape of the pinned API version: the period is on the items only. -/
structure CarriesPeriodOnItems : Prop where
  onItem : object.itemPeriod.isSome
  noStart : object.currentPeriodStart = none
  noEnd : object.currentPeriodEnd = none

end StripeObject

theorem topPeriod_of_onItems {object : StripeObject} (h : object.CarriesPeriodOnItems) :
    object.topPeriod = none := by
  unfold StripeObject.topPeriod
  rw [h.noStart]
  rfl

/-- The handler writes the item's period whenever there is one. -/
theorem currentPeriod_updatedEvent {object : StripeObject} {period : Period}
    (h : object.itemPeriod = some period) (columns : SubscriptionColumns) :
    (object.updatedEvent.apply columns).currentPeriod = some period := by
  change object.itemPeriod.or columns.currentPeriod = some period
  rw [h, Option.some_or]

/-! ## Stripe -/

/-- Stripe as the requests and the handlers call it. -/
structure StripeServer where
  now : Millis
  retrieve : String → Except Failure StripeObject
  /-- `subscriptions.update` with a new price for one item. -/
  changePrice : (id itemId : String) → Price → Except Failure StripeObject
  /-- Every other call. -/
  perform : StripeCall → Except Failure Unit
  retrieveInvoicePaymentIntent : String → Except Failure (Option String)

namespace StripeServer

variable (server : StripeServer)

/-- What a request gets back: a change of price first looks up the item it is about. -/
def answers : StripeAnswers where
  now := server.now
  perform
    | .updateSubscription id (some price) _ => do
        let stripeSub ← server.retrieve id
        let item ← require stripeSub.items.head? nullAccess
        let updatedStripeSub ← server.changePrice id item.id price
        return updatedStripeSub.topPeriod
    | call => do
        server.perform call
        return none

/-- What the handlers get back. -/
def api : StripeApi where
  now := server.now
  retrieveSubscription id := (server.retrieve id).map StripeObject.itemPeriod
  retrieveInvoicePaymentIntent := server.retrieveInvoicePaymentIntent

/-- Stripe makes the yearly change of a subscription and answers with the changed object. -/
def AcceptsYearly (stripeId : String) (object : StripeObject) : Prop :=
  ∃ stripeSub item, server.retrieve stripeId = .ok stripeSub ∧
    stripeSub.items.head? = some item ∧
    server.changePrice stripeId item.id .proYearly = .ok object

end StripeServer

theorem perform_of_acceptsYearly {server : StripeServer} {stripeId : String}
    {object : StripeObject} (h : server.AcceptsYearly stripeId object) :
    server.answers.perform (.updateSubscription stripeId (some .proYearly) false) =
      .ok object.topPeriod := by
  obtain ⟨stripeSub, item, hretrieve, hitem, hchange⟩ := h
  change (do
    let stripeSub ← server.retrieve stripeId
    let item ← require stripeSub.items.head? nullAccess
    let updatedStripeSub ← server.changePrice stripeId item.id .proYearly
    return updatedStripeSub.topPeriod) = _
  rw [hretrieve]
  change (do
    let item ← require stripeSub.items.head? nullAccess
    let updatedStripeSub ← server.changePrice stripeId item.id .proYearly
    return updatedStripeSub.topPeriod) = _
  rw [hitem]
  change (do
    let updatedStripeSub ← server.changePrice stripeId item.id .proYearly
    return updatedStripeSub.topPeriod) = _
  rw [hchange]
  rfl

/-- A completed checkout writes the period of the item, too. -/
theorem currentPeriod_checkout {server : StripeServer} {userId : ℕ} {stripeId : String}
    {object : StripeObject} {period : Period} {session : CheckoutSession} {db db' : Db}
    (hown : Owns userId stripeId db) (huser : session.userId.filter (· ≠ 0) = some userId)
    (hstripe : session.subscription = some stripeId)
    (hretrieve : server.retrieve stripeId = .ok object)
    (hitem : object.itemPeriod = some period)
    (h : handleCheckoutSessionCompleted server.api session db = .ok db') :
    ∃ columns, (db'.books userId).sub = some columns ∧ columns.currentPeriod = some period := by
  have hperiod : server.api.retrieveSubscription stripeId = .ok (some period) := by
    change (server.retrieve stripeId).map StripeObject.itemPeriod = _
    rw [hretrieve, ← hitem]
    rfl
  have heffect : session.effect server.api =
      .checkout (checkoutColumns (session.billingCycle.getD .monthly) session.customer stripeId
        period) session.payment := by
    unfold CheckoutSession.effect
    rw [huser, hstripe]
    dsimp only
    rw [hperiod]
  have hbooks := (shows_checkout hown huser hstripe h).books
  rw [heffect] at hbooks
  refine ⟨checkoutColumns (session.billingCycle.getD .monthly) session.customer stripeId
    period, ?_, rfl⟩
  rw [hbooks]
  cases session.payment <;> rfl

/-! ## Accepted upgrades -/

/-- The row of an active monthly Pro subscription. -/
structure ActiveMonthlyPro (userId : ℕ) (db : Db) (sub : Subscription) (stripeId : String) :
    Prop where
  found : db.findSubscriptionByUserId userId = some sub
  active : sub.status = .active
  pro : sub.plan = .pro
  monthly : sub.billingCycle = some .monthly
  stripeId : sub.stripeSubscriptionId = some stripeId

/-- The upgrade succeeds and the user's row then shows the period that both handlers would
write for the changed object. -/
def Recorded (server : StripeServer) (userId : ℕ) (db : Db) (object : StripeObject) : Prop :=
  ∃ upgraded calls row period,
    upgradeSubscription server.answers userId .yearly db = .ok (upgraded, calls) ∧
      upgraded.findSubscriptionByUserId userId = some row ∧
      row.currentPeriod = some period ∧
      (∀ columns, (object.updatedEvent.apply columns).currentPeriod = some period) ∧
      object.itemPeriod = some period

section Upgrade

variable {server : StripeServer} {userId : ℕ} {db : Db} {sub : Subscription}
  {stripeId : String} {object : StripeObject}

/-- After an accepted change only the period of the changed object decides. -/
theorem upgradeSubscription_of_accepted (hsub : ActiveMonthlyPro userId db sub stripeId)
    (haccepted : server.AcceptsYearly stripeId object) :
    upgradeSubscription server.answers userId .yearly db =
      (require object.topPeriod invalidDate).map fun period =>
        (db.updateSubscription sub.id (SubscriptionColumns.toYearly period),
          [.updateSubscription stripeId (some .proYearly) false]) := by
  have hpaid : ¬ (sub.status = .expired ∨ sub.plan = .free) := by
    rw [hsub.active, hsub.pro]
    decide
  have hupgrade : upgradeSubscription server.answers userId .yearly db =
      upgradeToYearly server.answers sub db := by
    unfold upgradeSubscription
    rw [hsub.found]
    change (if sub.status = .expired ∨ sub.plan = .free then _ else _) = _
    rw [if_neg hpaid, hsub.monthly]
    rfl
  rw [hupgrade]
  unfold upgradeToYearly
  rw [hsub.stripeId]
  change (do
    let period? ← server.answers.perform
      (.updateSubscription stripeId (some .proYearly) false)
    let period ← require period? invalidDate
    return (db.updateSubscription sub.id (SubscriptionColumns.toYearly period),
      [StripeCall.updateSubscription stripeId (some .proYearly) false])) = _
  rw [perform_of_acceptsYearly haccepted]
  cases object.topPeriod <;> rfl

/-- The row after an upgrade that got a period. -/
theorem currentPeriod_toYearly (hfound : db.findSubscriptionByUserId userId = some sub)
    (period : Period) :
    ∃ row, (db.updateSubscription sub.id
        (SubscriptionColumns.toYearly period)).findSubscriptionByUserId userId = some row ∧
      row.currentPeriod = some period := by
  refine ⟨sub.updated sub.id (SubscriptionColumns.toYearly period), ?_, ?_⟩
  · rw [findSubscriptionByUserId_updateSubscription, hfound, Option.map_some]
  · rw [toSubscriptionColumns_updated rfl]
    rfl

/-- An accepted upgrade is recorded exactly when the changed object also has the period of
its first item at top level. -/
theorem recorded_iff (hsub : ActiveMonthlyPro userId db sub stripeId)
    (haccepted : server.AcceptsYearly stripeId object) :
    Recorded server userId db object ↔
      ∃ period, object.topPeriod = some period ∧ object.itemPeriod = some period := by
  have hupgrade := upgradeSubscription_of_accepted hsub haccepted
  constructor
  · rintro ⟨upgraded, calls, row, period, hok, hrow, hperiod, -, hitem⟩
    rw [hupgrade] at hok
    cases htop : object.topPeriod with
    | none =>
        rw [htop] at hok
        cases hok
    | some top =>
        rw [htop] at hok
        cases hok
        obtain ⟨written, hwritten, hshown⟩ := currentPeriod_toYearly hsub.found top
        cases hwritten.symm.trans hrow
        exact ⟨top, rfl, hitem.trans (hperiod.symm.trans hshown)⟩
  · rintro ⟨period, htop, hitem⟩
    rw [htop] at hupgrade
    obtain ⟨row, hrow, hperiod⟩ := currentPeriod_toYearly hsub.found period
    exact ⟨_, _, row, period, hupgrade, hrow, hperiod, currentPeriod_updatedEvent hitem, hitem⟩

/-- With the period on the items only, every accepted upgrade fails on its period values after
Stripe has been changed, and none is recorded. -/
theorem acceptedUpgrade_fails (hsub : ActiveMonthlyPro userId db sub stripeId)
    (haccepted : server.AcceptsYearly stripeId object)
    (hshape : object.CarriesPeriodOnItems) :
    upgradeSubscription server.answers userId .yearly db = .error invalidDate ∧
      ¬ Recorded server userId db object := by
  have htop := topPeriod_of_onItems hshape
  constructor
  · rw [upgradeSubscription_of_accepted hsub haccepted, htop]
    rfl
  · intro hrecorded
    obtain ⟨period, hperiod, -⟩ := (recorded_iff hsub haccepted).mp hrecorded
    rw [htop] at hperiod
    cases hperiod

end Upgrade

/-! ## An upgrade Stripe accepts -/

/-- A subscription with its period on its only item. -/
def itemisedSubscription : StripeObject where
  id := "sub_1"
  cancelAtPeriodEnd := false
  items := [{ id := "si_1", currentPeriodStart := some 30, currentPeriodEnd := some 395 }]

/-- Stripe with that subscription. -/
def itemisedServer : StripeServer where
  now := 10
  retrieve _ := .ok itemisedSubscription
  changePrice _ _ _ := .ok itemisedSubscription
  perform _ := .ok ()
  retrieveInvoicePaymentIntent _ := .ok none

theorem itemised_accepts : itemisedServer.AcceptsYearly "sub_1" itemisedSubscription :=
  ⟨itemisedSubscription, _, rfl, rfl, rfl⟩

theorem itemised_carries : itemisedSubscription.CarriesPeriodOnItems :=
  ⟨rfl, rfl, rfl⟩

theorem proUser_activeMonthly :
    ActiveMonthlyPro 1 proUser (proUser.subscriptions.rows.head (by decide)) "sub_1" :=
  ⟨rfl, rfl, rfl, rfl, rfl⟩

theorem acceptedUpgrade_fails_itemised :
    upgradeSubscription itemisedServer.answers 1 .yearly proUser = .error invalidDate ∧
      ¬ Recorded itemisedServer 1 proUser itemisedSubscription :=
  acceptedUpgrade_fails proUser_activeMonthly itemised_accepts itemised_carries

/-- That every accepted upgrade of a subscription with its period on its items is recorded. -/
def AcceptedUpgradesRecorded : Prop :=
  ∀ (server : StripeServer) (userId : ℕ) (db : Db) (sub : Subscription) (stripeId : String)
    (object : StripeObject), ActiveMonthlyPro userId db sub stripeId →
      server.AcceptsYearly stripeId object → object.CarriesPeriodOnItems →
        Recorded server userId db object

theorem not_acceptedUpgradesRecorded : ¬ AcceptedUpgradesRecorded := by
  intro hrecorded
  obtain ⟨upgraded, calls, row, period, hok, -⟩ :=
    hrecorded _ _ _ _ _ _ proUser_activeMonthly itemised_accepts itemised_carries
  have hfails : upgradeSubscription itemisedServer.answers 1 .yearly proUser =
      .error invalidDate := rfl
  rw [hfails] at hok
  cases hok

end Neonfi.Billing

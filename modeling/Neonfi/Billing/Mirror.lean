import Neonfi.Billing.Frame
import Neonfi.Billing.Subscriptions
import Neonfi.Lib.Run

/-!
# The local subscription and the Stripe subscription

A Stripe subscription is its price, its cancellation flag and the price of a pending schedule.
Requests change both sides; the updated events they cause are handled in order.  When no event
is on its way, the local row shows the pending changes of the Stripe subscription, provided no
request clears a scheduled billing cycle.
-/

namespace Neonfi.Billing

open Lib
open Ledger (Millis require_ok ensure_ok bind_eq_ok)

/-! ## Both sides -/

structure Remote where
  price : Price
  cancelAtPeriodEnd : Bool
  pending : Option Price
  deriving DecidableEq, Repr

/-- What a call does to the Stripe subscription `stripeId`. -/
def Remote.perform (stripeId : String) (remote : Remote) : StripeCall → Remote
  | .updateSubscription id price cancelAtPeriodEnd =>
      if id = stripeId then { remote with price := price.getD remote.price, cancelAtPeriodEnd }
      else remote
  | .createSchedule id phases =>
      if id = stripeId then { remote with pending := some phases.2 } else remote
  | .createCheckoutSession .. => remote
  | .createRefund .. => remote

/-- The tables, the Stripe subscription and its updated events on their way. -/
structure Account where
  db : Db
  remote : Remote
  queue : List StripeSubscription

/-- Stripe performs a call and reports a changed subscription. -/
def Account.perform (stripeId : String) (account : Account) (call : StripeCall) : Account :=
  let remote := account.remote.perform stripeId call
  if remote = account.remote then account
  else
    { account with
      remote
      queue := account.queue ++ [⟨stripeId, remote.cancelAtPeriodEnd, none⟩] }

inductive AccountAction
  | upgrade (userId : ℕ) (requested : BillingCycle)
  | downgrade (userId : ℕ) (body : DowngradeBody)
  | cancel (userId : ℕ)
  | refund (userId : ℕ) (reason : Option String)
  | deliver (period : Option Period)

/-- An action, the time, and the periods Stripe answers with. -/
structure AccountStep where
  action : AccountAction
  now : Millis
  period : StripeCall → Period

/-- Every call succeeds. -/
def AccountStep.stripe (step : AccountStep) : StripeAnswers where
  now := step.now
  perform call := .ok (some (step.period call))

/-- A request is served as a whole; a refused one made no call that changes anything. -/
def Account.serve (stripeId : String) (account : Account) (outcome : Outcome) : Account :=
  match outcome with
  | .ok (db, calls) => calls.foldl (Account.perform stripeId) { account with db }
  | .error _ => account

/-- The next updated event is handled; it carries the billing period of its item. -/
def Account.deliver (period : Option Period) (account : Account) : Account :=
  match account.queue with
  | [] => account
  | event :: queue =>
      { account with db := handleSubscriptionUpdated { event with period } account.db, queue }

def AccountStep.run (stripeId : String) (step : AccountStep) (account : Account) : Account :=
  match step.action with
  | .upgrade userId requested =>
      account.serve stripeId (upgradeSubscription step.stripe userId requested account.db)
  | .downgrade userId body =>
      account.serve stripeId (downgradeSubscription step.stripe userId body account.db)
  | .cancel userId => account.serve stripeId (cancelSubscription step.stripe userId account.db)
  | .refund userId reason =>
      account.serve stripeId
        ((refundSubscription step.stripe userId reason account.db).mapError Prod.fst)
  | .deliver period => account.deliver period

def Follows (stripeId : String) (account : Account) (step : AccountStep)
    (account' : Account) : Prop :=
  step.run stripeId account = account'

/-! ## What the two sides should agree on -/

/-- The row of the Stripe subscription, the only one with its id. -/
structure Account.Links (stripeId : String) (account : Account) (sub : Subscription) : Prop where
  mem : sub ∈ account.db.subscriptions.rows
  stripe : sub.stripeSubscriptionId = some stripeId
  only : ∀ other ∈ account.db.subscriptions.rows,
    other.stripeSubscriptionId = some stripeId → other.id = sub.id

/-- The row shows the cancellation flag. -/
def ShowsFlag (s : SubscriptionColumns) (remote : Remote) : Prop :=
  s.status = .cancelled ∨ s.scheduledPlan = some .free ↔ remote.cancelAtPeriodEnd = true

/-- The row shows the pending schedule. -/
def ShowsSchedule (s : SubscriptionColumns) (remote : Remote) : Prop :=
  ∀ cycle, s.scheduledBillingCycle = some cycle ↔ remote.pending = some cycle.price

/-- No event is on its way and the row shows what is pending at Stripe. -/
structure Account.Mirrors (stripeId : String) (account : Account) : Prop where
  quiet : account.queue = []
  shows : ∃ sub, account.Links stripeId sub ∧
    ShowsFlag sub.toSubscriptionColumns account.remote ∧
    ShowsSchedule sub.toSubscriptionColumns account.remote

/-- An accepted upgrade or refund clears the scheduled billing cycle of the user's row: none
may be there.  An upgrade from yearly to monthly and a refund without an eligible payment are
refused. -/
def LeavesSchedule (account : Account) (step : AccountStep) : Prop :=
  match step.action with
  | .upgrade userId requested =>
      ∀ sub, account.db.findSubscriptionByUserId userId = some sub →
        sub.scheduledBillingCycle = none ∨
          sub.billingCycle = some .yearly ∧ requested = .monthly
  | .refund userId _ =>
      ∀ sub, account.db.findSubscriptionByUserId userId = some sub →
        sub.scheduledBillingCycle = none ∨
          ∀ payment, latestSucceeded userId account.db = some payment →
            payment.refundEligible step.now = false
  | _ => True

/-! ## What a request does to both sides -/

/-- A Stripe call with the columns that are written after it, for a row in which no billing
cycle is scheduled unless the call is a cancellation. -/
inductive Change (stripeId : String) (s : SubscriptionColumns) :
    StripeCall → (SubscriptionColumns → SubscriptionColumns) → Prop
  | toYearly (period : Period) (hnone : s.scheduledBillingCycle = none) :
      Change stripeId s (.updateSubscription stripeId (some .proYearly) false)
        (SubscriptionColumns.toYearly period)
  | reactivate (hnone : s.scheduledBillingCycle = none) :
      Change stripeId s (.updateSubscription stripeId none false) SubscriptionColumns.reactivate
  | scheduleFree (hnone : s.scheduledBillingCycle = none) :
      Change stripeId s (.updateSubscription stripeId none true)
        SubscriptionColumns.scheduleFree
  | scheduleMonthly (hnone : s.scheduledBillingCycle = none) :
      Change stripeId s (.createSchedule stripeId (.proYearly, .proMonthly))
        SubscriptionColumns.scheduleMonthly
  | cancel :
      Change stripeId s (.updateSubscription stripeId none true) SubscriptionColumns.cancel

/-- The call is about no subscription. -/
def StripeCall.sparesSubscriptions : StripeCall → Prop
  | .createCheckoutSession .. | .createRefund .. => True
  | _ => False

/-- What a served request did: nothing to any subscription, or one change to one row. -/
inductive Served (db db' : Db) (calls : List StripeCall) : Prop
  | spared (hsame : db'.subscriptions = db.subscriptions)
      (hcalls : ∀ call ∈ calls, call.sparesSubscriptions)
  | changed (sub : Subscription) (stripeId : String) (before : List StripeCall)
      (call : StripeCall) (f : SubscriptionColumns → SubscriptionColumns)
      (hmem : sub ∈ db.subscriptions.rows)
      (hstripe : sub.stripeSubscriptionId = some stripeId)
      (hchange : Change stripeId sub.toSubscriptionColumns call f)
      (hsame : db'.subscriptions = (db.updateSubscription sub.id f).subscriptions)
      (hbefore : ∀ c ∈ before, c.sparesSubscriptions)
      (hcalls : calls = before ++ [call])

section Requests

variable {step : AccountStep} {db db' : Db} {calls : List StripeCall}

theorem mem_of_findSubscriptionByUserId {userId : ℕ} {sub : Subscription}
    (h : db.findSubscriptionByUserId userId = some sub) : sub ∈ db.subscriptions.rows :=
  (SerialTable.findUniq?_eq_some_iff.mp h).1

/-- A single change of a found row. -/
theorem Served.of_change {sub : Subscription} {stripeId : String} {call : StripeCall}
    {f : SubscriptionColumns → SubscriptionColumns} (hmem : sub ∈ db.subscriptions.rows)
    (hstripe : sub.stripeSubscriptionId = some stripeId)
    (hchange : Change stripeId sub.toSubscriptionColumns call f) :
    Served db (db.updateSubscription sub.id f) [call] :=
  .changed sub stripeId [] call f hmem hstripe hchange rfl (fun _ h => nomatch h) rfl

theorem Served.of_checkout {userId : ℕ} {billingCycle : BillingCycle}
    (h : createProCheckoutSession step.stripe userId billingCycle db = .ok (db', calls)) :
    Served db db' calls := by
  unfold createProCheckoutSession at h
  obtain ⟨_, -, h⟩ := bind_eq_ok h
  cases h
  refine .spared rfl fun call hcall => ?_
  rw [List.mem_singleton.mp hcall]
  trivial

theorem served_upgrade {userId : ℕ} {requested : BillingCycle}
    (hclear : ∀ sub, db.findSubscriptionByUserId userId = some sub →
      sub.scheduledBillingCycle = none ∨ sub.billingCycle = some .yearly ∧ requested = .monthly)
    (h : upgradeSubscription step.stripe userId requested db = .ok (db', calls)) :
    Served db db' calls := by
  unfold upgradeSubscription at h
  obtain ⟨sub, hfind, h⟩ := bind_eq_ok h
  have hfind := require_ok hfind
  have hmem := mem_of_findSubscriptionByUserId hfind
  split at h
  · exact .of_checkout h
  · obtain ⟨current, hcurrent, h⟩ := bind_eq_ok h
    have hcurrent := require_ok hcurrent
    have hreactivate : ∀ {db' : Db} {calls : List StripeCall},
        (requested = .monthly → current ≠ .yearly) →
          reactivateSubscription step.stripe sub db = .ok (db', calls) →
            Served db db' calls := by
      intro db' calls hsame h
      unfold reactivateSubscription at h
      obtain ⟨stripeId, hstripe, h⟩ := bind_eq_ok h
      obtain ⟨_, -, h⟩ := bind_eq_ok h
      cases h
      refine .of_change hmem (require_ok hstripe) (.reactivate ?_)
      rcases hclear sub hfind with hnone | ⟨hyearly, hmonthly⟩
      · exact hnone
      · rw [hcurrent] at hyearly
        exact absurd (Option.some.inj hyearly) (hsame hmonthly)
    cases current with
    | monthly =>
        cases requested with
        | yearly =>
            dsimp only at h
            unfold upgradeToYearly at h
            obtain ⟨stripeId, hstripe, h⟩ := bind_eq_ok h
            obtain ⟨_, -, h⟩ := bind_eq_ok h
            obtain ⟨period, -, h⟩ := bind_eq_ok h
            cases h
            refine .of_change hmem (require_ok hstripe) (.toYearly period ?_)
            rcases hclear sub hfind with hnone | ⟨-, hmonthly⟩
            · exact hnone
            · cases hmonthly
        | monthly =>
            dsimp only at h
            split at h
            · exact hreactivate (fun _ hyearly => nomatch hyearly) h
            · cases h
    | yearly =>
        cases requested with
        | monthly => cases h
        | yearly =>
            dsimp only at h
            split at h
            · exact hreactivate (fun hmonthly => nomatch hmonthly) h
            · cases h

theorem served_downgrade {userId : ℕ} {body : DowngradeBody}
    (h : downgradeSubscription step.stripe userId body db = .ok (db', calls)) :
    Served db db' calls := by
  unfold downgradeSubscription at h
  obtain ⟨sub, hfind, h⟩ := bind_eq_ok h
  have hmem := mem_of_findSubscriptionByUserId (require_ok hfind)
  obtain ⟨_, -, h⟩ := bind_eq_ok h
  obtain ⟨_, hfree, h⟩ := bind_eq_ok h
  have hclear := (ensure_ok hfree).2
  cases body with
  | free =>
      dsimp only at h
      unfold downgradeToFree at h
      obtain ⟨_, -, h⟩ := bind_eq_ok h
      obtain ⟨stripeId, hstripe, h⟩ := bind_eq_ok h
      obtain ⟨_, -, h⟩ := bind_eq_ok h
      cases h
      exact .of_change hmem (require_ok hstripe) (.scheduleFree hclear)
  | monthly =>
      dsimp only at h
      unfold downgradeToMonthly at h
      obtain ⟨_, -, h⟩ := bind_eq_ok h
      obtain ⟨_, -, h⟩ := bind_eq_ok h
      obtain ⟨stripeId, hstripe, h⟩ := bind_eq_ok h
      obtain ⟨_, -, h⟩ := bind_eq_ok h
      cases h
      exact .of_change hmem (require_ok hstripe) (.scheduleMonthly hclear)

theorem served_cancel {userId : ℕ}
    (h : cancelSubscription step.stripe userId db = .ok (db', calls)) : Served db db' calls := by
  unfold cancelSubscription at h
  obtain ⟨sub, hfind, h⟩ := bind_eq_ok h
  have hmem := mem_of_findSubscriptionByUserId (require_ok hfind)
  obtain ⟨_, -, h⟩ := bind_eq_ok h
  obtain ⟨_, -, h⟩ := bind_eq_ok h
  split at h
  · cases h
    exact .spared rfl fun _ hcall => nomatch hcall
  · obtain ⟨stripeId, hstripe, h⟩ := bind_eq_ok h
    obtain ⟨_, -, h⟩ := bind_eq_ok h
    cases h
    exact .of_change hmem (require_ok hstripe) .cancel

theorem served_refund {userId : ℕ} {reason : Option String}
    (hclear : ∀ sub, db.findSubscriptionByUserId userId = some sub →
      sub.scheduledBillingCycle = none ∨
        ∀ payment, latestSucceeded userId db = some payment →
          payment.refundEligible step.now = false)
    (h : (refundSubscription step.stripe userId reason db).mapError Prod.fst =
      .ok (db', calls)) : Served db db' calls := by
  unfold refundSubscription at h
  split at h
  · cases h
  · cases h
  · next sub payment hfind hpayment =>
      have hmem := mem_of_findSubscriptionByUserId hfind
      have hnone : sub.scheduledBillingCycle = none := by
        rcases hclear sub hfind with hnone | hrefused
        · exact hnone
        · unfold findRefundable at hpayment
          obtain ⟨latest, hlatest, hpayment⟩ := bind_eq_ok hpayment
          obtain ⟨_, heligible, -⟩ := bind_eq_ok hpayment
          have heligible := ensure_ok heligible
          have hrefused := hrefused latest (require_ok hlatest)
          have hstepNow : step.stripe.now = step.now := rfl
          rw [hstepNow, hrefused] at heligible
          cases heligible
      split at h
      · cases h
      · next flipped hflip =>
          have hsame : flipped.subscriptions = db.subscriptions := by
            unfold flipRefundable at hflip
            split at hflip
            · cases hflip
              rfl
            · cases hflip
          have hrefunds : ∀ call ∈ [StripeCall.createRefund payment.stripePaymentIntentId reason],
              call.sparesSubscriptions := by
            intro call hcall
            rw [List.mem_singleton.mp hcall]
            trivial
          dsimp only [AccountStep.stripe] at h
          unfold revokeAtPeriodEnd at h
          split at h
          · cases h
            exact .spared hsame hrefunds
          · next stripeId hstripe =>
              split at h
              · cases h
                exact .spared hsame hrefunds
              · cases h
                refine .changed sub stripeId _ _ _ hmem hstripe (.scheduleFree hnone) ?_
                  hrefunds rfl
                unfold Db.updateSubscription
                rw [hsame]

end Requests

/-! ## Agreement through one call -/

/-- What the row and the Stripe subscription agree on at any time: the schedule, and the flag
wherever no updated event can still change the status. -/
structure Agrees (s : SubscriptionColumns) (remote : Remote) : Prop where
  schedule : ShowsSchedule s remote
  free : s.scheduledPlan = some .free → remote.cancelAtPeriodEnd = true
  expired : s.status = .expired → ShowsFlag s remote

theorem BillingCycle.price_injective : Function.Injective BillingCycle.price := by
  intro a b h
  cases a <;> cases b <;> first | rfl | cases h

theorem Price.exists_cycle (price : Price) : ∃ cycle : BillingCycle, cycle.price = price := by
  cases price with
  | proMonthly => exact ⟨.monthly, rfl⟩
  | proYearly => exact ⟨.yearly, rfl⟩

/-- Nothing is scheduled on either side. -/
theorem ShowsSchedule.pending_eq_none {s : SubscriptionColumns} {remote : Remote}
    (h : ShowsSchedule s remote) (hnone : s.scheduledBillingCycle = none) :
    remote.pending = none := by
  cases hpending : remote.pending with
  | none => rfl
  | some price =>
      obtain ⟨cycle, hcycle⟩ := price.exists_cycle
      have hscheduled := (h cycle).mpr (by rw [hpending, hcycle])
      rw [hnone] at hscheduled
      cases hscheduled

theorem showsSchedule_of_none {s : SubscriptionColumns} {remote : Remote}
    (hs : s.scheduledBillingCycle = none) (hremote : remote.pending = none) :
    ShowsSchedule s remote := by
  intro cycle
  rw [hs, hremote]
  constructor <;> intro h <;> cases h

namespace Change

variable {stripeId : String} {call : StripeCall}
  {f : SubscriptionColumns → SubscriptionColumns} {s : SubscriptionColumns} {remote : Remote}

theorem keeps_stripeId (h : Change stripeId s call f) (t : SubscriptionColumns) :
    (f t).stripeSubscriptionId = t.stripeSubscriptionId := by
  cases h <;> rfl

/-- A call on the subscription itself, with the flag it sets. -/
theorem perform_update {price : Option Price} {flag : Bool} :
    remote.perform stripeId (.updateSubscription stripeId price flag) =
      { remote with price := price.getD remote.price, cancelAtPeriodEnd := flag } :=
  if_pos rfl

theorem perform_schedule {phases : Price × Price} :
    remote.perform stripeId (.createSchedule stripeId phases) =
      { remote with pending := some phases.2 } :=
  if_pos rfl

theorem agrees (h : Change stripeId s call f) (hagrees : Agrees s remote) :
    Agrees (f s) (remote.perform stripeId call) := by
  cases h with
  | toYearly period hnone =>
      have hpending := hagrees.schedule.pending_eq_none hnone
      rw [perform_update]
      refine ⟨showsSchedule_of_none rfl hpending, ?_, ?_⟩ <;> intro h <;> cases h
  | reactivate hnone =>
      have hpending := hagrees.schedule.pending_eq_none hnone
      rw [perform_update]
      refine ⟨showsSchedule_of_none rfl hpending, ?_, ?_⟩ <;> intro h <;> cases h
  | scheduleFree hnone =>
      have hpending := hagrees.schedule.pending_eq_none hnone
      rw [perform_update]
      exact ⟨showsSchedule_of_none rfl hpending, fun _ => rfl, fun _ => iff_of_true (.inr rfl) rfl⟩
  | scheduleMonthly hnone =>
      rw [perform_schedule]
      refine ⟨fun cycle => ?_, hagrees.free, hagrees.expired⟩
      show some BillingCycle.monthly = some cycle ↔ some BillingCycle.monthly.price = some
          cycle.price
      rw [Option.some_inj, Option.some_inj, BillingCycle.price_injective.eq_iff]
  | cancel =>
      rw [perform_update]
      refine ⟨hagrees.schedule, fun _ => rfl, ?_⟩
      intro h
      cases h

/-- A call that leaves the Stripe subscription as it was causes no event, and the row shows
the flag already. -/
theorem showsFlag (h : Change stripeId s call f) (hshows : ShowsFlag s remote) :
    ShowsFlag (f s) (remote.perform stripeId call) := by
  cases h with
  | toYearly period hnone =>
      rw [perform_update]
      refine iff_of_false ?_ Bool.false_ne_true
      rintro (h | h) <;> cases h
  | reactivate hnone =>
      rw [perform_update]
      refine iff_of_false ?_ Bool.false_ne_true
      rintro (h | h) <;> cases h
  | scheduleFree hnone =>
      rw [perform_update]
      exact iff_of_true (.inr rfl) rfl
  | scheduleMonthly hnone =>
      rw [perform_schedule]
      exact hshows
  | cancel =>
      rw [perform_update]
      exact iff_of_true (.inl rfl) rfl

end Change

/-! ## The invariant -/

/-- What holds between any two steps of a run: the flag of the last event on its way is the
current one, and without one the row shows the flag. -/
structure Account.Tracks (stripeId : String) (account : Account) (sub : Subscription) : Prop where
  links : account.Links stripeId sub
  agrees : Agrees sub.toSubscriptionColumns account.remote
  quiet : account.queue = [] → ShowsFlag sub.toSubscriptionColumns account.remote
  latest : ∀ event, account.queue.getLast? = some event →
    event.cancelAtPeriodEnd = account.remote.cancelAtPeriodEnd
  ids : ∀ event ∈ account.queue, event.id = stripeId

section Steps

variable {stripeId : String} {account : Account} {sub : Subscription}

theorem Account.Mirrors.tracks (h : account.Mirrors stripeId) :
    ∃ sub, account.Tracks stripeId sub := by
  obtain ⟨sub, hlinks, hflag, hschedule⟩ := h.shows
  refine ⟨sub, hlinks, ⟨hschedule, fun hfree => hflag.mp (.inr hfree), fun _ => hflag⟩,
    fun _ => hflag, ?_, ?_⟩
  · intro event hlast
    rw [h.quiet] at hlast
    cases hlast
  · intro event hevent
    rw [h.quiet] at hevent
    cases hevent

theorem Account.Tracks.mirrors (h : account.Tracks stripeId sub) (hquiet : account.queue = []) :
    account.Mirrors stripeId :=
  ⟨hquiet, sub, h.links, h.quiet hquiet, h.agrees.schedule⟩

/-! ### Calls that spare the subscription -/

theorem Account.perform_of_spared {call : StripeCall}
    (hremote : account.remote.perform stripeId call = account.remote) :
    account.perform stripeId call = account := by
  unfold Account.perform
  dsimp only
  rw [if_pos hremote]

theorem Account.foldl_perform_of_spared {calls : List StripeCall}
    (hcalls : ∀ call ∈ calls, call.sparesSubscriptions) :
    calls.foldl (Account.perform stripeId) account = account := by
  induction calls with
  | nil => rfl
  | cons call calls ih =>
      have hremote : account.remote.perform stripeId call = account.remote := by
        have hspares := hcalls call List.mem_cons_self
        cases call with
        | createCheckoutSession => rfl
        | createRefund => rfl
        | updateSubscription => cases hspares
        | createSchedule => cases hspares
      rw [List.foldl_cons, Account.perform_of_spared hremote]
      exact ih fun c hc => hcalls c (List.mem_cons_of_mem call hc)

theorem Change.perform_of_ne {stripeId' : String} {s : SubscriptionColumns} {call : StripeCall}
    {f : SubscriptionColumns → SubscriptionColumns} {remote : Remote}
    (h : Change stripeId' s call f) (hne : stripeId' ≠ stripeId) :
    remote.perform stripeId call = remote := by
  cases h <;> exact if_neg hne

/-! ### Rewriting a row -/

/-- The links of the rewritten tables. -/
theorem Account.Links.updated (h : account.Links stripeId sub) {account' : Account} {subId : ℕ}
    {f : SubscriptionColumns → SubscriptionColumns}
    (hf : ∀ s, (f s).stripeSubscriptionId = s.stripeSubscriptionId)
    (hsame : account'.db.subscriptions = (account.db.updateSubscription subId f).subscriptions) :
    account'.Links stripeId (Subscription.updated subId f sub) := by
  have hrows : account'.db.subscriptions.rows =
      account.db.subscriptions.rows.map (Subscription.updated subId f) := by
    rw [hsame, rows_updateSubscription]
  have hid : ∀ s, (Subscription.updated subId f s).id = s.id := by
    intro s
    unfold Subscription.updated
    split <;> rfl
  have hstripe : ∀ s, (Subscription.updated subId f s).stripeSubscriptionId =
      s.stripeSubscriptionId := by
    intro s
    unfold Subscription.updated
    split
    · exact hf _
    · rfl
  refine ⟨?_, ?_, ?_⟩
  · rw [hrows]
    exact List.mem_map_of_mem h.mem
  · rw [hstripe]
    exact h.stripe
  · intro other hother hkey
    rw [hrows] at hother
    obtain ⟨old, hold, rfl⟩ := List.mem_map.mp hother
    rw [hstripe] at hkey
    rw [hid, hid]
    exact h.only old hold hkey

theorem Account.Tracks.congr (h : account.Tracks stripeId sub) {db : Db}
    (hsame : db.subscriptions = account.db.subscriptions) :
    { account with db }.Tracks stripeId sub := by
  refine ⟨⟨?_, h.links.stripe, ?_⟩, h.agrees, h.quiet, h.latest, h.ids⟩
  · show sub ∈ db.subscriptions.rows
    rw [hsame]
    exact h.links.mem
  · intro other hother
    refine h.links.only other ?_
    rw [← hsame]
    exact hother

/-- A change of the linked row, on both sides. -/
theorem Account.Tracks.changed (h : account.Tracks stripeId sub) {db : Db} {call : StripeCall}
    {f : SubscriptionColumns → SubscriptionColumns}
    (hchange : Change stripeId sub.toSubscriptionColumns call f)
    (hsame : db.subscriptions = (account.db.updateSubscription sub.id f).subscriptions) :
    ∃ sub', ({ account with db }.perform stripeId call).Tracks stripeId sub' := by
  have hlinks : { account with db }.Links stripeId (Subscription.updated sub.id f sub) :=
    h.links.updated hchange.keeps_stripeId hsame
  have hcolumns : (Subscription.updated sub.id f sub).toSubscriptionColumns =
      f sub.toSubscriptionColumns := by
    unfold Subscription.updated
    rw [if_pos rfl]
  have hagrees := hchange.agrees h.agrees
  have hshows := fun hquiet => hchange.showsFlag (h.quiet hquiet)
  rw [← hcolumns] at hagrees hshows
  refine ⟨Subscription.updated sub.id f sub, ?_⟩
  unfold Account.perform
  dsimp only
  split
  · next hremote =>
      rw [hremote] at hagrees hshows
      exact ⟨hlinks, hagrees, hshows, h.latest, h.ids⟩
  · refine ⟨⟨hlinks.mem, hlinks.stripe, hlinks.only⟩, hagrees, ?_, ?_, ?_⟩
    · intro hquiet
      exact absurd hquiet (List.append_ne_nil_of_right_ne_nil _ (List.cons_ne_nil _ _))
    · intro event hlast
      dsimp only at hlast
      rw [List.getLast?_concat] at hlast
      cases hlast
      rfl
    · intro event hevent
      rcases List.mem_append.mp hevent with hold | hnew
      · exact h.ids event hold
      · rw [List.mem_singleton.mp hnew]

theorem Account.Tracks.serve (h : account.Tracks stripeId sub) {outcome : Outcome}
    (hserved : ∀ db calls, outcome = .ok (db, calls) → Served account.db db calls) :
    ∃ sub', (account.serve stripeId outcome).Tracks stripeId sub' := by
  unfold Account.serve
  split
  · next db calls =>
      cases hserved db calls rfl with
      | spared hsame hcalls =>
          rw [Account.foldl_perform_of_spared hcalls]
          exact ⟨sub, h.congr hsame⟩
      | changed target stripeId' before call f hmem hstripe hchange hsame hbefore hcalls =>
          rw [hcalls, List.foldl_append, Account.foldl_perform_of_spared hbefore]
          show ∃ sub', (Account.perform stripeId _ call).Tracks stripeId sub'
          by_cases hid : stripeId' = stripeId
          · subst hid
            have htarget : target = sub :=
              SerialTable.eq_of_id_eq hmem h.links.mem (h.links.only target hmem hstripe)
            subst htarget
            exact h.changed hchange hsame
          · have hother : target.id ≠ sub.id := by
              intro hsameId
              have htarget := SerialTable.eq_of_id_eq hmem h.links.mem hsameId
              rw [htarget, h.links.stripe] at hstripe
              exact hid (Option.some.inj hstripe).symm
            have hlinks := @Account.Links.updated _ _ _ h.links { account with db } _ _
                hchange.keeps_stripeId hsame
            have hkept : Subscription.updated target.id f sub = sub := if_neg hother.symm
            rw [hkept] at hlinks
            rw [Account.perform_of_spared (hchange.perform_of_ne hid)]
            exact ⟨sub, hlinks, h.agrees, h.quiet, h.latest, h.ids⟩
  · exact ⟨sub, h⟩

/-! ### Delivering an updated event -/

/-- An event keeps the schedule; the last one makes the row show its flag. -/
theorem Agrees.apply {s : SubscriptionColumns} {remote : Remote} (h : Agrees s remote)
    {raw : StripeSubscription} : Agrees (raw.apply s) remote := by
  refine ⟨h.schedule, h.free, ?_⟩
  intro hexpired
  have hbefore : s.status = .expired := by
    unfold StripeSubscription.apply at hexpired
    dsimp only at hexpired
    split at hexpired
    · cases hexpired
    · split at hexpired
      · cases hexpired
      · exact hexpired
  have hshows := h.expired hbefore
  unfold ShowsFlag at hshows ⊢
  rw [hbefore] at hshows
  rw [hexpired]
  exact hshows

theorem Agrees.showsFlag_apply {s : SubscriptionColumns} {remote : Remote} (h : Agrees s remote)
    {raw : StripeSubscription} (hlast : raw.cancelAtPeriodEnd = remote.cancelAtPeriodEnd) :
    ShowsFlag (raw.apply s) remote := by
  have hfree := h.free
  have hexpired := h.expired
  unfold ShowsFlag StripeSubscription.apply at *
  dsimp only
  rw [hlast]
  cases hflag : remote.cancelAtPeriodEnd with
  | true =>
      rw [hflag] at hexpired
      cases hstatus : s.status with
      | active => simp
      | cancelled => simp
      | expired => simpa [hstatus] using hexpired hstatus
  | false =>
      rw [hflag] at hfree
      have hnotFree : s.scheduledPlan ≠ some .free := fun h => Bool.false_ne_true (hfree h)
      cases hstatus : s.status with
      | active => simpa using hnotFree
      | cancelled => simpa using hnotFree
      | expired => simpa using hnotFree

theorem Account.Tracks.deliver (h : account.Tracks stripeId sub) {period : Option Period} :
    ∃ sub', (account.deliver period).Tracks stripeId sub' := by
  unfold Account.deliver
  split
  · exact ⟨sub, h⟩
  · next event rest hqueue =>
      have hid : event.id = stripeId := h.ids event (by rw [hqueue]; exact List.mem_cons_self)
      have hfind : account.db.findStripeSubscription event.id = some sub := by
        unfold Db.findStripeSubscription
        cases hfound : account.db.subscriptions.rows.find?
            (fun s => s.stripeSubscriptionId = some event.id) with
        | none =>
            have hnone := List.find?_eq_none.mp hfound sub h.links.mem
            rw [h.links.stripe, hid] at hnone
            simp at hnone
        | some found =>
            have hmem := List.mem_of_find?_eq_some hfound
            have hkey := List.find?_some hfound
            rw [decide_eq_true_eq, hid] at hkey
            rw [SerialTable.eq_of_id_eq hmem h.links.mem (h.links.only found hmem hkey)]
      let raw : StripeSubscription := { event with period }
      have hdb : handleSubscriptionUpdated raw account.db =
          account.db.updateSubscription sub.id raw.apply := by
        unfold handleSubscriptionUpdated
        rw [hfind]
      have hlinks : ({ account with
            db := handleSubscriptionUpdated raw account.db, queue := rest }).Links stripeId
          (Subscription.updated sub.id raw.apply sub) :=
        h.links.updated (fun _ => rfl) (by rw [hdb])
      have hcolumns : (Subscription.updated sub.id raw.apply sub).toSubscriptionColumns =
          raw.apply sub.toSubscriptionColumns := by
        unfold Subscription.updated
        rw [if_pos rfl]
      refine ⟨Subscription.updated sub.id raw.apply sub, hlinks, ?_, ?_, ?_, ?_⟩
      · rw [hcolumns]
        exact h.agrees.apply
      · intro hrest
        dsimp only at hrest
        rw [hcolumns]
        refine h.agrees.showsFlag_apply (h.latest event ?_)
        rw [hqueue, hrest]
        rfl
      · intro last hlast
        refine h.latest last ?_
        dsimp only at hlast
        rw [hqueue, List.getLast?_cons, hlast]
        rfl
      · intro other hother
        refine h.ids other ?_
        rw [hqueue]
        exact List.mem_cons_of_mem event hother

/-- One step of a run. -/
theorem Account.Tracks.step (h : account.Tracks stripeId sub) {step : AccountStep}
    (hleaves : LeavesSchedule account step) :
    ∃ sub', (step.run stripeId account).Tracks stripeId sub' := by
  unfold AccountStep.run
  unfold LeavesSchedule at hleaves
  cases haction : step.action with
  | upgrade userId requested =>
      rw [haction] at hleaves
      exact h.serve fun _ _ hok => served_upgrade hleaves hok
  | downgrade userId body => exact h.serve fun _ _ hok => served_downgrade hok
  | cancel userId => exact h.serve fun _ _ hok => served_cancel hok
  | refund userId reason =>
      rw [haction] at hleaves
      exact h.serve fun _ _ hok => served_refund hleaves hok
  | deliver period => exact h.deliver

end Steps

/-- A run that leaves scheduled billing cycles alone mirrors Stripe whenever it is quiet. -/
theorem mirrors_of_leavesSchedule {stripeId : String} {account account' : Account}
    {steps : List AccountStep} (hstart : account.Mirrors stripeId)
    (hrun : Run (Guarded (Follows stripeId) LeavesSchedule) account steps account')
    (hquiet : account'.queue = []) : account'.Mirrors stripeId := by
  obtain ⟨sub, htracks⟩ := hrun.invariant (I := fun a => ∃ sub, a.Tracks stripeId sub)
    (fun s step t ⟨sub, hsub⟩ ⟨hstep, hleaves⟩ => by
      rw [← hstep]
      exact hsub.step hleaves) hstart.tracks
  exact htracks.mirrors hquiet

/-! ### A yearly subscriber -/

/-- The user of the first customer, billed yearly. -/
def yearlyUser : Db :=
  proUser.updateSubscription 1 fun s => { s with billingCycle := some .yearly }

def yearlyAccount : Account where
  db := yearlyUser
  remote := ⟨.proYearly, false, none⟩
  queue := []

theorem mirrors_yearlyAccount : yearlyAccount.Mirrors "sub_1" := by
  refine ⟨rfl, { id := 1, userId := 1, plan := .pro, billingCycle := some .yearly
                 status := .active, stripeSubscriptionId := some "sub_1"
                 currentPeriod := some ⟨0, 30⟩ }, ⟨?_, rfl, ?_⟩, ?_, ?_⟩
  · decide +kernel
  · decide +kernel
  · exact iff_of_false (by decide) (by decide)
  · exact showsSchedule_of_none rfl rfl

def atNoon (action : AccountAction) : AccountStep where
  action := action
  now := 20
  period _ := ⟨0, 30⟩

/-- Cancel and reactivate. -/
theorem mirrors_reactivated :
    Account.Mirrors "sub_1"
      ([.cancel 1, .deliver none, .upgrade 1 .yearly, .deliver none].foldl
        (fun account action => (atNoon action).run "sub_1" account) yearlyAccount) := by
  refine @mirrors_of_leavesSchedule _ _ _ [atNoon (.cancel 1), atNoon (.deliver none),
    atNoon (.upgrade 1 .yearly), atNoon (.deliver none)] mirrors_yearlyAccount ?_
        (by decide +kernel)
  refine .cons ⟨rfl, trivial⟩ (.cons ⟨rfl, trivial⟩ (.cons ⟨rfl, ?_⟩ (.cons ⟨rfl, trivial⟩
    (.nil _))))
  intro sub hsub
  refine .inl ?_
  have hnone : ∀ s ∈ ((atNoon (.deliver none)).run "sub_1"
      ((atNoon (.cancel 1)).run "sub_1" yearlyAccount)).db.subscriptions.rows,
      s.scheduledBillingCycle = none := by decide +kernel
  exact hnone sub (mem_of_findSubscriptionByUserId hsub)

/-- Schedule monthly billing, then reactivate: the schedule at Stripe stays. -/
theorem not_mirrors_reactivatedSchedule :
    ∃ account', Run (Follows "sub_1") yearlyAccount
        [atNoon (.downgrade 1 .monthly), atNoon (.deliver none), atNoon (.upgrade 1 .yearly)]
        account' ∧ account'.queue = [] ∧ ¬ account'.Mirrors "sub_1" := by
  refine ⟨_, .cons rfl (.cons rfl (.cons rfl (.nil _))), by decide +kernel, fun hmirrors => ?_⟩
  obtain ⟨sub, hlinks, -, hschedule⟩ := hmirrors.shows
  have hnone : ∀ s ∈ ((atNoon (.upgrade 1 .yearly)).run "sub_1"
      ((atNoon (.deliver none)).run "sub_1"
        ((atNoon (.downgrade 1 .monthly)).run "sub_1" yearlyAccount))).db.subscriptions.rows,
      s.scheduledBillingCycle = none := by decide +kernel
  have hpending := hschedule.pending_eq_none (hnone sub hlinks.mem)
  revert hpending
  decide +kernel

end Neonfi.Billing

import Neonfi.Billing.Books
import Neonfi.Lib.Reorder

/-!
# The order of deliveries

Stripe does not order its deliveries.  The books come out the same in every order in which
conflicting events keep the order they were created in; independent events commute.
-/

namespace Neonfi.Billing

open Lib

/-! ## What an effect reads and writes -/

namespace Effect

/-- The payment an effect records, or refunds when there is no entry. -/
def payment? : Effect → Option (String × Option Entry)
  | .checkout _ payment => payment.map fun (id, entry) => (id, some entry)
  | .paid paymentIntentId entry _ => some (paymentIntentId, some entry)
  | .failed paymentIntentId entry => some (paymentIntentId, some entry)
  | .refunded paymentIntentId => some (paymentIntentId, none)
  | _ => none

/-- The period an effect writes into a linked row. -/
def period? : Effect → Option Period
  | .paid _ _ period => some period
  | .updated raw => raw.period
  | _ => none

/-- The cancellation flag an effect carries. -/
def flag? : Effect → Option Bool
  | .updated raw => some raw.cancelAtPeriodEnd
  | _ => none

/-- The columns of a checkout. -/
def columns? : Effect → Option SubscriptionColumns
  | .checkout columns _ => some columns
  | _ => none

/-- The effect needs a linked row. -/
def needsLink : Effect → Bool
  | .paid .. => true
  | .failed .. => true
  | .updated _ => true
  | .deleted => true
  | _ => false

def isDeletion : Effect → Bool
  | .deleted => true
  | _ => false

end Effect

/-! ## Effects in two parts -/

/-- The status after a cancellation flag. -/
def SubscriptionStatus.flagged (flag? : Option Bool) (status : SubscriptionStatus) :
    SubscriptionStatus :=
  match flag? with
  | none => status
  | some true => if status = .active then .cancelled else status
  | some false => if status = .cancelled then .active else status

/-- The columns of a row with a new period and a new flag. -/
def SubscriptionColumns.revise (period? : Option Period) (flag? : Option Bool)
    (s : SubscriptionColumns) : SubscriptionColumns :=
  { s with currentPeriod := period?.or s.currentPeriod, status := s.status.flagged flag? }

/-- What an effect that is no checkout does to a linked row. -/
def Effect.onSub (e : Effect) (s : SubscriptionColumns) : SubscriptionColumns :=
  if e.isDeletion then s.delete else s.revise e.period? e.flag?

/-- What an effect does to the payments. -/
def pay (payment? : Option (String × Option Entry)) (payments : String → Option Entry) :
    String → Option Entry :=
  match payment? with
  | none => payments
  | some (id, some entry) =>
      Function.update payments id (some ((payments id).getD entry))
  | some (id, none) => Function.update payments id ((payments id).map Entry.refund)

/-- Two effects that commute: they agree on the payment, the period, the flag and the columns
that both write; a checkout already shows what needs its row; and a deletion that unlinks the
row comes with no effect that records a payment.  `scheduled` says that the row may be
scheduled for the free plan, in which case its deletion unlinks it. -/
structure Effect.Independent (scheduled : Bool) (a b : Effect) : Prop where
  payments : ∀ x ∈ a.payment?, ∀ y ∈ b.payment?, x.1 = y.1 → x.2 = y.2
  periods : ∀ p ∈ a.period?, ∀ q ∈ b.period?, p = q
  flags : ∀ f ∈ a.flag?, ∀ g ∈ b.flag?, f = g
  columns : ∀ c ∈ a.columns?, ∀ d ∈ b.columns?, c = d
  checkout : ∀ c ∈ a.columns?, b.needsLink = true →
    b.onSub c = c ∧ ∀ y ∈ b.payment?, a.payment? = some y
  checkout' : ∀ c ∈ b.columns?, a.needsLink = true →
    a.onSub c = c ∧ ∀ x ∈ a.payment?, b.payment? = some x
  deletion : scheduled = true → a.isDeletion = true → b.needsLink = true → b.payment? = none
  deletion' : scheduled = true → b.isDeletion = true → a.needsLink = true → a.payment? = none

theorem Effect.Independent.symm {scheduled : Bool} {a b : Effect}
    (h : a.Independent scheduled b) : b.Independent scheduled a where
  payments x hx y hy hkey := (h.payments y hy x hx hkey.symm).symm
  periods p hp q hq := (h.periods q hq p hp).symm
  flags f hf g hg := (h.flags g hg f hf).symm
  columns c hc d hd := (h.columns d hd c hc).symm
  checkout := h.checkout'
  checkout' := h.checkout
  deletion := h.deletion'
  deletion' := h.deletion

section Parts

variable {stripeId : String} {books : Books} {e : Effect}

theorem apply_checkout {columns : SubscriptionColumns} (h : e.columns? = some columns) :
    books.apply stripeId e = ⟨some columns, pay e.payment? books.payments⟩ := by
  cases e with
  | checkout c payment =>
      cases h
      cases payment <;> rfl
  | _ => cases h

theorem apply_eq_revise (raw : StripeSubscription) (s : SubscriptionColumns) :
    raw.apply s = s.revise raw.period (some raw.cancelAtPeriodEnd) := by
  unfold StripeSubscription.apply SubscriptionColumns.revise SubscriptionStatus.flagged
  cases raw.cancelAtPeriodEnd <;> simp

/-- An effect that needs a linked row and has none does nothing. -/
theorem apply_unlinked (hcheckout : e.columns? = none) (hlink : books.linked stripeId = false) :
    books.apply stripeId e =
      ⟨books.sub, if e.needsLink then books.payments else pay e.payment? books.payments⟩ := by
  cases e with
  | checkout => cases hcheckout
  | paid => exact if_neg (by rw [hlink]; decide)
  | failed => exact if_neg (by rw [hlink]; decide)
  | updated => exact if_neg (by rw [hlink]; decide)
  | deleted => exact if_neg (by rw [hlink]; decide)
  | refunded => rfl
  | nothing => rfl

theorem apply_linked {s : SubscriptionColumns} (hcheckout : e.columns? = none)
    (hsub : books.sub = some s) (hlink : s.stripeSubscriptionId = some stripeId) :
    books.apply stripeId e = ⟨some (e.onSub s), pay e.payment? books.payments⟩ := by
  have hlinked : books.linked stripeId = true := by
    unfold Books.linked
    rw [hsub]
    simpa using hlink
  cases e with
  | checkout => cases hcheckout
  | paid paymentIntentId entry period =>
      unfold Books.apply
      dsimp only
      rw [if_pos hlinked, hsub]
      rfl
  | failed paymentIntentId entry =>
      unfold Books.apply
      dsimp only
      rw [if_pos hlinked, hsub]
      rfl
  | updated raw =>
      unfold Books.apply
      dsimp only
      rw [if_pos hlinked, hsub, Option.map_some, apply_eq_revise]
      rfl
  | deleted =>
      unfold Books.apply
      dsimp only
      rw [if_pos hlinked, hsub]
      rfl
  | refunded paymentIntentId =>
      unfold Books.apply
      dsimp only
      rw [hsub]
      rfl
  | nothing =>
      show books = ⟨some s, books.payments⟩
      rw [← hsub]

end Parts

/-! ## The parts commute -/

theorem pay_comm {x? y? : Option (String × Option Entry)}
    (h : ∀ x ∈ x?, ∀ y ∈ y?, x.1 = y.1 → x.2 = y.2) (payments : String → Option Entry) :
    pay y? (pay x? payments) = pay x? (pay y? payments) := by
  cases x? with
  | none => rfl
  | some x =>
      cases y? with
      | none => rfl
      | some y =>
          obtain ⟨id, entry?⟩ := x
          obtain ⟨id', entry?'⟩ := y
          by_cases hid : id = id'
          · have hentry := h _ rfl _ rfl hid
            dsimp only at hentry
            rw [hid, hentry]
          · have hid' : id' ≠ id := fun heq => hid heq.symm
            cases entry? <;> cases entry?' <;> unfold pay <;> dsimp only <;>
              rw [Function.update_of_ne hid', Function.update_of_ne hid, Function.update_comm hid]

theorem revise_comm {p? q? : Option Period} {f? g? : Option Bool}
    (hperiods : ∀ p ∈ p?, ∀ q ∈ q?, p = q) (hflags : ∀ f ∈ f?, ∀ g ∈ g?, f = g)
    (s : SubscriptionColumns) :
    (s.revise p? f?).revise q? g? = (s.revise q? g?).revise p? f? := by
  have hperiod : q?.or (p?.or s.currentPeriod) = p?.or (q?.or s.currentPeriod) := by
    cases p? with
    | none => rfl
    | some p =>
        cases q? with
        | none => rfl
        | some q => rw [hperiods p rfl q rfl]
  have hstatus : (s.status.flagged f?).flagged g? = (s.status.flagged g?).flagged f? := by
    cases f? with
    | none => rfl
    | some f =>
        cases g? with
        | none => rfl
        | some g => rw [hflags f rfl g rfl]
  unfold SubscriptionColumns.revise
  dsimp only
  rw [hperiod, hstatus]

/-- An expired row takes a new period and ignores the flag, before and after its expiry. -/
theorem delete_revise {p? : Option Period} {f? : Option Bool} {s : SubscriptionColumns}
    (hfree : s.scheduledPlan ≠ some .free) :
    (s.revise p? f?).delete = s.delete.revise p? f? := by
  have hfree' : (s.revise p? f?).scheduledPlan ≠ some .free := hfree
  unfold SubscriptionColumns.delete
  rw [if_neg hfree, if_neg hfree']
  unfold SubscriptionColumns.expire SubscriptionColumns.revise
  cases f? with
  | none => rfl
  | some f => cases f <;> rfl

/-- A deletion commutes with what a linked row takes, unless it unlinks the row. -/
theorem onSub_comm {scheduled : Bool} {a b : Effect} (h : a.Independent scheduled b)
    {s : SubscriptionColumns} (hfree : s.scheduledPlan ≠ some .free) :
    b.onSub (a.onSub s) = a.onSub (b.onSub s) := by
  unfold Effect.onSub
  cases ha : a.isDeletion with
  | false =>
      cases hb : b.isDeletion with
      | false => exact revise_comm h.periods h.flags s
      | true => exact delete_revise hfree
  | true =>
      cases hb : b.isDeletion with
      | false => exact (delete_revise hfree).symm
      | true => rfl

theorem stripeId_onSub {e : Effect} {s : SubscriptionColumns}
    (hfree : s.scheduledPlan ≠ some .free) :
    (e.onSub s).stripeSubscriptionId = s.stripeSubscriptionId := by
  unfold Effect.onSub
  split
  · unfold SubscriptionColumns.delete
    rw [if_neg hfree]
    rfl
  · rfl

theorem onSub_of_free {e : Effect} {s : SubscriptionColumns}
    (hfree : s.scheduledPlan = some .free) :
    e.onSub s = if e.isDeletion then freeColumns else s.revise e.period? e.flag? := by
  unfold Effect.onSub SubscriptionColumns.delete
  rw [if_pos hfree]

/-! ## Independent effects commute -/

/-- Only a row that is scheduled for the free plan is unlinked by its deletion. -/
def Books.FreeOnlyIf (scheduled : Bool) (books : Books) : Prop :=
  ∀ s ∈ books.sub, s.scheduledPlan = some .free → scheduled = true

section Commute

variable {stripeId : String} {scheduled : Bool} {books : Books} {a b : Effect}

theorem isDeletion_needsLink (h : a.isDeletion = true) : a.needsLink = true ∧
    a.payment? = none := by
  cases a with
  | deleted => exact ⟨rfl, rfl⟩
  | _ => cases h

/-- A deletion that unlinks the row, against an effect that does not record a payment. -/
theorem apply_deleted_comm {s : SubscriptionColumns} (ha : a.isDeletion = true)
    (hcolumns : b.columns? = none) (hb : b.needsLink = true → b.payment? = none)
    (hsub : books.sub = some s) (hlink : s.stripeSubscriptionId = some stripeId)
    (hfree : s.scheduledPlan = some .free) :
    (books.apply stripeId a).apply stripeId b = (books.apply stripeId b).apply stripeId a := by
  obtain ⟨haneeds, hapay⟩ := isDeletion_needsLink ha
  have hacolumns : a.columns? = none := by
    cases a with
    | deleted => rfl
    | _ => cases ha
  have hunlinked : ∀ payments,
      (Books.mk (some freeColumns) payments).linked stripeId = false := by
    intro payments
    rfl
  have hafree : ∀ s : SubscriptionColumns, s.scheduledPlan = some .free →
      a.onSub s = freeColumns := by
    intro s hs
    rw [onSub_of_free hs, if_pos ha]
  rw [apply_linked hacolumns hsub hlink, hafree s hfree, hapay, apply_linked hcolumns hsub hlink,
    apply_unlinked hcolumns (hunlinked _)]
  cases hbdel : b.isDeletion with
  | true =>
      obtain ⟨hbneeds, hbpay⟩ := isDeletion_needsLink hbdel
      rw [hbneeds, if_pos rfl, hbpay, onSub_of_free hfree, if_pos hbdel,
        apply_unlinked hacolumns (hunlinked _), haneeds, if_pos rfl]
  | false =>
      have honSub : b.onSub s = s.revise b.period? b.flag? := by
        rw [onSub_of_free hfree, hbdel]
        rfl
      have hfree' : (b.onSub s).scheduledPlan = some .free := by
        rw [honSub]
        exact hfree
      have hlink' : (b.onSub s).stripeSubscriptionId = some stripeId := by
        rw [honSub]
        exact hlink
      rw [apply_linked hacolumns rfl hlink', hafree _ hfree', hapay]
      cases hneeds : b.needsLink with
      | true =>
          rw [hb hneeds, if_pos rfl]
          rfl
      | false => rfl

/-- An effect that needs no linked row and is no checkout is about the payments only. -/
theorem apply_of_not_needsLink (hcolumns : b.columns? = none) (h : b.needsLink = false) :
    books.apply stripeId b = ⟨books.sub, pay b.payment? books.payments⟩ := by
  cases b with
  | refunded => rfl
  | nothing => rfl
  | checkout => cases hcolumns
  | _ => cases h

/-- A payment that is recorded twice is recorded once. -/
theorem pay_pay {id : String} {entry : Entry} (payments : String → Option Entry) :
    pay (some (id, some entry)) (pay (some (id, some entry)) payments) =
      pay (some (id, some entry)) payments := by
  unfold pay
  dsimp only
  rw [Function.update_self, Function.update_idem, Option.getD_some]

theorem payment_of_columns {c : SubscriptionColumns} (ha : a.columns? = some c)
    {x : String × Option Entry} (hx : a.payment? = some x) :
    ∃ id entry, x = (id, some entry) := by
  cases a with
  | checkout columns payment =>
      obtain ⟨⟨id, entry⟩, -, rfl⟩ := Option.map_eq_some_iff.mp hx
      exact ⟨id, entry, rfl⟩
  | _ => cases ha

/-- A checkout against an effect that its row shows already. -/
theorem apply_checkout_comm {c : SubscriptionColumns} (h : a.Independent scheduled b)
    (ha : a.columns? = some c) (hb : b.columns? = none) :
    (books.apply stripeId a).apply stripeId b = (books.apply stripeId b).apply stripeId a := by
  rw [apply_checkout ha, apply_checkout ha]
  cases hneeds : b.needsLink with
  | false =>
      rw [apply_of_not_needsLink hb hneeds, apply_of_not_needsLink hb hneeds,
        pay_comm h.payments]
  | true =>
      obtain ⟨honSub, hpayment⟩ := h.checkout c ha hneeds
      have htwice : ∀ payments, pay b.payment? (pay a.payment? payments) =
          pay a.payment? payments := by
        intro payments
        cases hb' : b.payment? with
        | none => rfl
        | some y =>
            have hsame := hpayment y hb'
            obtain ⟨id, entry, rfl⟩ := payment_of_columns ha hsame
            rw [hsame]
            exact pay_pay payments
      have hleft : (Books.mk (some c) (pay a.payment? books.payments)).apply stripeId b =
          ⟨some c, pay a.payment? books.payments⟩ := by
        cases hlinked : (Books.mk (some c) (pay a.payment? books.payments)).linked stripeId with
        | false => rw [apply_unlinked hb hlinked, hneeds, if_pos rfl]
        | true =>
            have hlink : c.stripeSubscriptionId = some stripeId := by
              simpa [Books.linked] using hlinked
            rw [apply_linked hb rfl hlink, honSub, htwice]
      rw [hleft]
      cases hlinked : books.linked stripeId with
      | false => rw [apply_unlinked hb hlinked, hneeds, if_pos rfl]
      | true =>
          obtain ⟨s, hsub, hlink⟩ := Option.any_eq_true _ _ |>.mp hlinked
          have hlink : s.stripeSubscriptionId = some stripeId := by simpa using hlink
          rw [apply_linked hb hsub hlink]
          dsimp only
          rw [← pay_comm h.payments, htwice]

/-- Two effects that keep the row linked. -/
theorem apply_linked_comm {s : SubscriptionColumns} (h : a.Independent scheduled b)
    (ha : a.columns? = none) (hb : b.columns? = none) (hsub : books.sub = some s)
    (hlink : s.stripeSubscriptionId = some stripeId)
    (halink : (a.onSub s).stripeSubscriptionId = s.stripeSubscriptionId)
    (hblink : (b.onSub s).stripeSubscriptionId = s.stripeSubscriptionId)
    (hcomm : b.onSub (a.onSub s) = a.onSub (b.onSub s)) :
    (books.apply stripeId a).apply stripeId b = (books.apply stripeId b).apply stripeId a := by
  rw [apply_linked ha hsub hlink, apply_linked hb hsub hlink,
    apply_linked hb rfl (halink.trans hlink), apply_linked ha rfl (hblink.trans hlink), hcomm,
    pay_comm h.payments]

theorem apply_unlinked_comm (h : a.Independent scheduled b) (ha : a.columns? = none)
    (hb : b.columns? = none) (hlink : books.linked stripeId = false) :
    (books.apply stripeId a).apply stripeId b = (books.apply stripeId b).apply stripeId a := by
  have hsame : ∀ payments, (Books.mk books.sub payments).linked stripeId = false :=
    fun _ => hlink
  rw [apply_unlinked ha hlink, apply_unlinked hb hlink, apply_unlinked hb (hsame _),
    apply_unlinked ha (hsame _)]
  cases a.needsLink with
  | true => rfl
  | false =>
      cases b.needsLink with
      | true => rfl
      | false =>
          show Books.mk _ (pay b.payment? (pay a.payment? books.payments)) = _
          rw [pay_comm h.payments]
          rfl

/-- Independent effects commute on all books that the parameter describes. -/
theorem apply_comm (h : a.Independent scheduled b) (hbooks : books.FreeOnlyIf scheduled) :
    (books.apply stripeId a).apply stripeId b = (books.apply stripeId b).apply stripeId a := by
  cases ha : a.columns? with
  | some c =>
      cases hb : b.columns? with
      | some d =>
          rw [apply_checkout ha, apply_checkout hb, apply_checkout hb, apply_checkout ha,
            h.columns c ha d hb, pay_comm h.payments]
      | none => exact apply_checkout_comm h ha hb
  | none =>
      cases hb : b.columns? with
      | some d => exact (apply_checkout_comm h.symm hb ha).symm
      | none =>
          cases hlinked : books.linked stripeId with
          | false => exact apply_unlinked_comm h ha hb hlinked
          | true =>
              obtain ⟨s, hsub, hlink⟩ := Option.any_eq_true _ _ |>.mp hlinked
              have hlink : s.stripeSubscriptionId = some stripeId := by simpa using hlink
              by_cases hfree : s.scheduledPlan = some .free
              · have hscheduled := hbooks s hsub hfree
                have hadel := h.deletion hscheduled
                have hbdel := h.deletion' hscheduled
                -- a deletion unlinks the row here
                cases ha' : a.isDeletion with
                | true => exact apply_deleted_comm ha' hb (hadel ha') hsub hlink hfree
                | false =>
                    cases hb' : b.isDeletion with
                    | true =>
                        exact (apply_deleted_comm hb' ha (hbdel hb') hsub hlink hfree).symm
                    | false =>
                        have honA : ∀ s, a.onSub s = s.revise a.period? a.flag? := by
                          intro s
                          unfold Effect.onSub
                          rw [ha']
                          rfl
                        have honB : ∀ s, b.onSub s = s.revise b.period? b.flag? := by
                          intro s
                          unfold Effect.onSub
                          rw [hb']
                          rfl
                        refine apply_linked_comm h ha hb hsub hlink ?_ ?_ ?_
                        · rw [honA]
                          rfl
                        · rw [honB]
                          rfl
                        · rw [honA, honB, honA, honB]
                          exact revise_comm h.periods h.flags s
              · exact apply_linked_comm h ha hb hsub hlink (stripeId_onSub hfree)
                  (stripeId_onSub hfree) (onSub_comm h hfree)

end Commute

/-! ## Commuting effects are independent -/

/-- What every event of a subscription has: a recorded payment is not a refunded one, and a
checkout links the row and schedules nothing. -/
structure Effect.WellFormed (stripeId : String) (e : Effect) : Prop where
  entry : ∀ id entry, e.payment? = some (id, some entry) → entry.status ≠ .refunded
  link : ∀ c ∈ e.columns?, c.stripeSubscriptionId = some stripeId
  plan : ∀ c ∈ e.columns?, c.scheduledPlan = none

/-- The two orders lead to the same books. -/
def Effect.Commutes (stripeId : String) (scheduled : Bool) (a b : Effect) : Prop :=
  ∀ books : Books, books.FreeOnlyIf scheduled →
    (books.apply stripeId a).apply stripeId b = (books.apply stripeId b).apply stripeId a

/-- The columns of an active row of the subscription. -/
def activeColumns (stripeId : String) (scheduledPlan : Option Ledger.Plan) :
    SubscriptionColumns where
  plan := .pro
  status := .active
  stripeSubscriptionId := some stripeId
  scheduledPlan := scheduledPlan

/-- The books with that row, before any payment. -/
def activeBooks (stripeId : String) (scheduledPlan : Option Ledger.Plan) : Books where
  sub := some (activeColumns stripeId scheduledPlan)
  payments _ := none

section Exact

variable {stripeId : String} {scheduled : Bool} {books : Books} {a b : Effect}

theorem freeOnlyIf_activeBooks : (activeBooks stripeId none).FreeOnlyIf scheduled := by
  intro s hs hfree
  cases hs
  cases hfree

/-- An effect with a payment, on a linked row. -/
theorem apply_payment (ha : a.WellFormed stripeId) {x : String × Option Entry}
    (hx : a.payment? = some x) (hlinked : books.linked stripeId = true) :
    (books.apply stripeId a).payments = pay (some x) books.payments ∧
      (books.apply stripeId a).linked stripeId = true := by
  cases hcolumns : a.columns? with
  | some c =>
      rw [apply_checkout hcolumns, hx]
      refine ⟨rfl, ?_⟩
      simpa [Books.linked] using ha.link c hcolumns
  | none =>
      obtain ⟨s, hsub, hlink⟩ := Option.any_eq_true _ _ |>.mp hlinked
      have hlink : s.stripeSubscriptionId = some stripeId := by simpa using hlink
      have hrevise : a.onSub s = s.revise a.period? a.flag? := by
        cases a with
        | deleted => cases hx
        | _ => rfl
      rw [apply_linked hcolumns hsub hlink, hx, hrevise]
      refine ⟨rfl, ?_⟩
      simpa [Books.linked, SubscriptionColumns.revise] using hlink

theorem payments_of_commutes (ha : a.WellFormed stripeId) (hb : b.WellFormed stripeId)
    (h : a.Commutes stripeId scheduled b) {x y : String × Option Entry}
    (hx : a.payment? = some x) (hy : b.payment? = some y) (hkey : x.1 = y.1) : x.2 = y.2 := by
  have hlinked : (activeBooks stripeId none).linked stripeId = true := by
    simp [activeBooks, activeColumns, Books.linked]
  obtain ⟨hpayA, hlinkA⟩ := apply_payment ha hx hlinked
  obtain ⟨hpayB, hlinkB⟩ := apply_payment hb hy hlinked
  have hsame : pay (some y) (pay (some x) fun _ => none) =
      pay (some x) (pay (some y) fun _ => none) := by
    have hboth := congrArg Books.payments (h (activeBooks stripeId none) freeOnlyIf_activeBooks)
    rw [(apply_payment hb hy hlinkA).1, (apply_payment ha hx hlinkB).1, hpayA, hpayB] at hboth
    exact hboth
  obtain ⟨id, entry?⟩ := x
  obtain ⟨id', entry?'⟩ := y
  cases hkey
  have hat := congrFun hsame id
  cases entry? with
  | none =>
      cases entry?' with
      | none => rfl
      | some entry' =>
          have hrefund : entry' = entry'.refund := by simpa [pay] using hat
          exact absurd (congrArg Entry.status hrefund) (hb.entry id entry' hy)
  | some entry =>
      cases entry?' with
      | none =>
          have hrefund : entry.refund = entry := by simpa [pay] using hat
          exact absurd (congrArg Entry.status hrefund).symm (ha.entry id entry hx)
      | some entry' =>
          have hentry : entry = entry' := by simpa [pay] using hat
          rw [hentry]

/-- Two effects that revise the active row. -/
theorem revise_of_commutes (h : a.Commutes stripeId scheduled b) (ha : a.columns? = none)
    (hb : b.columns? = none) (hadel : a.isDeletion = false) (hbdel : b.isDeletion = false) :
    ((activeColumns stripeId none).revise a.period? a.flag?).revise b.period? b.flag? =
      ((activeColumns stripeId none).revise b.period? b.flag?).revise a.period? a.flag? := by
  have honSub : ∀ {e : Effect}, e.isDeletion = false → ∀ s,
      e.onSub s = s.revise e.period? e.flag? := by
    intro e he s
    unfold Effect.onSub
    rw [he]
    rfl
  have hlink : ∀ {e : Effect}, e.isDeletion = false →
      (e.onSub (activeColumns stripeId none)).stripeSubscriptionId = some stripeId := by
    intro e he
    rw [honSub he]
    rfl
  have hA := @apply_linked stripeId (activeBooks stripeId none) a _ ha rfl rfl
  have hB := @apply_linked stripeId (activeBooks stripeId none) b _ hb rfl rfl
  have hboth := congrArg Books.sub (h (activeBooks stripeId none) freeOnlyIf_activeBooks)
  rw [hA, hB, apply_linked hb rfl (hlink hadel), apply_linked ha rfl (hlink hbdel),
    honSub hadel, honSub hbdel, honSub hadel, honSub hbdel] at hboth
  exact Option.some.inj hboth

theorem not_checkout_of_period {p : Period} (h : a.period? = some p) :
    a.columns? = none ∧ a.isDeletion = false := by
  cases a with
  | paid => exact ⟨rfl, rfl⟩
  | updated => exact ⟨rfl, rfl⟩
  | _ => cases h

theorem not_checkout_of_flag {f : Bool} (h : a.flag? = some f) :
    a.columns? = none ∧ a.isDeletion = false := by
  cases a with
  | updated => exact ⟨rfl, rfl⟩
  | _ => cases h

theorem needsLink_payment (h : a.needsLink = true) {x : String × Option Entry}
    (hx : a.payment? = some x) : a.columns? = none ∧ ∃ id entry, x = (id, some entry) := by
  cases a with
  | paid id entry period =>
      cases hx
      exact ⟨rfl, id, entry, rfl⟩
  | failed id entry =>
      cases hx
      exact ⟨rfl, id, entry, rfl⟩
  | updated => cases hx
  | deleted => cases hx
  | _ => cases h

/-- A checkout against an effect that needs the row, on books without a row. -/
theorem checkout_of_commutes (ha : a.WellFormed stripeId) (hb : b.WellFormed stripeId)
    (h : a.Commutes stripeId scheduled b) {c : SubscriptionColumns} (hc : a.columns? = some c)
    (hneeds : b.needsLink = true) :
    b.onSub c = c ∧ ∀ y ∈ b.payment?, a.payment? = some y := by
  have hcolumns : b.columns? = none := by
    cases b with
    | checkout => cases hneeds
    | _ => rfl
  have hboth := h ⟨none, fun _ => none⟩ fun s hs => nomatch hs
  rw [apply_checkout hc, apply_linked hcolumns rfl (ha.link c hc),
    apply_unlinked hcolumns rfl, apply_checkout hc, hneeds, if_pos rfl] at hboth
  refine ⟨Option.some.inj (congrArg Books.sub hboth), fun y hy => ?_⟩
  obtain ⟨-, id, entry, rfl⟩ := needsLink_payment hneeds hy
  have hat := congrFun (congrArg Books.payments hboth) id
  rw [hy] at hat
  cases hpayment : a.payment? with
  | none =>
      rw [hpayment] at hat
      simp [pay] at hat
  | some x =>
      obtain ⟨id', entry', rfl⟩ := payment_of_columns hc hpayment
      by_cases hid : id' = id
      · have hsame := payments_of_commutes ha hb h hpayment hy hid
        rw [hid]
        exact congrArg (fun e => some (id, e)) hsame
      · rw [hpayment] at hat
        have hne : id ≠ id' := fun heq => hid heq.symm
        simp [pay, Function.update_of_ne hne] at hat

/-- A deletion that unlinks the row against a payment that needs it. -/
theorem deletion_of_commutes (h : a.Commutes stripeId true b) (ha : a.isDeletion = true)
    (hneeds : b.needsLink = true) : b.payment? = none := by
  cases hpayment : b.payment? with
  | none => rfl
  | some y =>
      obtain ⟨hcolumns, id, entry, rfl⟩ := needsLink_payment hneeds hpayment
      have hdeleted : a = .deleted := by
        cases a with
        | deleted => rfl
        | _ => cases ha
      subst hdeleted
      have hboth := h (activeBooks stripeId (some .free)) fun _ _ _ => rfl
      have honSub : ∀ s : SubscriptionColumns, s.scheduledPlan = some .free →
          Effect.deleted.onSub s = freeColumns := fun s hs => if_pos hs
      have hkept : ∀ s, b.onSub s = s.revise b.period? b.flag? := by
        intro s
        cases b with
        | deleted => cases hpayment
        | _ => rfl
      have hlink : (b.onSub (activeColumns stripeId (some .free))).stripeSubscriptionId =
          some stripeId := by
        rw [hkept]
        rfl
      have hA := @apply_linked stripeId (activeBooks stripeId (some .free)) .deleted _ rfl rfl rfl
      have hB := @apply_linked stripeId (activeBooks stripeId (some .free)) b _ hcolumns rfl rfl
      rw [hA, hB, honSub _ rfl, apply_unlinked hcolumns rfl, hneeds,
        apply_linked rfl rfl hlink, hpayment] at hboth
      have hat := congrFun (congrArg Books.payments hboth) id
      simp [pay, activeBooks, Effect.payment?] at hat

/-- Events commute exactly when their effects are independent. -/
theorem commutes_iff (ha : a.WellFormed stripeId) (hb : b.WellFormed stripeId) :
    a.Commutes stripeId scheduled b ↔ a.Independent scheduled b := by
  constructor
  · intro h
    have h' : b.Commutes stripeId scheduled a := fun books hbooks => (h books hbooks).symm
    constructor
    case payments => exact fun x hx y hy => payments_of_commutes ha hb h hx hy
    case periods =>
      intro p hp q hq
      obtain ⟨hac, had⟩ := not_checkout_of_period hp
      obtain ⟨hbc, hbd⟩ := not_checkout_of_period hq
      have hperiod := congrArg SubscriptionColumns.currentPeriod
        (revise_of_commutes h hac hbc had hbd)
      rw [hp, hq] at hperiod
      exact (Option.some.inj hperiod).symm
    case flags =>
      intro f hf g hg
      obtain ⟨hac, had⟩ := not_checkout_of_flag hf
      obtain ⟨hbc, hbd⟩ := not_checkout_of_flag hg
      have hstatus := congrArg SubscriptionColumns.status
        (revise_of_commutes h hac hbc had hbd)
      rw [hf, hg] at hstatus
      -- the last of two different flags decides the status of an active row
      cases f <;> cases g <;> first | rfl | cases hstatus
    case columns =>
      intro c hc d hd
      have hboth := congrArg Books.sub (h (activeBooks stripeId none) freeOnlyIf_activeBooks)
      rw [apply_checkout hc, apply_checkout hd, apply_checkout hd, apply_checkout hc] at hboth
      exact (Option.some.inj hboth).symm
    case checkout => exact fun c hc hneeds => checkout_of_commutes ha hb h hc hneeds
    case checkout' => exact fun c hc hneeds => checkout_of_commutes hb ha h' hc hneeds
    case deletion =>
      intro hscheduled
      subst hscheduled
      exact deletion_of_commutes h
    case deletion' =>
      intro hscheduled
      subst hscheduled
      exact deletion_of_commutes h'
  · exact fun h books hbooks => apply_comm h hbooks

end Exact

/-! ## Events of one subscription -/

section Deliveries

variable {userId : ℕ} {stripeId : String} {scheduled : Bool} {books : Books}

/-- An effect that is no checkout and records no refunded payment. -/
theorem wellFormed_of_columns {e : Effect} (hcolumns : e.columns? = none)
    (hentry : ∀ id entry, e.payment? = some (id, some entry) → entry.status ≠ .refunded) :
    e.WellFormed stripeId := by
  refine ⟨hentry, ?_, ?_⟩
  · intro c hc
    rw [hcolumns] at hc
    cases hc
  · intro c hc
    rw [hcolumns] at hc
    cases hc

theorem wellFormed_nothing : Effect.nothing.WellFormed stripeId := by
  refine wellFormed_of_columns rfl fun id entry h => ?_
  cases h

theorem wellFormed_paidEffect {api : StripeApi} {invoice : Invoice} :
    (invoice.paidEffect api).WellFormed stripeId := by
  unfold Invoice.paidEffect
  split
  · refine wellFormed_of_columns rfl fun id entry h hrefunded => ?_
    cases h
    cases hrefunded
  · exact wellFormed_nothing

theorem wellFormed_checkout {api : StripeApi} {session : CheckoutSession}
    (huser : session.userId.filter (· ≠ 0) = some userId)
    (hstripe : session.subscription = some stripeId) :
    (session.effect api).WellFormed stripeId := by
  unfold CheckoutSession.effect
  rw [huser, hstripe]
  dsimp only
  split
  · refine ⟨fun id entry h hrefunded => ?_, fun c hc => ?_, fun c hc => ?_⟩
    · unfold CheckoutSession.payment at h
      cases hintent : session.paymentIntent with
      | none =>
          rw [hintent] at h
          cases h
      | some paymentIntentId =>
          rw [hintent] at h
          cases h
          cases hrefunded
    · cases hc
      rfl
    · cases hc
      rfl
  · exact wellFormed_nothing

/-- The effect of an event of the subscription. -/
theorem wellFormed_effect {d : Delivery} (hconcerns : d.Concerns userId stripeId) :
    d.effect.WellFormed stripeId := by
  unfold Delivery.Concerns at hconcerns
  unfold Delivery.effect
  cases hbody : d.event.body with
  | checkoutSessionCompleted session =>
      rw [hbody] at hconcerns
      exact wellFormed_checkout hconcerns.1 hconcerns.2
  | invoicePaid invoice => exact wellFormed_paidEffect
  | invoicePaymentSucceeded invoice => exact wellFormed_paidEffect
  | invoicePaymentFailed invoice =>
      dsimp only
      unfold Invoice.failedEffect
      split
      · refine wellFormed_of_columns rfl fun id entry h hrefunded => ?_
        cases h
        cases hrefunded
      · exact wellFormed_nothing
  | subscriptionUpdated raw =>
      refine wellFormed_of_columns rfl fun id entry h => ?_
      cases h
  | subscriptionDeleted raw =>
      refine wellFormed_of_columns rfl fun id entry h => ?_
      cases h
  | chargeRefunded charge =>
      dsimp only
      unfold Charge.effect
      split
      · refine wellFormed_of_columns rfl fun id entry h => ?_
        cases h
      · exact wellFormed_nothing

/-- No event schedules the free plan. -/
theorem freeOnlyIf_apply {e : Effect} (he : e.WellFormed stripeId)
    (hbooks : books.FreeOnlyIf scheduled) : (books.apply stripeId e).FreeOnlyIf scheduled := by
  cases hcolumns : e.columns? with
  | some c =>
      rw [apply_checkout hcolumns]
      intro s hs hfree
      cases hs
      rw [he.plan c hcolumns] at hfree
      cases hfree
  | none =>
      cases hlinked : books.linked stripeId with
      | false =>
          rw [apply_unlinked hcolumns hlinked]
          exact hbooks
      | true =>
          obtain ⟨s, hsub, hlink⟩ := Option.any_eq_true _ _ |>.mp hlinked
          rw [apply_linked hcolumns hsub (by simpa using hlink)]
          intro s' hs' hfree
          cases hs'
          refine hbooks s hsub ?_
          unfold Effect.onSub SubscriptionColumns.delete at hfree
          split at hfree
          · split at hfree
            · cases hfree
            · exact hfree
          · exact hfree

/-- An effect keeps every payment that is there. -/
theorem payments_isSome_apply {e : Effect} {id : String}
    (h : (books.payments id).isSome = true) :
    ((books.apply stripeId e).payments id).isSome = true := by
  have hpay : ∀ payment?, (pay payment? books.payments id).isSome = true := by
    intro payment?
    unfold pay
    split
    · exact h
    · rw [Function.update_apply]
      split
      · rfl
      · exact h
    · rw [Function.update_apply]
      split
      · next heq =>
          rw [← heq, Option.isSome_map]
          exact h
      · exact h
  cases hcolumns : e.columns? with
  | some c =>
      rw [apply_checkout hcolumns]
      exact hpay _
  | none =>
      cases hlinked : books.linked stripeId with
      | false =>
          rw [apply_unlinked hcolumns hlinked]
          dsimp only
          split
          · exact h
          · exact hpay _
      | true =>
          obtain ⟨s, hsub, hlink⟩ := Option.any_eq_true _ _ |>.mp hlinked
          rw [apply_linked hcolumns hsub (by simpa using hlink)]
          exact hpay _

end Deliveries

/-- In the order they were created, each paid invoice finds the row of its subscription, and
names a payment intent. -/
def PaidOnRow (stripeId : String) (books : Books) : List Delivery → Prop
  | [] => True
  | d :: ds =>
      (d.event.body.paysInvoice = true →
        books.linked stripeId = true ∧ ∃ paymentIntentId, d.ResolvesTo paymentIntentId) ∧
      PaidOnRow stripeId (books.apply stripeId d.effect) ds

/-- Every paid invoice has its payment row. -/
def PaidRecorded (books : Books) (ds : List Delivery) : Prop :=
  ∀ d ∈ ds, d.event.body.paysInvoice = true →
    ∃ paymentIntentId, d.ResolvesTo paymentIntentId ∧
      (books.payments paymentIntentId).isSome = true

theorem payments_isSome_foldl {stripeId : String} {books : Books} {ds : List Delivery}
    {id : String} (h : (books.payments id).isSome = true) :
    (((ds.map Delivery.effect).foldl (Books.apply stripeId) books).payments id).isSome =
      true := by
  induction ds generalizing books with
  | nil => exact h
  | cons d ds ih => exact ih (payments_isSome_apply h)

/-- A paid invoice records the payment intent it resolves to. -/
theorem effect_of_paysInvoice {d : Delivery} {id : String}
    (hpays : d.event.body.paysInvoice = true) (hresolves : d.ResolvesTo id) :
    ∃ entry period, d.effect = .paid id entry period := by
  obtain ⟨invoice, hinvoice, hresolve⟩ := hresolves
  unfold Delivery.effect
  cases hbody : d.event.body with
  | invoicePaid i =>
      rw [hbody] at hinvoice
      cases hinvoice
      dsimp only
      unfold Invoice.paidEffect
      rw [hresolve]
      exact ⟨_, _, rfl⟩
  | invoicePaymentSucceeded i =>
      rw [hbody] at hinvoice
      cases hinvoice
      dsimp only
      unfold Invoice.paidEffect
      rw [hresolve]
      exact ⟨_, _, rfl⟩
  | _ =>
      rw [hbody] at hpays
      cases hpays

theorem recorded_of_paidOnRow {stripeId : String} {books : Books} {ds : List Delivery}
    (h : PaidOnRow stripeId books ds) :
    PaidRecorded ((ds.map Delivery.effect).foldl (Books.apply stripeId) books) ds := by
  induction ds generalizing books with
  | nil => exact fun d hd => nomatch hd
  | cons d ds ih =>
      intro d' hd' hpays
      rcases List.mem_cons.mp hd' with rfl | hmem
      · obtain ⟨hlinked, id, hresolves⟩ := h.1 hpays
        refine ⟨id, hresolves, ?_⟩
        refine @payments_isSome_foldl stripeId (books.apply stripeId d'.effect) ds id ?_
        obtain ⟨entry, period, heffect⟩ := effect_of_paysInvoice hpays hresolves
        rw [heffect]
        unfold Books.apply
        dsimp only
        rw [if_pos hlinked]
        unfold Books.record
        dsimp only
        rw [Function.update_self]
        rfl
      · exact ih h.2 d' hmem hpays

/-- Events delivered out of order leave the books as if they had come in the order they were
created, when every two events that do not commute keep that order. -/
theorem books_of_keepsOrder {userId : ℕ} {stripeId : String} {db dbCreated dbDelivered : Db}
    {created delivered : List Delivery} (hown : Owns userId stripeId db)
    (hconcerns : ∀ d ∈ created, d.Concerns userId stripeId)
    (hevents : (created.map fun d => d.event.id).Nodup)
    (hcreated : deliverAll db created = .ok dbCreated)
    (hdelivered : deliverAll db delivered = .ok dbDelivered)
    (horder : KeepsOrder (fun d e => ¬ d.effect.Independent
      ((db.books userId).sub.any fun s => s.scheduledPlan = some .free) e.effect)
      created delivered)
    (hpaid : PaidOnRow stripeId (db.books userId) created) :
    dbDelivered.books userId = dbCreated.books userId ∧
      PaidRecorded (dbDelivered.books userId) delivered := by
  let scheduled := (db.books userId).sub.any fun s => decide (s.scheduledPlan = some .free)
  have hstart : (db.books userId).FreeOnlyIf scheduled := by
    intro s hs hfree
    exact Option.any_eq_true _ _ |>.mpr ⟨s, hs, by simpa using hfree⟩
  have hnodup : created.Nodup := hevents.of_map _
  have hfolds : (created.map Delivery.effect).foldl (Books.apply stripeId) (db.books userId) =
      (delivered.map Delivery.effect).foldl (Books.apply stripeId) (db.books userId) := by
    rw [List.foldl_map, List.foldl_map]
    refine foldl_eq_of_keepsOrder hstart (fun d hd books hbooks => ?_) ?_ hnodup horder
    · exact freeOnlyIf_apply (wellFormed_effect (hconcerns d hd)) hbooks
    · intro d _ e _ hindependent books hbooks
      exact apply_comm (not_not.mp hindependent) hbooks
  have hbooks : dbDelivered.books userId = dbCreated.books userId := by
    have hconcerns' : ∀ d ∈ delivered, d.Concerns userId stripeId :=
      fun d hd => hconcerns d (horder.1.mem_iff.mpr hd)
    rw [books_deliverAll hown hconcerns hcreated, books_deliverAll hown hconcerns' hdelivered,
      hfolds]
  refine ⟨hbooks, fun d hd => ?_⟩
  rw [hbooks, books_deliverAll hown hconcerns hcreated]
  exact recorded_of_paidOnRow hpaid d (horder.1.mem_iff.mpr hd)

/-! ### Two events of one customer -/

/-- The failed attempt of a second invoice of that customer. -/
def secondFailed : Delivery :=
  ⟨⟨"evt_2", .invoicePaymentFailed { firstInvoice with paymentIntent := some "pi_2" }⟩, quietApi⟩

/-- A payment and a failed attempt of another invoice commute. -/
theorem books_swapped :
    ∃ dbCreated dbDelivered,
      deliverAll proUser [firstDelivery "evt_1" .invoicePaid, secondFailed] = .ok dbCreated ∧
      deliverAll proUser [secondFailed, firstDelivery "evt_1" .invoicePaid] = .ok dbDelivered ∧
      dbDelivered.books 1 = dbCreated.books 1 := by
  refine ⟨_, _, rfl, rfl, ?_⟩
  have hown : Owns 1 "sub_1" proUser := by
    unfold Owns
    decide +kernel
  have hindependent : (firstDelivery "evt_1" .invoicePaid).effect.Independent false
      secondFailed.effect := by
    constructor
    case payments =>
      intro x hx y hy hkey
      cases hx
      cases hy
      exact absurd hkey (by decide)
    case periods => intro p hp q hq; cases hq
    case flags => intro f hf g hg; cases hg
    case columns => intro c hc; cases hc
    case checkout => intro c hc; cases hc
    case checkout' => intro c hc; cases hc
    case deletion => intro h; cases h
    case deletion' => intro h; cases h
  refine (@books_of_keepsOrder 1 "sub_1" proUser _ _
    [firstDelivery "evt_1" .invoicePaid, secondFailed] _ hown ?_ (by decide) rfl rfl
    ⟨List.Perm.swap _ _ _, ?_⟩ ?_).1
  · intro d hd
    rcases List.mem_cons.mp hd with rfl | hd
    · rfl
    · rw [List.mem_singleton.mp hd]
      rfl
  · intro d e hconflict hsub
    have hpair : [d, e] = [firstDelivery "evt_1" .invoicePaid, secondFailed] :=
      hsub.eq_of_length rfl
    cases hpair
    exact absurd hindependent hconflict
  · refine ⟨fun _ => ⟨by decide +kernel, "pi_1", firstDelivery_resolves rfl⟩, ?_, trivial⟩
    intro hpays
    cases hpays

/-- A user who has verified the e-mail and has no subscription. -/
def newUser : Db where
  users := ⟨[⟨1, .verified⟩], by decide⟩
  subscriptions := SerialTable.empty
  payments := SerialTable.empty

/-- The completed checkout of that user. -/
def firstCheckout : Delivery where
  event :=
    ⟨"evt_0", .checkoutSessionCompleted
      { userId := some 1, billingCycle := some .monthly, customer := some "cus_1"
        subscription := some "sub_1", paymentIntent := none, amountTotal := some 900
        currency := some "usd" }⟩
  api := { quietApi with retrieveSubscription := fun _ => .ok (some ⟨0, 30⟩) }

/-- The first paid invoice comes before the checkout: its payment is never recorded. -/
theorem paidBeforeCheckout_not_recorded :
    ∃ dbCreated dbDelivered,
      deliverAll newUser [firstCheckout, firstDelivery "evt_1" .invoicePaid] = .ok dbCreated ∧
      deliverAll newUser [firstDelivery "evt_1" .invoicePaid, firstCheckout] =
        .ok dbDelivered ∧
      (dbCreated.findPayment "pi_1").isSome = true ∧ dbDelivered.findPayment "pi_1" = none := by
  refine ⟨_, _, rfl, rfl, ?_, ?_⟩
  · decide +kernel
  · decide +kernel

end Neonfi.Billing

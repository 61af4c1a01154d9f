import Neonfi.Billing.Handlers

/-!
# What the statements leave alone

Lookups after each statement of the billing handlers.
-/

namespace Neonfi.Billing

open Lib

variable {db : Db} {paymentIntentId : String}

/-! ## Payments -/

theorem findPayment_eq_some_iff {p : Payment} :
    db.findPayment paymentIntentId = some p ↔
      p ∈ db.payments.rows ∧ p.stripePaymentIntentId = paymentIntentId := by
  unfold Db.findPayment
  rw [SerialTable.findUniq?_eq_some_iff]
  simp

theorem findPayment_eq_none_iff :
    db.findPayment paymentIntentId = none ↔
      ∀ p ∈ db.payments.rows, p.stripePaymentIntentId ≠ paymentIntentId := by
  unfold Db.findPayment
  rw [SerialTable.findUniq?_eq_none_iff]
  simp

section Upsert

variable {data : PaymentData}

/-- A stored payment intent keeps its row. -/
theorem upsertPayment_of_found {p : Payment}
    (hfound : db.findPayment data.stripePaymentIntentId = some p) :
    db.upsertPayment data = db := by
  have hnone : db.payments.insert? (fun id => { data with id }) (fun _ => rfl) = none := by
    rw [SerialTable.insert?_eq_none_iff]
    obtain ⟨hp, hkey⟩ := findPayment_eq_some_iff.mp hfound
    refine ⟨data.stripePaymentIntentId, rfl, ?_⟩
    rw [List.mem_filterMap]
    exact ⟨p, hp, by rw [hkey]⟩
  unfold Db.upsertPayment
  rw [hnone]

/-- A new payment intent is no unique violation. -/
theorem exists_insertPayment (hfree : db.findPayment data.stripePaymentIntentId = none) :
    ∃ payments, db.payments.insert? (fun id => { data with id }) (fun _ => rfl) =
      some payments := by
  cases hinsert : db.payments.insert? (fun id => { data with id }) (fun _ => rfl) with
  | some payments => exact ⟨payments, rfl⟩
  | none =>
      obtain ⟨key, hkey, hmem⟩ := SerialTable.insert?_eq_none_iff.mp hinsert
      obtain ⟨p, hp, hpkey⟩ := List.mem_filterMap.mp hmem
      have hne := findPayment_eq_none_iff.mp hfree p hp
      exact absurd (Option.some.inj (hpkey.trans hkey.symm)) hne

/-- A new payment intent gets the row that was to be created. -/
theorem upsertPayment_of_free (hfree : db.findPayment data.stripePaymentIntentId = none) :
    ∃ payments, db.upsertPayment data = { db with payments } ∧
      payments.rows = db.payments.rows ++ [{ data with id := db.payments.next }] ∧
      payments.next = db.payments.next + 1 := by
  obtain ⟨payments, hinsert⟩ := exists_insertPayment hfree
  obtain ⟨hrows, hnext⟩ := SerialTable.of_insert? hinsert
  unfold Db.upsertPayment
  rw [hinsert]
  exact ⟨payments, rfl, hrows, hnext⟩

theorem findPayment_upsertPayment (hfree : db.findPayment data.stripePaymentIntentId = none) :
    (db.upsertPayment data).findPayment data.stripePaymentIntentId =
      some { data with id := db.payments.next } := by
  obtain ⟨payments, heq, hrows, -⟩ := upsertPayment_of_free hfree
  rw [heq, findPayment_eq_some_iff]
  refine ⟨?_, rfl⟩
  show _ ∈ payments.rows
  rw [hrows]
  exact List.mem_append_right _ (List.mem_singleton_self _)

/-- The upsert finds the stored row, or else the row that was to be created. -/
theorem findPayment_upsertPayment_or (paymentIntentId : String) :
    (db.upsertPayment data).findPayment paymentIntentId =
      (db.findPayment paymentIntentId).or
        (if data.stripePaymentIntentId = paymentIntentId then
          some { data with id := db.payments.next } else none) := by
  cases hfound : db.findPayment data.stripePaymentIntentId with
  | some p =>
      rw [upsertPayment_of_found hfound]
      split
      · next heq => rw [← heq, hfound, Option.some_or]
      · rw [Option.or_none]
  | none =>
      obtain ⟨payments, hinsert⟩ := exists_insertPayment hfound
      unfold Db.upsertPayment Db.findPayment
      rw [hinsert]
      dsimp only
      rw [SerialTable.findUniq?_of_insert? hinsert]
      simp only [Option.some.injEq]

@[simp] theorem subscriptions_upsertPayment :
    (db.upsertPayment data).subscriptions = db.subscriptions := by
  unfold Db.upsertPayment
  split <;> rfl

end Upsert

/-! ## Subscriptions -/

section Update

variable {subId : ℕ} {f : SubscriptionColumns → SubscriptionColumns}

@[simp] theorem payments_updateSubscription :
    (db.updateSubscription subId f).payments = db.payments := rfl

@[simp] theorem findPayment_updateSubscription :
    (db.updateSubscription subId f).findPayment paymentIntentId =
      db.findPayment paymentIntentId := rfl

/-- The rewrite of one subscription row. -/
def Subscription.updated (subId : ℕ) (f : SubscriptionColumns → SubscriptionColumns)
    (s : Subscription) : Subscription :=
  if s.id = subId then { s with toSubscriptionColumns := f s.toSubscriptionColumns } else s

theorem rows_updateSubscription :
    (db.updateSubscription subId f).subscriptions.rows =
      db.subscriptions.rows.map (Subscription.updated subId f) := rfl

theorem toSubscriptionColumns_updated {s : Subscription} (hid : s.id = subId) :
    (Subscription.updated subId f s).toSubscriptionColumns = f s.toSubscriptionColumns := by
  unfold Subscription.updated
  rw [if_pos hid]

theorem findSubscriptionByUserId_updateSubscription {userId : ℕ} :
    (db.updateSubscription subId f).findSubscriptionByUserId userId =
      (db.findSubscriptionByUserId userId).map (Subscription.updated subId f) := by
  unfold Db.findSubscriptionByUserId Db.updateSubscription
  rw [SerialTable.findUniq?_modify]
  rfl

end Update

end Neonfi.Billing

import Neonfi.Billing.Subscriptions
import Neonfi.Lib.Run

/-!
# The onboarding status of a user

Three kinds of requests move it: `verifyEmail` reads the status and writes `verified` in a later
step, the activation of the free plan and a completed Stripe checkout write `complete` in their
transactions.  Only a verification can move it back, when it writes on what it has read long ago.
-/

namespace Neonfi.Onboarding

open Lib
open Ledger (Failure bind_eq_ok)
open Billing (Db User OnboardingStatus CreateSubscriptionBody CheckoutSession StripeAnswers
  StripeApi recordNotFound)

/-! ## Requests -/

def invalidVerificationToken : Failure :=
  .api 400 "INVALID_VERIFICATION_TOKEN" "Verification token is invalid or has expired" []

def userNotFound : Failure := .api 401 "UNAUTHENTICATED" "User not found" []

/-- A verification has taken its token, and has found its user pending. -/
inductive Verifying
  | asked
  | taken (userId : ℕ)
  | pending (userId : ℕ)
  deriving DecidableEq, Repr

/-- `requireAuth` loads the user before `activateSubscription` looks at the status. -/
inductive Activating
  | asked
  | loaded (user : User)
  deriving DecidableEq, Repr

inductive Work
  | verifyEmail (token : String) (phase : Verifying)
  | activateSubscription (userId : ℕ) (body : CreateSubscriptionBody) (phase : Activating)
  | checkoutSessionCompleted (session : CheckoutSession)
  deriving DecidableEq, Repr

def Work.isNew : Work → Bool
  | .verifyEmail _ phase => phase = .asked
  | .activateSubscription _ _ phase => phase = .asked
  | .checkoutSessionCompleted _ => true

inductive Reply
  | verified (userId : ℕ)
  | alreadyVerified
  | activated
  | handled
  | error (e : Failure)
  deriving DecidableEq, Repr

/-- The tables, the verification tokens in Redis, and the requests in flight. -/
structure State where
  db : Db
  emailVerify : String → Option ℕ := fun _ => none
  requests : ℕ → Option Work := fun _ => none
  answers : List (ℕ × Reply) := []

/-- What Stripe answers in a step. -/
structure Stripe where
  answers : StripeAnswers
  api : StripeApi

/-- A token is issued or expires; a request comes in, or makes its next step. -/
inductive Act
  | issue (token : String) (userId : ℕ)
  | expire (token : String)
  | request (id : ℕ) (work : Work)
  | go (id : ℕ) (stripe : Stripe)

/-- `updateUserOnboardingStatus` to `verified`, as `verifyEmail` has it. -/
def transitionToVerified (userId : ℕ) (db : Db) : Db :=
  { db with
    users := db.users.modify
      (fun u => if u.id = userId then { u with onboardingStatus := .verified } else u)
      fun u => by split <;> rfl }

namespace State

variable (s : State) (id : ℕ)

def put (work : Work) : State :=
  { s with requests := Function.update s.requests id (some work) }

def finish (reply : Reply) : State :=
  { s with
    requests := Function.update s.requests id none
    answers := s.answers ++ [(id, reply)] }

/-- One step of `verifyEmail`. -/
def verifyEmail (token : String) : Verifying → State
  | .asked =>
      let grant := s.emailVerify token
      let s := { s with emailVerify := Function.update s.emailVerify token none }
      match grant with
      | none => s.finish id (.error invalidVerificationToken)
      | some userId => s.put id (.verifyEmail token (.taken userId))
  | .taken userId =>
      match s.db.users.find? userId with
      | none => s.finish id (.error invalidVerificationToken)
      | some user =>
          if user.onboardingStatus ≠ .pendingVerification then s.finish id .alreadyVerified
          else s.put id (.verifyEmail token (.pending userId))
  | .pending userId =>
      if (s.db.users.find? userId).isNone then s.finish id (.error recordNotFound)
      else { s with db := transitionToVerified userId s.db }.finish id (.verified userId)

/-- The end of a request that is one transaction. -/
def commit (reply : Reply) : Except Failure Db → State
  | .error e => s.finish id (.error e)
  | .ok db => { s with db }.finish id reply

def activateSubscription (stripe : Stripe) (userId : ℕ) (body : CreateSubscriptionBody) :
    Activating → State
  | .asked =>
      match s.db.users.find? userId with
      | none => s.finish id (.error userNotFound)
      | some user => s.put id (.activateSubscription userId body (.loaded user))
  | .loaded user =>
      s.commit id .activated
        ((Billing.activateSubscription stripe.answers user body s.db).map Prod.fst)

/-- The next step of a request. -/
def go (stripe : Stripe) : Work → State
  | .verifyEmail token phase => s.verifyEmail id token phase
  | .activateSubscription userId body phase =>
      s.activateSubscription id stripe userId body phase
  | .checkoutSessionCompleted session =>
      s.commit id .handled (Billing.handleCheckoutSessionCompleted stripe.api session s.db)

def step : Act → Option State
  | .issue token userId =>
      some { s with emailVerify := Function.update s.emailVerify token (some userId) }
  | .expire token => some { s with emailVerify := Function.update s.emailVerify token none }
  | .request id work =>
      if work.isNew ∧ s.requests id = none ∧ id ∉ s.answers.map Prod.fst then some (s.put id work)
      else none
  | .go id stripe => (s.requests id).map (s.go id stripe)

end State

def Steps (s : State) (act : Act) (s' : State) : Prop := s.step act = some s'

/-! ## The order of the statuses -/

def rank : OnboardingStatus → ℕ
  | .pendingVerification => 0
  | .verified => 1
  | .planSelected => 2
  | .complete => 3

theorem rank_le (status : OnboardingStatus) : rank status ≤ 3 := by
  cases status <;> decide

/-- How far the user is. -/
def progress (db : Db) (userId : ℕ) : ℕ :=
  ((db.users.find? userId).map fun u => rank u.onboardingStatus).getD 0

/-- No user moves back. -/
def Advances (db db' : Db) : Prop := ∀ userId, progress db userId ≤ progress db' userId

/-- A verification that writes finds its user no further than verified. -/
def VerifiesInTime (s : State) (act : Act) : Prop :=
  ∀ id stripe token userId, act = .go id stripe →
    s.requests id = some (.verifyEmail token (.pending userId)) → progress s.db userId ≤ 1

section

variable {db db' db'' : Db} {s s' : State} {act : Act} {userId : ℕ}

theorem Advances.refl : Advances db db := fun _ => le_refl _

theorem Advances.trans (h : Advances db db') (h' : Advances db' db'') : Advances db db'' :=
  fun userId => (h userId).trans (h' userId)

theorem Advances.of_users (h : db'.users = db.users) : Advances db db' := by
  intro userId
  unfold progress
  rw [h]

theorem advances_transitionToComplete (h : db.transitionToCompleteOnboarding userId = .ok db') :
    Advances db db' := by
  unfold Db.transitionToCompleteOnboarding at h
  split at h
  · cases h
  · cases h
    intro k
    unfold progress
    dsimp only
    rw [Table.find?_modify]
    cases db.users.find? k with
    | none => exact le_refl _
    | some u =>
        rw [Option.map_some, Option.map_some, Option.map_some]
        split
        · exact rank_le _
        · exact le_refl _

theorem advances_createSubscription {columns : Billing.SubscriptionColumns}
    (h : db.createSubscription userId columns = .ok db') : Advances db db' := by
  unfold Db.createSubscription at h
  split at h
  · cases h
  · split at h
    · cases h
      exact .of_users rfl
    · cases h

theorem advances_checkout {api : StripeApi} {session : CheckoutSession}
    (h : Billing.handleCheckoutSessionCompleted api session db = .ok db') : Advances db db' := by
  unfold Billing.handleCheckoutSessionCompleted at h
  split at h
  · obtain ⟨period?, -, h⟩ := bind_eq_ok h
    obtain ⟨period, -, h⟩ := bind_eq_ok h
    obtain ⟨db₁, hupsert, h⟩ := bind_eq_ok h
    obtain ⟨db₂, hpayment, h⟩ := bind_eq_ok h
    have hfirst : Advances db db₁ := by
      unfold Billing.upsertSubscriptionFromCheckout at hupsert
      split at hupsert
      · cases hupsert
        exact .of_users rfl
      · exact advances_createSubscription hupsert
    have hsecond : Advances db₁ db₂ := by
      unfold Billing.createCheckoutPayment at hpayment
      split at hpayment
      · cases hpayment
        exact .refl
      · unfold Db.createPayment at hpayment
        split at hpayment
        · cases hpayment
          exact .of_users rfl
        · cases hpayment
    exact (hfirst.trans hsecond).trans (advances_transitionToComplete h)
  · cases h
    exact .refl

theorem advances_activate {answers : StripeAnswers} {user : User} {body : CreateSubscriptionBody}
    {calls : List Billing.StripeCall}
    (h : Billing.activateSubscription answers user body db = .ok (db', calls)) :
    Advances db db' := by
  unfold Billing.activateSubscription at h
  obtain ⟨-, -, h⟩ := bind_eq_ok h
  obtain ⟨-, -, h⟩ := bind_eq_ok h
  cases body with
  | free =>
      obtain ⟨db₁, hcreate, h⟩ := bind_eq_ok h
      obtain ⟨db₂, hcomplete, h⟩ := bind_eq_ok h
      cases h
      exact (advances_createSubscription hcreate).trans (advances_transitionToComplete hcomplete)
  | pro billingCycle =>
      unfold Billing.createProCheckoutSession at h
      obtain ⟨-, -, h⟩ := bind_eq_ok h
      cases h
      exact .refl

/-- The write of a verification moves nobody back exactly when the user is no further. -/
theorem advances_transitionToVerified_iff (h : (db.users.find? userId).isSome) :
    Advances db (transitionToVerified userId db) ↔ progress db userId ≤ 1 := by
  obtain ⟨user, huser⟩ := Option.isSome_iff_exists.mp h
  have hafter : ∀ k, progress (transitionToVerified userId db) k =
      if k = userId then 1 else progress db k := by
    intro k
    unfold progress transitionToVerified
    dsimp only
    rw [Table.find?_modify]
    by_cases hk : k = userId
    · subst hk
      rw [if_pos rfl, huser, Option.map_some, Option.map_some,
        if_pos (Table.find?_eq_some_iff.mp huser).2]
      rfl
    · rw [if_neg hk]
      cases hfound : db.users.find? k with
      | none => rfl
      | some u =>
          have hid := (Table.find?_eq_some_iff.mp hfound).2
          rw [Option.map_some, if_neg (by rw [hid]; exact hk)]
  constructor
  · intro hadvances
    have hle := hadvances userId
    rwa [hafter, if_pos rfl] at hle
  · intro hle k
    rw [hafter]
    split
    · next hk => exact hk ▸ hle
    · exact le_refl _

/-! ## Steps and runs -/

theorem advances_commit {id : ℕ} {reply : Reply} {result : Except Failure Db}
    (h : ∀ db, result = .ok db → Advances s.db db) :
    Advances s.db (s.commit id reply result).db := by
  cases result with
  | error e => exact .refl
  | ok db => exact h db rfl

theorem verifiesInTime_of_ne_go (h : ∀ id stripe, act ≠ .go id stripe) : VerifiesInTime s act := by
  rintro id stripe token userId rfl
  exact absurd rfl (h id stripe)

/-- Only the write of a verification may move a user back. -/
theorem advances_step_iff (hstep : Steps s act s') :
    Advances s.db s'.db ↔ VerifiesInTime s act := by
  unfold Steps State.step at hstep
  cases act with
  | issue token userId =>
      cases hstep
      exact ⟨fun _ => verifiesInTime_of_ne_go (by rintro _ _ ⟨⟩), fun _ => .refl⟩
  | expire token =>
      cases hstep
      exact ⟨fun _ => verifiesInTime_of_ne_go (by rintro _ _ ⟨⟩), fun _ => .refl⟩
  | request id work =>
      dsimp only at hstep
      split at hstep
      · cases hstep
        exact ⟨fun _ => verifiesInTime_of_ne_go (by rintro _ _ ⟨⟩), fun _ => .refl⟩
      · cases hstep
  | go id stripe =>
      obtain ⟨work, hwork, rfl⟩ := Option.map_eq_some_iff.mp hstep
      have hother : (∀ token userId, work ≠ .verifyEmail token (.pending userId)) →
          VerifiesInTime s (.go id stripe) := by
        rintro hne id' stripe' token userId hact hid
        cases hact
        rw [hwork] at hid
        exact absurd (Option.some.inj hid) (hne token userId)
      unfold State.go
      cases work with
      | verifyEmail token phase =>
          cases phase with
          | asked =>
              refine ⟨fun _ => hother (by rintro _ _ ⟨⟩), fun _ => ?_⟩
              unfold State.verifyEmail
              dsimp only
              split <;> exact .refl
          | taken userId =>
              refine ⟨fun _ => hother (by rintro _ _ ⟨⟩), fun _ => ?_⟩
              unfold State.verifyEmail
              dsimp only
              split
              · exact .refl
              · split <;> exact .refl
          | pending userId =>
              have htime : VerifiesInTime s (.go id stripe) ↔ progress s.db userId ≤ 1 := by
                constructor
                · exact fun h => h id stripe token userId rfl hwork
                · intro hle id' stripe' token' userId' hact hid
                  cases hact
                  rw [hwork] at hid
                  cases hid
                  exact hle
              rw [htime]
              unfold State.verifyEmail
              dsimp only
              split
              · next hnone =>
                  have hprogress : progress s.db userId = 0 := by
                    unfold progress
                    rw [Option.isNone_iff_eq_none.mp hnone]
                    rfl
                  exact ⟨fun _ => by omega, fun _ => .refl⟩
              · next hsome =>
                  exact advances_transitionToVerified_iff
                    (Option.isSome_iff_ne_none.mpr (hsome ∘ Option.isNone_iff_eq_none.mpr))
      | activateSubscription userId body phase =>
          refine ⟨fun _ => hother (by rintro _ _ ⟨⟩), fun _ => ?_⟩
          cases phase with
          | asked =>
              unfold State.activateSubscription
              dsimp only
              split <;> exact .refl
          | loaded user =>
              refine advances_commit fun db hdb => ?_
              cases hactivated : Billing.activateSubscription stripe.answers user body s.db with
              | error e =>
                  rw [hactivated] at hdb
                  cases hdb
              | ok result =>
                  rw [hactivated] at hdb
                  cases hdb
                  exact advances_activate hactivated
      | checkoutSessionCompleted session =>
          exact ⟨fun _ => hother (by rintro _ _ ⟨⟩),
            fun _ => advances_commit fun db hdb => advances_checkout hdb⟩

/-- Over every run no user moves back in any step exactly when every verification that writes
finds its user no further than verified. -/
theorem onboarding_advances_iff {acts : List Act} :
    Run (fun s act s' => Steps s act s' ∧ Advances s.db s'.db) s acts s' ↔
      Run (Guarded Steps VerifiesInTime) s acts s' := by
  constructor
  · exact fun h => h.mono fun _ _ _ hstep => ⟨hstep.1, (advances_step_iff hstep.1).mp hstep.2⟩
  · exact fun h => h.mono fun _ _ _ hstep => ⟨hstep.1, (advances_step_iff hstep.1).mpr hstep.2⟩

end

/-! ## A late verification -/

/-- Onboarding never moves backwards. -/
def NeverBackwards : Prop :=
  ∀ (db : Db) (acts acts' : List Act) (s s' : State), Run Steps { db } acts s →
    Run Steps s acts' s' → Advances s.db s'.db

def sampleStripe : Stripe where
  answers := ⟨0, fun _ => .error recordNotFound⟩
  api := ⟨0, fun _ => .ok none, fun _ => .ok none⟩

def sampleDb : Db where
  users := ⟨[⟨1, .pendingVerification⟩], by decide⟩
  subscriptions := .empty
  payments := .empty

def go (id : ℕ) : Act := .go id sampleStripe

/-- Two tokens of user 1: the first verification has read the status when the second one runs to
its end and the user activates the free plan. -/
def lateVerification : List Act :=
  [.issue "a" 1, .issue "b" 1, .request 1 (.verifyEmail "a" .asked), go 1, go 1,
    .request 2 (.verifyEmail "b" .asked), go 2, go 2, go 2,
    .request 3 (.activateSubscription 1 .free .asked), go 3, go 3]

def sampleStep (act : Act) (s : State) : Option State := s.step act

/-- The user has activated the plan. -/
def activated : State := (tried sampleStep lateVerification { db := sampleDb }).2

theorem not_neverBackwards : ¬ NeverBackwards := by
  intro hnever
  have hadvances := hnever sampleDb _ _ activated _
    (run_tried sampleStep lateVerification { db := sampleDb })
    (run_tried sampleStep [go 1] activated) 1
  have hback : progress (tried sampleStep [go 1] activated).2.db 1 < progress activated.db 1 := by
    decide +kernel
  exact absurd hadvances (not_le_of_gt hback)

end Neonfi.Onboarding

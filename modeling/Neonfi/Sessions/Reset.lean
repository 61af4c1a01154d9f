import Neonfi.Sessions.SingleUse

/-!
# A reset ends the sessions of the old password

A reset stores the new hash and then revokes the sessions there are.  Every session that a login
has opened stands on the current password, or is about to be revoked by the reset that replaced
its password, as long as no login opens a session on a password that is gone for good.
-/

namespace Neonfi.Sessions

open Lib
open Ledger (Millis)

def State.passwordOf (s : State) (userId : ℕ) : Option String :=
  (s.users.find? userId).bind User.passwordHash

/-- A reset has replaced this hash of the user and has yet to revoke the sessions. -/
def State.Replacing (s : State) (userId : ℕ) (hash : Option String) : Prop :=
  ∃ id token password,
    s.requests id = some (.confirmPasswordReset token password (.updated userId hash))

/-- The hash is that of the user, or the reset that replaced it has yet to revoke. -/
def State.Stands (s : State) (userId : ℕ) (hash : Option String) : Prop :=
  s.passwordOf userId = hash ∨ s.Replacing userId hash

/-- Every live session stands on the password that its login has verified. -/
def Founded (s : State) : Prop :=
  ∀ r ∈ s.sessions.rows, r.revokedAt = none → ∀ hash, s.origin r.id = some hash →
    s.Stands r.userId (some hash)

/-- A login that creates its session has verified a password that still stands. -/
def OpensStanding (s : State) (act : Act) : Prop :=
  ∀ id raw email password user, act = .go id raw →
    s.requests id = some (.login email password (.verified user)) →
      s.Stands user.id user.passwordHash

section

variable {crypto : Crypto} {s s' : State} {act : Act} {userId : ℕ} {hash : Option String}

theorem passwordOf_updatePassword (k : ℕ) (new : String) :
    ((s.users.updatePassword userId new).find? k).bind User.passwordHash =
      if k = userId then (s.users.find? k).map fun _ => new else s.passwordOf k := by
  unfold State.passwordOf UserTable.updatePassword
  rw [SerialTable.find?_modify]
  cases hk : s.users.find? k with
  | none => simp
  | some u =>
      have hid := (SerialTable.find?_eq_some_iff.mp hk).2
      rw [Option.map_some, Option.bind_some, ← hid]
      split <;> rfl

/-- A password is replaced by a reset only, which has then to revoke. -/
theorem passwordOf_step (hstep : Effect crypto s act s') (k : ℕ) :
    s'.passwordOf k = s.passwordOf k ∨ s'.Replacing k (s.passwordOf k) := by
  cases hstep with
  | @updates id raw token password userId user hwork huser =>
      by_cases hk : k = userId
      · subst hk
        refine .inr ⟨id, token, password, ?_⟩
        have hpassword : s.passwordOf k = user.passwordHash := by
          unfold State.passwordOf
          rw [huser]
          rfl
        rw [requests_put, if_pos rfl, hpassword]
      · refine .inl ?_
        show ((s.users.updatePassword userId _).find? k).bind User.passwordHash = _
        rw [passwordOf_updatePassword, if_neg hk]
  | _ => exact .inl rfl

/-- A reset that has yet to revoke either waits or revokes all sessions of its user. -/
theorem State.Replacing.step (h : s.Replacing userId hash) (hstep : Effect crypto s act s') :
    s'.Replacing userId hash ∨
      ∀ r ∈ s'.sessions.rows, r.userId = userId → r.revokedAt.isSome := by
  obtain ⟨id, token, password, hwork⟩ := h
  by_cases hact : act.request? = some id
  · cases hstep with
    | elapse => cases hact
    | issue => cases hact
    | request hnew hfree =>
        cases hact
        rw [hwork] at hfree
        cases hfree
    | reads hid h | quits hid h | opens hid h | revokes hid h =>
        cases hact
        rw [hwork] at hid
        cases hid
        cases h
    | refuse hid | takes hid | denies hid | draws hid | rotates hid | marks hid | updates hid =>
        cases hact
        rw [hwork] at hid
        cases hid
    | revokesAll hid =>
        cases hact
        rw [hwork] at hid
        cases hid
        refine .inr ?_
        intro r hr huser
        have hfound : (s.sessions.revokeAllForUser userId s.now).find? r.id = some r :=
          SerialTable.find?_eq_some_iff.mpr ⟨hr, rfl⟩
        rw [SessionTable.find?_revokeAllForUser] at hfound
        obtain ⟨old, -, rfl⟩ := Option.map_eq_some_iff.mp hfound
        split
        · rfl
        · next hrevoked =>
            rw [if_neg hrevoked] at huser
            exact Option.isSome_iff_ne_none.mpr fun hlive => hrevoked ⟨huser, hlive⟩
  · exact .inl ⟨id, token, password, (requests_of_ne hstep hact).trans hwork⟩

/-- What stands, stands after the step, or the sessions of its user are revoked. -/
theorem State.Stands.step (h : s.Stands userId hash) (hstep : Effect crypto s act s') :
    s'.Stands userId hash ∨
      ∀ r ∈ s'.sessions.rows, r.userId = userId → r.revokedAt.isSome := by
  rcases h with hcurrent | hreplacing
  · rcases passwordOf_step hstep userId with hsame | hreplaced
    · exact .inl (.inl (hsame.trans hcurrent))
    · exact .inl (.inr (hcurrent ▸ hreplaced))
  · exact (hreplacing.step hstep).imp_left .inr

/-- A live session was live before, on the same password, or it is that of a login. -/
theorem session_of_step (hstep : Effect crypto s act s') {r : Session}
    (hr : r ∈ s'.sessions.rows) (hlive : r.revokedAt = none) {hash : String}
    (horigin : s'.origin r.id = some hash) :
    (∃ old ∈ s.sessions.rows, old.revokedAt = none ∧ old.userId = r.userId ∧
        s.origin old.id = some hash) ∨
      ∃ id raw email password user, act = .go id raw ∧
        s.requests id = some (.login email password (.verified user)) ∧ user.id = r.userId ∧
          user.passwordHash = some hash := by
  have hfound : s'.sessions.find? r.id = some r := SerialTable.find?_eq_some_iff.mpr ⟨hr, rfl⟩
  have hmodified : ∀ {f : Session → Session}, s'.origin = s.origin →
      s'.sessions.find? r.id = (s.sessions.find? r.id).map f →
      (∀ old, (f old).revokedAt = none → old.revokedAt = none ∧ (f old).userId = old.userId) →
        ∃ old ∈ s.sessions.rows, old.revokedAt = none ∧ old.userId = r.userId ∧
          s.origin old.id = some hash := by
    intro f hsame hmap hf
    rw [hmap] at hfound
    obtain ⟨old, hold, rfl⟩ := Option.map_eq_some_iff.mp hfound
    obtain ⟨hmem, hid⟩ := SerialTable.find?_eq_some_iff.mp hold
    obtain ⟨holdLive, huser⟩ := hf old hlive
    exact ⟨old, hmem, holdLive, huser.symm, by rw [hid, ← hsame, horigin]⟩
  cases hstep with
  | @rotates id raw token newToken session expiresAt sessions hwork hrotates hfind hnext =>
      refine .inl (hmodified rfl (hfind r.id) ?_)
      intro old
      split
      · exact fun hlive => ⟨hlive, rfl⟩
      · exact fun hlive => ⟨hlive, rfl⟩
  | @opens id raw work userId verified sessions hwork hopens hfind hnext =>
      have hrow : sessions.find? r.id = some r := hfound
      rw [hfind] at hrow
      rcases Option.or_eq_some_iff.mp hrow with hold | ⟨-, hnew⟩
      · obtain ⟨hmem, -⟩ := SerialTable.find?_eq_some_iff.mp hold
        have hbelow := s.sessions.below r hmem
        refine .inl ⟨r, hmem, hlive, rfl, ?_⟩
        rw [← horigin]
        exact (Function.update_of_ne (ne_of_lt hbelow) _ _).symm
      · split at hnew
        · next hid =>
            have hverified : verified = some hash := by
              have hupdated : Function.update s.origin s.sessions.next verified r.id = some hash :=
                horigin
              rw [← hid, Function.update_self] at hupdated
              exact hupdated
            cases hnew
            cases hopens with
            | login => exact .inr ⟨id, raw, _, _, _, rfl, hwork, rfl, hverified⟩
            | google => cases hverified
        · cases hnew
  | revokes =>
      refine .inl (hmodified rfl (s.sessions.find?_revoke _ _ _) ?_)
      intro old
      split
      · intro hlive
        cases hlive
      · exact fun hlive => ⟨hlive, rfl⟩
  | revokesAll =>
      refine .inl (hmodified rfl (s.sessions.find?_revokeAllForUser _ _ _) ?_)
      intro old
      split
      · intro hlive
        cases hlive
      · exact fun hlive => ⟨hlive, rfl⟩
  | _ => exact .inl ⟨r, hr, hlive, rfl, horigin⟩

theorem Founded.step (h : Founded s) (hopens : OpensStanding s act)
    (hstep : Effect crypto s act s') : Founded s' := by
  intro r hr hlive hash horigin
  have hstood : s.Stands r.userId (some hash) := by
    rcases session_of_step hstep hr hlive horigin with
      ⟨old, hmem, holdLive, huser, holdOrigin⟩ |
      ⟨id, raw, email, password, user, hact, hwork, huser, hhash⟩
    · exact huser ▸ h old hmem holdLive hash holdOrigin
    · exact huser ▸ hhash ▸ hopens id raw email password user hact hwork
  rcases hstood.step hstep with hstands | hrevoked
  · exact hstands
  · have hsome := hrevoked r hr rfl
    rw [hlive] at hsome
    cases hsome

theorem founded_start {now : Millis} {users : UserTable} : Founded (State.start now users) := by
  intro r hr
  cases hr

/-- Once the reset that replaced a password has revoked, no session of that password is live, if
no login has created its session on a password that was replaced and revoked before. -/
theorem reset_ends_sessions {acts : List Act} {now : Millis} {users : UserTable}
    (hrun : Run (Guarded (Steps crypto) OpensStanding) (State.start now users) acts s)
    {old : String} (hreplaced : s.passwordOf userId ≠ some old)
    (hdone : ¬ s.Replacing userId (some old)) :
    ∀ r ∈ s.sessions.rows, r.userId = userId → s.origin r.id = some old → r.revokedAt.isSome := by
  have hfounded : Founded s :=
    hrun.invariant (fun _ _ _ h hstep => h.step hstep.2 (effect_of_step hstep.1)) founded_start
  intro r hr huser horigin
  refine Option.isSome_iff_ne_none.mpr fun hlive => ?_
  rcases hfounded r hr hlive old horigin with hcurrent | hreplacing
  · exact hreplaced (huser ▸ hcurrent)
  · exact hdone (huser ▸ hreplacing)

end

/-- The request that comes in. -/
def Act.requested? : Act → Option ℕ
  | .request id _ => some id
  | _ => none

/-- What is in flight has come in. -/
theorem requested_of_requests {crypto : Crypto} {s s' : State} {acts : List Act}
    (hrun : Run (Steps crypto) s acts s') {id : ℕ} (h : s'.requests id ≠ none) :
    s.requests id ≠ none ∨ id ∈ acts.filterMap Act.requested? := by
  induction hrun with
  | nil => exact .inl h
  | @cons s t u act acts hstep _ ih =>
      rcases ih h with hfirst | hlater
      · by_cases hact : act.request? = some id
        · cases act with
          | request id' work =>
              cases hact
              exact .inr List.mem_cons_self
          | refuse id' =>
              cases hact
              obtain ⟨work, hwork, -⟩ := Option.bind_eq_some_iff.mp hstep
              exact .inl (by rw [hwork]; exact Option.some_ne_none _)
          | go id' raw =>
              cases hact
              obtain ⟨work, hwork, -⟩ := Option.map_eq_some_iff.mp hstep
              exact .inl (by rw [hwork]; exact Option.some_ne_none _)
          | _ => cases hact
        · exact .inl (requests_of_ne (effect_of_step hstep) hact ▸ hfirst)
      · exact .inr (((List.sublist_cons_self act acts).filterMap _).subset hlater)

/-- Whenever all requests are answered, no session of a replaced password is live. -/
def ResetsEndSessions (crypto : Crypto) : Prop :=
  ∀ (now : Millis) (users : UserTable) (acts : List Act) (s : State) (userId : ℕ) (old : String),
    Run (Steps crypto) (State.start now users) acts s →
    (∀ id ∈ acts.filterMap Act.requested?, id ∈ s.answers.map Prod.fst) →
    s.passwordOf userId ≠ some old →
    ∀ r ∈ s.sessions.rows, r.userId = userId → s.origin r.id = some old → r.revokedAt.isSome

/-- A login verifies the old password, a reset runs from its start to its end, and the login
creates its session. -/
def resetDuringLogin : List Act :=
  [.issue "k" ⟨1, 3600000⟩, .request 1 (.login "ada@example.com" "old" .asked), .go 1 "",
    .request 2 (.confirmPasswordReset "k" "new" .asked), .go 2 "", .go 2 "", .go 2 "1", .go 2 "",
    .go 1 "t1"]

theorem not_resetsEndSessions : ¬ ResetsEndSessions sampleCrypto := by
  intro hends
  have hrun := (run_stepFresh sampleCrypto resetDuringLogin sampleStart).mono
    fun _ _ _ hstep => hstep.1
  have hrevoked := hends 0 _ _ _ 1 "old$0" hrun (by decide +kernel) (by decide +kernel)
    ⟨1, 1, 604800000, none, "t1"⟩ (by decide +kernel) rfl (by decide +kernel)
  cases hrevoked

/-- The password that a login has verified is still that of the user. -/
def opensCurrent (s : State) : Act → Bool
  | .go id _ =>
      match s.requests id with
      | some (.login _ _ (.verified user)) => s.passwordOf user.id = user.passwordHash
      | _ => true
  | _ => true

theorem opensStanding_of_opensCurrent {s : State} {act : Act} (h : opensCurrent s act) :
    OpensStanding s act := by
  rintro id raw email password user rfl hwork
  unfold opensCurrent at h
  dsimp only at h
  rw [hwork] at h
  exact .inl (of_decide_eq_true h)

/-- A login, a refresh of its session, and a reset. -/
def resetAfterLogin : List Act :=
  loginAndRefresh ++ [.issue "k" ⟨1, 3600000⟩,
    .request 3 (.confirmPasswordReset "k" "new" .asked), .go 3 "", .go 3 "", .go 3 "1", .go 3 ""]

def State.stepCurrent (act : Act) (s : State) : Option State :=
  if opensCurrent s act then s.step sampleCrypto act else none

theorem run_stepCurrent (acts : List Act) : Run (Guarded (Steps sampleCrypto) OpensStanding)
    sampleStart (tried State.stepCurrent acts sampleStart).1
      (tried State.stepCurrent acts sampleStart).2 := by
  refine (run_tried State.stepCurrent acts sampleStart).mono ?_
  intro s act s' h
  unfold State.stepCurrent at h
  split at h
  · next hopens => exact ⟨h, opensStanding_of_opensCurrent hopens⟩
  · cases h

theorem reset_ends_sessions_sample :
    (tried State.stepCurrent resetAfterLogin sampleStart).2.sessions.rows ≠ [] ∧
      ∀ r ∈ (tried State.stepCurrent resetAfterLogin sampleStart).2.sessions.rows,
        r.userId = 1 → r.revokedAt.isSome := by
  have hrun := run_stepCurrent resetAfterLogin
  refine ⟨by decide +kernel, fun r hr huser => ?_⟩
  refine @reset_ends_sessions sampleCrypto _ 1 _ 0 sampleStart.users hrun "old$0"
    (by decide +kernel) ?_ r hr huser ?_
  · rintro ⟨id, token, password, hwork⟩
    have hid := requested_of_requests (hrun.mono fun _ _ _ hstep => hstep.1)
      (by rw [hwork]; exact Option.some_ne_none _)
    have hanswered : ∀ id ∈ (tried State.stepCurrent resetAfterLogin sampleStart).1.filterMap
        Act.requested?,
      (tried State.stepCurrent resetAfterLogin sampleStart).2.requests id = none := by
      decide +kernel
    rw [hanswered id (hid.resolve_left (· rfl))] at hwork
    cases hwork
  · have horigin : ∀ r ∈ (tried State.stepCurrent resetAfterLogin sampleStart).2.sessions.rows,
        (tried State.stepCurrent resetAfterLogin sampleStart).2.origin r.id = some "old$0" := by
      decide +kernel
    exact horigin r hr

end Neonfi.Sessions

import Neonfi.Sessions.Model

/-!
# What a step does to the sessions

`effect_of_step` says once what each step of a request reads and writes; the invariants of the
sessions are read off it.
-/

namespace Neonfi.Sessions

open Lib
open Ledger (Millis)

namespace SessionTable

variable (T : SessionTable) (now : Millis) (k : ℕ)

theorem find?_revoke (id : ℕ) : (T.revoke id now).find? k = (T.find? k).map fun r =>
    if r.id = id then { r with revokedAt := some now } else r :=
  SerialTable.find?_modify

theorem find?_revokeAllForUser (userId : ℕ) :
    (T.revokeAllForUser userId now).find? k = (T.find? k).map fun r =>
      if r.userId = userId ∧ r.revokedAt = none then { r with revokedAt := some now } else r :=
  SerialTable.find?_modify

end SessionTable

/-! ## Steps that only read -/

/-- The request goes on, having read what it needs. -/
inductive Reads (crypto : Crypto) (s : State) : Work → Work → Prop
  | unknown {token : String} (h : s.sessions.findByRefreshHash (crypto.sha256hex token) = none) :
      Reads crypto s (.refresh token .presented) (.refresh token .unknown)
  | found {token : String} {session : Session}
      (h : s.sessions.findByRefreshHash (crypto.sha256hex token) = some session) :
      Reads crypto s (.refresh token .presented) (.refresh token (.found session))
  | reused {token : String} {sessionId : ℕ}
      (h : s.used.get s.now (crypto.sha256hex token) = some sessionId) :
      Reads crypto s (.refresh token .unknown) (.refresh token (.reused sessionId))
  | live {token : String} {session : Session} (hrevoked : session.revokedAt = none) :
      Reads crypto s (.refresh token (.found session)) (.refresh token (.live session))
  | verified {email password : String} {user : User} (h : s.users.find? user.id = some user) :
      Reads crypto s (.login email password .asked) (.login email password (.verified user))
  | logout {sessionId : ℕ} :
      Reads crypto s (.logout sessionId .asked) (.logout sessionId (.found sessionId))
  | revoke {sessionId userId : ℕ} :
      Reads crypto s (.revokeSessionById sessionId userId .asked)
        (.revokeSessionById sessionId userId (.found sessionId))
  | reset {token password : String} {userId : ℕ} :
      Reads crypto s (.confirmPasswordReset token password (.granted userId))
        (.confirmPasswordReset token password (.hashing userId))

/-- The request may end without a write. -/
inductive Quits (crypto : Crypto) (s : State) : Work → Prop
  | unmarked {token : String} (h : s.used.get s.now (crypto.sha256hex token) = none) :
      Quits crypto s (.refresh token .unknown)
  | missing {token : String} {sessionId : ℕ} (h : s.sessions.find? sessionId = none) :
      Quits crypto s (.refresh token (.reused sessionId))
  | found {token : String} {session : Session} : Quits crypto s (.refresh token (.found session))
  | live {token : String} {session : Session} : Quits crypto s (.refresh token (.live session))
  | rotating {token newToken : String} {session : Session} {expiresAt : Millis} :
      Quits crypto s (.refresh token (.rotating session newToken expiresAt))
  | login {email password : String} {phase : LoggingIn} :
      Quits crypto s (.login email password phase)
  | google {userId : ℕ} : Quits crypto s (.google userId)
  | logout {sessionId : ℕ} {phase : Revoking} : Quits crypto s (.logout sessionId phase)
  | revoke {sessionId userId : ℕ} {phase : Revoking} :
      Quits crypto s (.revokeSessionById sessionId userId phase)
  | granted {token password : String} {userId : ℕ} :
      Quits crypto s (.confirmPasswordReset token password (.granted userId))
  | hashing {token password : String} {userId : ℕ} (h : s.users.find? userId = none) :
      Quits crypto s (.confirmPasswordReset token password (.hashing userId))

/-- The request creates a session for the user, after this verification. -/
inductive Opens : Work → ℕ → Option String → Prop
  | login {email password : String} {user : User} :
      Opens (.login email password (.verified user)) user.id user.passwordHash
  | google {userId : ℕ} : Opens (.google userId) userId none

/-- The request revokes the session. -/
inductive Revokes : Work → ℕ → Prop
  | reused {token : String} {sessionId : ℕ} : Revokes (.refresh token (.reused sessionId)) sessionId
  | logout {asked sessionId : ℕ} : Revokes (.logout asked (.found sessionId)) sessionId
  | revoke {asked userId sessionId : ℕ} :
      Revokes (.revokeSessionById asked userId (.found sessionId)) sessionId

/-! ## All steps -/

/-- What the step of an act does. -/
inductive Effect (crypto : Crypto) (s : State) : Act → State → Prop
  | elapse {ms : ℕ} : Effect crypto s (.elapse ms) { s with now := s.now + ms }
  | issue {token : String} {marker : Marker} :
      Effect crypto s (.issue token marker)
        { s with resets := Function.update s.resets token (some marker) }
  | request {id : ℕ} {work : Work} (hnew : work.isNew) (hfree : s.requests id = none)
      (hid : id ∉ s.answers.map Prod.fst) : Effect crypto s (.request id work) (s.put id work)
  | refuse {id : ℕ} {email password : String}
      (hwork : s.requests id = some (.login email password .asked)) :
      Effect crypto s (.refuse id) (s.finish id (.error .accountLocked))
  | reads {id : ℕ} {raw : String} {work work' : Work} (hwork : s.requests id = some work)
      (h : Reads crypto s work work') : Effect crypto s (.go id raw) (s.put id work')
  | quits {id : ℕ} {raw : String} {work : Work} {outcome : Outcome}
      (hwork : s.requests id = some work) (h : Quits crypto s work)
      (houtcome : outcome.handsTokens = false) :
      Effect crypto s (.go id raw) (s.finish id outcome)
  | takes {id : ℕ} {raw token password : String} {resets : Markers} {userId : ℕ}
      (hwork : s.requests id = some (.confirmPasswordReset token password .asked)) :
      Effect crypto s (.go id raw)
        ({ s with resets }.put id (.confirmPasswordReset token password (.granted userId)))
  | denies {id : ℕ} {raw token password : String} {resets : Markers} {outcome : Outcome}
      (hwork : s.requests id = some (.confirmPasswordReset token password .asked))
      (houtcome : outcome.handsTokens = false) :
      Effect crypto s (.go id raw) ({ s with resets }.finish id outcome)
  | draws {id : ℕ} {raw token : String} {session : Session}
      (hwork : s.requests id = some (.refresh token (.live session))) :
      Effect crypto s (.go id raw)
        ((s.draw (crypto.sha256hex raw)).put id
          (.refresh token (.rotating session raw (s.now + crypto.refreshTtlMs))))
  | rotates {id : ℕ} {raw token newToken : String} {session : Session} {expiresAt : Millis}
      {sessions : SessionTable}
      (hwork : s.requests id = some (.refresh token (.rotating session newToken expiresAt)))
      (hrotates : s.sessions.rotates session.id (crypto.sha256hex token))
      (hfind : ∀ k, sessions.find? k = (s.sessions.find? k).map fun r =>
        if r.id = session.id then
          { r with refreshTokenHash := crypto.sha256hex newToken, expiresAt }
        else r)
      (hnext : sessions.next = s.sessions.next) :
      Effect crypto s (.go id raw)
        ({ s with
          sessions
          handed := s.handed ++ [(⟨session.id, crypto.sha256hex newToken, expiresAt⟩ : Handed)]
          exchanges := s.exchanges ++
            [(⟨id, session.id, crypto.sha256hex token, crypto.sha256hex newToken⟩ : Exchange)] }.put id
              (.refresh token (.rotated session newToken)))
  | marks {id : ℕ} {raw token newToken : String} {session : Session}
      (hwork : s.requests id = some (.refresh token (.rotated session newToken))) :
      Effect crypto s (.go id raw)
        ((s.markUsed crypto (crypto.sha256hex token) session.id).finish id
          (.tokens session.id newToken))
  | opens {id : ℕ} {raw : String} {work : Work} {userId : ℕ} {verified : Option String}
      {sessions : SessionTable} (hwork : s.requests id = some work)
      (hopens : Opens work userId verified)
      (hfind : ∀ k, sessions.find? k = (s.sessions.find? k).or
        (if s.sessions.next = k then
          some ⟨s.sessions.next, userId, s.now + crypto.refreshTtlMs, none, crypto.sha256hex raw⟩
        else none))
      (hnext : sessions.next = s.sessions.next + 1) :
      Effect crypto s (.go id raw)
        ({ s with
          sessions
          drawn := s.drawn ++ [crypto.sha256hex raw]
          handed := s.handed ++
            [(⟨s.sessions.next, crypto.sha256hex raw, s.now + crypto.refreshTtlMs⟩ : Handed)]
          origin := Function.update s.origin s.sessions.next verified }.finish id
            (.tokens s.sessions.next raw))
  | revokes {id : ℕ} {raw : String} {work : Work} {sessionId : ℕ} {outcome : Outcome}
      (hwork : s.requests id = some work) (hrevokes : Revokes work sessionId)
      (houtcome : outcome.handsTokens = false) :
      Effect crypto s (.go id raw)
        ({ s with sessions := s.sessions.revoke sessionId s.now }.finish id outcome)
  | updates {id : ℕ} {raw token password : String} {userId : ℕ} {user : User}
      (hwork : s.requests id = some (.confirmPasswordReset token password (.hashing userId)))
      (huser : s.users.find? userId = some user) :
      Effect crypto s (.go id raw)
        ({ s with
          users := s.users.updatePassword userId (crypto.hashPassword password raw) }.put id
            (.confirmPasswordReset token password (.updated userId user.passwordHash)))
  | revokesAll {id : ℕ} {raw token password : String} {userId : ℕ} {replaced : Option String}
      (hwork : s.requests id =
        some (.confirmPasswordReset token password (.updated userId replaced))) :
      Effect crypto s (.go id raw)
        ({ s with sessions := s.sessions.revokeAllForUser userId s.now }.finish id .done)

section

variable {crypto : Crypto} {s s' : State} {act : Act} {id : ℕ} {raw : String}

theorem effect_openSession {work : Work} {userId : ℕ} {verified : Option String}
    (hwork : s.requests id = some work) (hopens : Opens work userId verified)
    (hquits : Quits crypto s work) :
    Effect crypto s (.go id raw) (s.openSession crypto id userId verified raw) := by
  unfold State.openSession
  dsimp only
  split
  · exact .quits hwork hquits rfl
  · split
    · exact .quits hwork hquits rfl
    · next sessions hcreate =>
        exact .opens hwork hopens (SerialTable.find?_of_insert? hcreate)
          (SerialTable.of_insert? hcreate).2

theorem effect_revokeRow {work : Work} {sessionId : ℕ} {outcome thrown : Outcome}
    (hwork : s.requests id = some work) (hrevokes : Revokes work sessionId)
    (houtcome : outcome.handsTokens = false) (hthrown : thrown.handsTokens = false)
    (hquits : s.sessions.find? sessionId = none → Quits crypto s work) :
    Effect crypto s (.go id raw) (s.revokeRow id sessionId outcome thrown) := by
  unfold State.revokeRow
  split
  · next hnone => exact .quits hwork (hquits (Option.isNone_iff_eq_none.mp hnone)) hthrown
  · exact .revokes hwork hrevokes houtcome

theorem effect_refresh {token : String} {phase : Refreshing}
    (hwork : s.requests id = some (.refresh token phase)) :
    Effect crypto s (.go id raw) (s.refresh crypto id token raw phase) := by
  cases phase with
  | presented =>
      unfold State.refresh
      dsimp only
      split
      · next hnone => exact .reads hwork (.unknown hnone)
      · next session hsome => exact .reads hwork (.found hsome)
  | unknown =>
      unfold State.refresh
      dsimp only
      split
      · next hnone => exact .quits hwork (.unmarked hnone) rfl
      · next sessionId hsome => exact .reads hwork (.reused hsome)
  | reused sessionId => exact effect_revokeRow hwork .reused rfl rfl .missing
  | found session =>
      unfold State.refresh
      dsimp only
      split
      · exact .quits hwork .found rfl
      · next hlive =>
          exact .reads hwork (.live (Option.not_isSome_iff_eq_none.mp (not_or.mp hlive).1))
  | live session =>
      unfold State.refresh
      dsimp only
      split
      · exact .quits hwork .live rfl
      · exact .draws hwork
  | rotating session newToken expiresAt =>
      unfold State.refresh SessionTable.rotate
      dsimp only
      by_cases hrotates : s.sessions.rotates session.id (crypto.sha256hex token)
      · rw [if_pos hrotates]
        cases hupdate : s.sessions.update? session.id
            (fun s => { s with refreshTokenHash := crypto.sha256hex newToken, expiresAt })
            fun _ => rfl with
        | none => exact .quits hwork .rotating rfl
        | some sessions =>
            exact .rotates hwork hrotates (SerialTable.find?_of_update? hupdate)
              (SerialTable.of_update? hupdate).2
      · rw [if_neg hrotates]
        exact .quits hwork .rotating rfl
  | rotated session newToken => exact .marks hwork

theorem effect_login {email password : String} {phase : LoggingIn}
    (hwork : s.requests id = some (.login email password phase)) :
    Effect crypto s (.go id raw) (s.login crypto id email password raw phase) := by
  cases phase with
  | asked =>
      unfold State.login
      dsimp only
      split
      · exact .quits hwork .login rfl
      · next user huser =>
          have hfound := (SerialTable.findUniq?_eq_some_iff.mp
            (Option.filter_eq_some_iff.mp huser).1).1
          exact .reads hwork (.verified (SerialTable.find?_eq_some_iff.mpr ⟨hfound, rfl⟩))
  | verified user => exact effect_openSession hwork .login .login

theorem effect_logout {sessionId : ℕ} {phase : Revoking}
    (hwork : s.requests id = some (.logout sessionId phase)) :
    Effect crypto s (.go id raw) (s.logout id sessionId phase) := by
  cases phase with
  | asked =>
      unfold State.logout
      dsimp only
      split
      · exact .quits hwork .logout rfl
      · next session hsome =>
          have hid := (SerialTable.find?_eq_some_iff.mp (Option.filter_eq_some_iff.mp hsome).1).2
          rw [hid]
          exact .reads hwork .logout
  | found sessionId => exact effect_revokeRow hwork .logout rfl rfl fun _ => .logout

theorem effect_revokeSessionById {sessionId userId : ℕ} {phase : Revoking}
    (hwork : s.requests id = some (.revokeSessionById sessionId userId phase)) :
    Effect crypto s (.go id raw) (s.revokeSessionById id sessionId userId phase) := by
  cases phase with
  | asked =>
      unfold State.revokeSessionById
      dsimp only
      split
      · exact .quits hwork .revoke rfl
      · next session hsome =>
          have hid := (SerialTable.find?_eq_some_iff.mp (Option.filter_eq_some_iff.mp hsome).1).2
          split
          · exact .quits hwork .revoke rfl
          · rw [hid]
            exact .reads hwork .revoke
  | found sessionId => exact effect_revokeRow hwork .revoke rfl rfl fun _ => .revoke

theorem effect_confirmPasswordReset {token password : String} {phase : Resetting}
    (hwork : s.requests id = some (.confirmPasswordReset token password phase)) :
    Effect crypto s (.go id raw) (s.confirmPasswordReset crypto id token password raw phase) := by
  cases phase with
  | asked =>
      unfold State.confirmPasswordReset
      dsimp only
      split
      · exact .denies hwork rfl
      · exact .takes hwork
  | granted userId =>
      unfold State.confirmPasswordReset
      dsimp only
      split
      · exact .quits hwork .granted rfl
      · exact .reads hwork .reset
  | hashing userId =>
      unfold State.confirmPasswordReset
      dsimp only
      split
      · next hnone => exact .quits hwork (.hashing hnone) rfl
      · next user huser => exact .updates hwork huser
  | updated userId replaced => exact .revokesAll hwork

theorem effect_of_step (h : Steps crypto s act s') : Effect crypto s act s' := by
  unfold Steps State.step at h
  cases act with
  | elapse ms =>
      cases h
      exact .elapse
  | issue token marker =>
      cases h
      exact .issue
  | request id work =>
      dsimp only at h
      split at h
      · next hnew =>
          cases h
          exact .request hnew.1 hnew.2.1 hnew.2.2
      · cases h
  | refuse id =>
      obtain ⟨work, hwork, h⟩ := Option.bind_eq_some_iff.mp h
      unfold State.refuse at h
      split at h
      · cases h
        exact .refuse hwork
      · cases h
  | go id raw =>
      obtain ⟨work, hwork, rfl⟩ := Option.map_eq_some_iff.mp h
      cases work with
      | refresh token phase => exact effect_refresh hwork
      | login email password phase => exact effect_login hwork
      | google userId => exact effect_openSession hwork .google .google
      | logout sessionId phase => exact effect_logout hwork
      | revokeSessionById sessionId userId phase => exact effect_revokeSessionById hwork
      | confirmPasswordReset token password phase => exact effect_confirmPasswordReset hwork

/-- The request that an act is about. -/
def Act.request? : Act → Option ℕ
  | .request id _ => some id
  | .refuse id => some id
  | .go id _ => some id
  | _ => none

theorem requests_of_ne (hstep : Effect crypto s act s') (hid : act.request? ≠ some id) :
    s'.requests id = s.requests id := by
  have hne : ∀ {id'}, act.request? = some id' → id ≠ id' := by
    rintro id' hact rfl
    exact hid hact
  cases hstep with
  | elapse => rfl
  | issue => rfl
  | request => exact Function.update_of_ne (hne rfl) _ _
  | refuse => exact Function.update_of_ne (hne rfl) _ _
  | _ => exact Function.update_of_ne (hne rfl) _ _

end

end Neonfi.Sessions

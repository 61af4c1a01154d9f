import Neonfi.Ledger.Model

/-!
# Sessions

The requests that write the sessions of `users.repository.ts`: `login` and the Google callback
create them, `refresh` rotates their tokens, `logout`, `revokeSessionById` and
`confirmPasswordReset` revoke them.  A request is a process whose commands to the database and
to Redis are steps of their own, so that any other request may run between two of them.
-/

namespace Neonfi.Sessions

open Lib
open Ledger (Millis)

/-! ## Rows and markers -/

inductive AuthProvider
  | email
  | google
  deriving DecidableEq, Repr

structure User where
  id : ℕ
  email : String
  passwordHash : Option String
  authProvider : AuthProvider
  deriving DecidableEq, Repr

abbrev UserTable := SerialTable User String User.id fun u => some u.email

structure Session where
  id : ℕ
  userId : ℕ
  expiresAt : Millis
  revokedAt : Option Millis
  refreshTokenHash : String
  deriving DecidableEq, Repr

abbrev SessionTable := SerialTable Session String Session.id fun s => some s.refreshTokenHash

/-- A number that Redis keeps until its expiry. -/
structure Marker where
  value : ℕ
  expiresAt : Millis
  deriving DecidableEq, Repr

/-- The keys of one prefix. -/
abbrev Markers := String → Option Marker

def Markers.get (markers : Markers) (now : Millis) (key : String) : Option ℕ :=
  ((markers key).filter fun m => now ≤ m.expiresAt).map Marker.value

/-- The hash functions, and `REFRESH_TOKEN_EXPIRY` in milliseconds. -/
structure Crypto where
  sha256hex : String → String
  hashPassword : String → String → String
  verifyPassword : String → String → Bool
  dummyHash : String
  refreshTtlMs : Millis

namespace SessionTable

variable (T : SessionTable)

def findByRefreshHash (hash : String) : Option Session := T.findUniq? hash

/-- `revokeSession`. -/
def revoke (id : ℕ) (now : Millis) : SessionTable :=
  T.modify (fun s => if s.id = id then { s with revokedAt := some now } else s)
    (fun s => by split <;> rfl) fun s => by split <;> rfl

/-- `revokeAllSessionsForUser`. -/
def revokeAllForUser (userId : ℕ) (now : Millis) : SessionTable :=
  T.modify
    (fun s =>
      if s.userId = userId ∧ s.revokedAt = none then { s with revokedAt := some now } else s)
    (fun s => by split <;> rfl) fun s => by split <;> rfl

/-- Whether the conditional update of a rotation finds its row. -/
def rotates (id : ℕ) (oldHash : String) : Bool :=
  (T.find? id).any fun s => s.refreshTokenHash = oldHash ∧ s.revokedAt = none

/-- `rotateSessionRefreshHash`; `none` is the unique violation of the new hash. -/
def rotate (id : ℕ) (oldHash newHash : String) (expiresAt : Millis) :
    Option (Bool × SessionTable) :=
  if T.rotates id oldHash then
    (T.update? id (fun s => { s with refreshTokenHash := newHash, expiresAt }) fun _ => rfl).map
      fun T => (true, T)
  else some (false, T)

/-- `createSession`. -/
def create (userId : ℕ) (hash : String) (expiresAt : Millis) : Option SessionTable :=
  T.insert? (fun id => ⟨id, userId, expiresAt, none, hash⟩) fun _ => rfl

end SessionTable

/-- `updatePassword`. -/
def UserTable.updatePassword (T : UserTable) (userId : ℕ) (passwordHash : String) : UserTable :=
  T.modify (fun u => if u.id = userId then { u with passwordHash := some passwordHash } else u)
    (fun u => by split <;> rfl) fun u => by split <;> rfl

/-! ## Answers -/

structure AuthError where
  statusCode : ℕ
  code : String
  message : String
  deriving DecidableEq, Repr

namespace AuthError

def tokenNotFound : AuthError := ⟨401, "INVALID_REFRESH_TOKEN", "Refresh token not found"⟩

def userNotFound : AuthError := ⟨401, "INVALID_REFRESH_TOKEN", "User not found"⟩

def sessionExpired : AuthError := ⟨401, "SESSION_EXPIRED", "Session has expired"⟩

def accountLocked : AuthError :=
  ⟨423, "ACCOUNT_LOCKED", "Account temporarily locked due to too many failed attempts"⟩

def invalidCredentials : AuthError := ⟨401, "INVALID_CREDENTIALS", "Invalid email or password"⟩

def forbidden : AuthError := ⟨403, "FORBIDDEN", "Session not found or access denied"⟩

def invalidResetToken : AuthError :=
  ⟨400, "INVALID_RESET_TOKEN", "Password reset token is invalid or has expired"⟩

end AuthError

/-- `tokens` hands out an access token for the session and a refresh token. -/
inductive Outcome
  | tokens (sessionId : ℕ) (refreshToken : String)
  | done
  | error (e : AuthError)
  | failed
  deriving DecidableEq, Repr

/-- The request is answered with tokens. -/
def Outcome.handsTokens : Outcome → Bool
  | .tokens _ _ => true
  | _ => false

/-! ## Requests -/

/-- How far a `refresh` has come: before its lookup; no session has the hash; the hash was used
for this session; a session has it; the session is live; its new token is drawn; the row is
rotated and the marker is to be set. -/
inductive Refreshing
  | presented
  | unknown
  | reused (sessionId : ℕ)
  | found (session : Session)
  | live (session : Session)
  | rotating (session : Session) (newToken : String) (expiresAt : Millis)
  | rotated (session : Session) (newToken : String)
  deriving DecidableEq, Repr

inductive LoggingIn
  | asked
  | verified (user : User)
  deriving DecidableEq, Repr

inductive Revoking
  | asked
  | found (sessionId : ℕ)
  deriving DecidableEq, Repr

/-- A reset has taken its token, found its user, hashed the password and stored the hash in place
of the one that is noted. -/
inductive Resetting
  | asked
  | granted (userId : ℕ)
  | hashing (userId : ℕ)
  | updated (userId : ℕ) (replaced : Option String)
  deriving DecidableEq, Repr

inductive Work
  | refresh (token : String) (phase : Refreshing)
  | login (email password : String) (phase : LoggingIn)
  | google (userId : ℕ)
  | logout (sessionId : ℕ) (phase : Revoking)
  | revokeSessionById (sessionId currentUserId : ℕ) (phase : Revoking)
  | confirmPasswordReset (token password : String) (phase : Resetting)
  deriving DecidableEq, Repr

/-- The request has not made a step yet. -/
def Work.isNew : Work → Bool
  | .refresh _ phase => phase = .presented
  | .login _ _ phase => phase = .asked
  | .google _ => true
  | .logout _ phase => phase = .asked
  | .revokeSessionById _ _ phase => phase = .asked
  | .confirmPasswordReset _ _ phase => phase = .asked

/-- A refresh token that was handed out, by its hash, and until when it is good. -/
structure Handed where
  sessionId : ℕ
  hash : String
  expiresAt : Millis
  deriving DecidableEq, Repr

/-- A successful rotation. -/
structure Exchange where
  request : ℕ
  sessionId : ℕ
  oldHash : String
  newHash : String
  deriving DecidableEq, Repr

/-- The tables, Redis and the requests in flight.  No step reads the last four fields: the hashes
of all tokens drawn so far, the tokens handed out, the rotations, and the password hash that the
login of a session has verified. -/
structure State where
  now : Millis := 0
  users : UserTable
  sessions : SessionTable := .empty
  used : Markers := fun _ => none
  resets : Markers := fun _ => none
  requests : ℕ → Option Work := fun _ => none
  answers : List (ℕ × Outcome) := []
  drawn : List String := []
  handed : List Handed := []
  exchanges : List Exchange := []
  origin : ℕ → Option String := fun _ => none

/-- Time passes; a reset token is issued; a request comes in; the lockout turns a login away; or
a request makes its next step, with the random text it draws there, if it draws one. -/
inductive Act
  | elapse (ms : ℕ)
  | issue (token : String) (marker : Marker)
  | request (id : ℕ) (work : Work)
  | refuse (id : ℕ)
  | go (id : ℕ) (raw : String)
  deriving DecidableEq, Repr

namespace State

variable (crypto : Crypto) (s : State) (id : ℕ)

def put (work : Work) : State :=
  { s with requests := Function.update s.requests id (some work) }

/-- A request ends with its outcome. -/
def finish (outcome : Outcome) : State :=
  { s with
    requests := Function.update s.requests id none
    answers := s.answers ++ [(id, outcome)] }

def draw (hash : String) : State := { s with drawn := s.drawn ++ [hash] }

/-- `redis.set(refresh_used:…)`. -/
def markUsed (hash : String) (sessionId : ℕ) : State :=
  { s with used := Function.update s.used hash (some ⟨sessionId, s.now + crypto.refreshTtlMs⟩) }

/-- The session of a new login, whose hash and expiry are computed just before. -/
def openSession (userId : ℕ) (verified : Option String) (raw : String) : State :=
  let hash := crypto.sha256hex raw
  let expiresAt := s.now + crypto.refreshTtlMs
  if (s.users.find? userId).isNone then s.finish id .failed
  else
    match s.sessions.create userId hash expiresAt with
    | none => s.finish id .failed
    | some sessions =>
        let sessionId := s.sessions.next
        { s with
          sessions
          drawn := s.drawn ++ [hash]
          handed := s.handed ++ [(⟨sessionId, hash, expiresAt⟩ : Handed)]
          origin := Function.update s.origin sessionId verified }.finish id (.tokens sessionId raw)

/-- The end of a revocation; without the row the update throws. -/
def revokeRow (sessionId : ℕ) (outcome thrown : Outcome) : State :=
  if (s.sessions.find? sessionId).isNone then s.finish id thrown
  else { s with sessions := s.sessions.revoke sessionId s.now }.finish id outcome

/-- One step of `refresh`. -/
def refresh (token raw : String) : Refreshing → State
  | .presented =>
      match s.sessions.findByRefreshHash (crypto.sha256hex token) with
      | none => s.put id (.refresh token .unknown)
      | some session => s.put id (.refresh token (.found session))
  | .unknown =>
      match s.used.get s.now (crypto.sha256hex token) with
      | none => s.finish id (.error .tokenNotFound)
      | some sessionId => s.put id (.refresh token (.reused sessionId))
  | .reused sessionId => s.revokeRow id sessionId (.error .tokenNotFound) .failed
  | .found session =>
      if session.revokedAt.isSome ∨ session.expiresAt < s.now then
        s.finish id (.error .sessionExpired)
      else s.put id (.refresh token (.live session))
  | .live session =>
      if (s.users.find? session.userId).isNone then s.finish id (.error .userNotFound)
      else
        (s.draw (crypto.sha256hex raw)).put id
          (.refresh token (.rotating session raw (s.now + crypto.refreshTtlMs)))
  | .rotating session newToken expiresAt =>
      let oldHash := crypto.sha256hex token
      let newHash := crypto.sha256hex newToken
      match s.sessions.rotate session.id oldHash newHash expiresAt with
      | none => s.finish id .failed
      | some (false, _) => s.finish id (.error .tokenNotFound)
      | some (true, sessions) =>
          { s with
            sessions
            handed := s.handed ++ [(⟨session.id, newHash, expiresAt⟩ : Handed)]
            exchanges := s.exchanges ++ [(⟨id, session.id, oldHash, newHash⟩ : Exchange)] }.put id
              (.refresh token (.rotated session newToken))
  | .rotated session newToken =>
      (s.markUsed crypto (crypto.sha256hex token) session.id).finish id
        (.tokens session.id newToken)

/-- `!user || !user.passwordHash || !passwordOk`, after a compare in every case. -/
def login (email password raw : String) : LoggingIn → State
  | .asked =>
      let user := s.users.findUniq? email
      let passwordHashToCheck := (user.bind User.passwordHash).getD crypto.dummyHash
      match user.filter fun u =>
          u.passwordHash.isSome ∧ crypto.verifyPassword password passwordHashToCheck with
      | none => s.finish id (.error .invalidCredentials)
      | some user => s.put id (.login email password (.verified user))
  | .verified user => s.openSession crypto id user.id user.passwordHash raw

/-- A session that is missing or revoked is left alone, and no error is shown. -/
def logout (sessionId : ℕ) : Revoking → State
  | .asked =>
      match (s.sessions.find? sessionId).filter fun session => session.revokedAt.isNone with
      | none => s.finish id .done
      | some session => s.put id (.logout sessionId (.found session.id))
  | .found sessionId => s.revokeRow id sessionId .done .done

def revokeSessionById (sessionId currentUserId : ℕ) : Revoking → State
  | .asked =>
      match (s.sessions.find? sessionId).filter fun session => session.userId = currentUserId with
      | none => s.finish id (.error .forbidden)
      | some session =>
          if session.revokedAt.isSome then s.finish id .done
          else s.put id (.revokeSessionById sessionId currentUserId (.found session.id))
  | .found sessionId => s.revokeRow id sessionId .done .failed

/-- One step of `confirmPasswordReset`; `raw` is the salt of the new hash. -/
def confirmPasswordReset (token password raw : String) : Resetting → State
  | .asked =>
      let grant := s.resets.get s.now token
      let s := { s with resets := Function.update s.resets token none }
      match grant with
      | none => s.finish id (.error .invalidResetToken)
      | some userId => s.put id (.confirmPasswordReset token password (.granted userId))
  | .granted userId =>
      match (s.users.find? userId).filter fun user => user.authProvider = .email with
      | none => s.finish id (.error .invalidResetToken)
      | some _ => s.put id (.confirmPasswordReset token password (.hashing userId))
  | .hashing userId =>
      match s.users.find? userId with
      | none => s.finish id .failed
      | some user =>
          { s with
            users := s.users.updatePassword userId (crypto.hashPassword password raw) }.put id
              (.confirmPasswordReset token password (.updated userId user.passwordHash))
  | .updated userId _ =>
      { s with sessions := s.sessions.revokeAllForUser userId s.now }.finish id .done

/-- The next step of a request. -/
def go (raw : String) : Work → State
  | .refresh token phase => s.refresh crypto id token raw phase
  | .login email password phase => s.login crypto id email password raw phase
  | .google userId => s.openSession crypto id userId none raw
  | .logout sessionId phase => s.logout id sessionId phase
  | .revokeSessionById sessionId userId phase => s.revokeSessionById id sessionId userId phase
  | .confirmPasswordReset token password phase =>
      s.confirmPasswordReset crypto id token password raw phase

/-- The lockout answers a login before it looks for the user. -/
def refuse : Work → Option State
  | .login _ _ .asked => some (s.finish id (.error .accountLocked))
  | _ => none

def step : Act → Option State
  | .elapse ms => some { s with now := s.now + ms }
  | .issue token marker =>
      some { s with resets := Function.update s.resets token (some marker) }
  | .request id work =>
      if work.isNew ∧ s.requests id = none ∧ id ∉ s.answers.map Prod.fst then some (s.put id work)
      else none
  | .refuse id => (s.requests id).bind (s.refuse id)
  | .go id raw => (s.requests id).map (s.go crypto id raw)

end State

/-- A step of the server. -/
def Steps (crypto : Crypto) (s : State) (act : Act) (s' : State) : Prop :=
  s.step crypto act = some s'

/-- The token a request draws was never drawn before. -/
def Fresh (crypto : Crypto) (s : State) : Act → Prop
  | .go _ raw => crypto.sha256hex raw ∉ s.drawn
  | _ => True

/-- No session yet, and nothing in flight. -/
def State.start (now : Millis) (users : UserTable) : State := { now, users }

end Neonfi.Sessions

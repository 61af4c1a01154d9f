import Neonfi.Ledger.Model

/-!
# Login and its lockout counters

`login` with the counters of `lockout.ts`.  A login is a process whose Redis commands are
steps of their own, so that any other login may run between two of them.  All logins here come
from one IP address; sessions and tokens, which come after the counters, are left out.
-/

namespace Neonfi.Auth

open Lib
open Ledger (Millis)

/-- `AUTH_LOGIN_MAX_ATTEMPTS`, `AUTH_LOGIN_IP_MAX_ATTEMPTS` and `AUTH_LOGIN_LOCKOUT_MS`. -/
structure Config where
  maxAttempts : ℕ := 5
  ipMaxAttempts : ℕ := 50
  lockoutMs : Millis := 900000
  one_le_maxAttempts : 1 ≤ maxAttempts := by decide
  one_le_ipMaxAttempts : 1 ≤ ipMaxAttempts := by decide
  one_second_le : 1000 ≤ lockoutMs := by decide

/-- An address as `LoginSchema` leaves it: with its `@`, in lower case. -/
abbrev Email := { s : String // '@' ∈ s.toList ∧ s.toLower = s }

structure LoginBody where
  email : Email
  password : String
  deriving DecidableEq

/-! ## Redis counters -/

/-- A counter and its expiry, if it has one. -/
structure Counter where
  count : ℕ
  expiresAt : Option Millis
  deriving DecidableEq, Repr

/-- The counters by key. -/
abbrev Redis := String → Option Counter

namespace Redis

variable (redis : Redis) (now : Millis) (key : String)

/-- The counter of a key unless it has expired. -/
def live : Option Counter := (redis key).filter fun c => c.expiresAt.all fun at? => now < at?

def get : Option ℕ := (redis.live now key).map Counter.count

/-- Milliseconds to live; `-1` without an expiry and `-2` without the key. -/
def pttl : Millis :=
  match redis.live now key with
  | none => -2
  | some c => (c.expiresAt.map fun at? => at? - now).getD (-1)

/-- An increment keeps the expiry and answers with the new count. -/
def incr : ℕ × Redis :=
  match redis.live now key with
  | none => (1, Function.update redis key (some ⟨1, none⟩))
  | some c => (c.count + 1, Function.update redis key (some { c with count := c.count + 1 }))

def pexpire (ms : Millis) : Redis :=
  match redis.live now key with
  | none => redis
  | some c => Function.update redis key (some { c with expiresAt := some (now + ms) })

def del : Redis := Function.update redis key none

end Redis

/-! ## Lockout subjects -/

def lockoutKey (subject : String) : String := "lockout:login:" ++ subject

def emailIpSubject (email : String) (ip : Option String) : String :=
  email.toLower ++ "|" ++ ip.getD "unknown"

def ipSubject (ip : Option String) : String := "ip|" ++ ip.getD "unknown"

/-- The two counters of a login: of the account from this IP, and of the IP. -/
inductive Dim
  | account
  | ip
  deriving DecidableEq, Repr

structure LockoutState where
  locked : Bool
  count : ℕ
  ttlMs : Millis
  deriving DecidableEq, Repr

/-! ## The phases of a login -/

/-- How far `getLockoutState` of one subject has come. -/
inductive Reading
  | asked
  | counted (count : ℕ)
  | done (state : LockoutState)
  deriving DecidableEq, Repr

/-- How far `recordFailedLogin` of one subject has come; the first failure sets the expiry. -/
inductive Recording
  | asked
  | first
  | done
  deriving DecidableEq, Repr

inductive Phase
  | checking (reading : Dim → Reading)
  | admitted
  | recording (recording : Dim → Recording)
  | clearing (cleared : Dim → Bool)

structure Login where
  id : ℕ
  body : LoginBody
  phase : Phase

inductive Answer
  | locked (retryAfterMs : Millis)
  | invalidCredentials
  | loggedIn
  deriving DecidableEq, Repr

/-- The logins in flight and what Redis holds.  No step reads `failures` and `sinceClear`, which
count failed verifications for the statements: all of them by account, and those by lockout key
since the key was last deleted. -/
structure State where
  redis : Redis := fun _ => none
  logins : Table Login ℕ Login.id := .empty
  answers : List (ℕ × Answer) := []
  failures : List Email := []
  sinceClear : String → ℕ := fun _ => 0

/-! ## Steps -/

/-- The stored password hashes: `none` is no user, `some none` a user without a password. -/
abbrev Users := String → Option (Option String)

inductive Act
  | start (id : ℕ) (body : LoginBody)
  | get (id : ℕ) (dim : Dim)
  | pttl (id : ℕ) (dim : Dim)
  | check (id : ℕ)
  | verify (id : ℕ) (users : Users)
  | incr (id : ℕ) (dim : Dim)
  | pexpire (id : ℕ) (dim : Dim)
  | reject (id : ℕ)
  | del (id : ℕ) (dim : Dim)
  | succeed (id : ℕ)

/-- What the steps of all logins share. -/
structure Server where
  config : Config
  ip : Option String
  verifyPassword : String → String → Bool
  dummyHash : String

namespace Server

variable (server : Server)

def key (body : LoginBody) : Dim → String
  | .account => lockoutKey (emailIpSubject body.email server.ip)
  | .ip => lockoutKey (ipSubject server.ip)

def limit : Dim → ℕ
  | .account => server.config.maxAttempts
  | .ip => server.config.ipMaxAttempts

/-- `!user || !user.passwordHash || !passwordOk`, after a compare in every case. -/
def verificationFails (users : Users) (body : LoginBody) : Bool :=
  let user := users body.email
  let passwordHashToCheck := (user.bind id).getD server.dummyHash
  let passwordOk := server.verifyPassword body.password passwordHashToCheck
  user.isNone || (user.bind id).isNone || !passwordOk

def lockoutState (dim : Dim) (count : ℕ) (ttlRaw : Millis) : LockoutState where
  locked := server.limit dim ≤ count
  count := count
  ttlMs := if 0 < ttlRaw then ttlRaw else 0

end Server

namespace State

variable (s : State)

def setPhase (login : Login) (phase : Phase) : State :=
  { s with logins := s.logins.set { login with phase } }

/-- A login ends with its answer. -/
def finish (login : Login) (answer : Answer) : State :=
  { s with
    logins := s.logins.filter fun l => l.id ≠ login.id
    answers := s.answers ++ [(login.id, answer)] }

/-- One more failed verification of an account. -/
def countFailure (server : Server) (body : LoginBody) : State :=
  { s with
    failures := s.failures ++ [body.email]
    sinceClear := fun key =>
      if ∃ dim ∈ [Dim.account, .ip], server.key body dim = key then s.sinceClear key + 1
      else s.sinceClear key }

end State

section Steps

variable (server : Server) (now : Millis) (s : State) (login : Login)

/-! The check of both counters. -/

def getCount (dim : Dim) : Option State :=
  match login.phase with
  | .checking reading =>
      if reading dim = .asked then
        let count := (s.redis.get now (server.key login.body dim)).getD 0
        some (s.setPhase login (.checking (Function.update reading dim (.counted count))))
      else none
  | _ => none

def getTtl (dim : Dim) : Option State :=
  match login.phase with
  | .checking reading =>
      match reading dim with
      | .counted count =>
          let ttlRaw := s.redis.pttl now (server.key login.body dim)
          some (s.setPhase login (.checking (Function.update reading dim
            (.done (server.lockoutState dim count ttlRaw)))))
      | _ => none
  | _ => none

def checkLockout : Option State :=
  match login.phase with
  | .checking reading =>
      match reading .account, reading .ip with
      | .done emailLockout, .done ipLockout =>
          if emailLockout.locked || ipLockout.locked then
            some (s.finish login (.locked (max emailLockout.ttlMs ipLockout.ttlMs)))
          else some (s.setPhase login .admitted)
      | _, _ => none
  | _ => none

/-! The verification. -/

def verify (users : Users) : Option State :=
  match login.phase with
  | .admitted =>
      if server.verificationFails users login.body then
        some ((s.countFailure server login.body).setPhase login (.recording fun _ => .asked))
      else some (s.setPhase login (.clearing fun _ => false))
  | _ => none

/-! Recording a failure. -/

def incrCount (dim : Dim) : Option State :=
  match login.phase with
  | .recording recording =>
      if recording dim = .asked then
        let incremented := s.redis.incr now (server.key login.body dim)
        some ({ s with redis := incremented.2 }.setPhase login (.recording
          (Function.update recording dim (if incremented.1 = 1 then .first else .done))))
      else none
  | _ => none

def setExpiry (dim : Dim) : Option State :=
  match login.phase with
  | .recording recording =>
      if recording dim = .first then
        let redis := s.redis.pexpire now (server.key login.body dim) server.config.lockoutMs
        some ({ s with redis }.setPhase login
          (.recording (Function.update recording dim .done)))
      else none
  | _ => none

def reject : Option State :=
  match login.phase with
  | .recording recording =>
      if recording .account = .done ∧ recording .ip = .done then
        some (s.finish login .invalidCredentials)
      else none
  | _ => none

/-! Clearing after a success. -/

def clearCount (dim : Dim) : Option State :=
  match login.phase with
  | .clearing cleared =>
      if cleared dim then none
      else
        let key := server.key login.body dim
        some ({ s with
          redis := s.redis.del key
          sinceClear := Function.update s.sinceClear key 0 }.setPhase login
            (.clearing (Function.update cleared dim true)))
  | _ => none

def succeed : Option State :=
  match login.phase with
  | .clearing cleared =>
      if cleared .account && cleared .ip then some (s.finish login .loggedIn) else none
  | _ => none

def stepLogin : Act → Option State
  | .start _ _ => none
  | .get _ dim => getCount server now s login dim
  | .pttl _ dim => getTtl server now s login dim
  | .check _ => checkLockout s login
  | .verify _ users => verify server s login users
  | .incr _ dim => incrCount server now s login dim
  | .pexpire _ dim => setExpiry server now s login dim
  | .reject _ => reject s login
  | .del _ dim => clearCount server s login dim
  | .succeed _ => succeed s login

def Act.loginId : Act → ℕ
  | .start id _ | .get id _ | .pttl id _ | .check id | .verify id _ | .incr id _
  | .pexpire id _ | .reject id | .del id _ | .succeed id => id

def start (id : ℕ) (body : LoginBody) : Option State :=
  (s.logins.insert? ⟨id, body, .checking fun _ => .asked⟩).map fun logins => { s with logins }

/-- A login starts with both readings asked for, or one in flight goes on. -/
def step : Act → Option State
  | .start id body => start s id body
  | act => (s.logins.find? act.loginId).bind fun login => stepLogin server now s login act

end Steps

end Neonfi.Auth

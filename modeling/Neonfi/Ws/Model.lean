import Neonfi.Billing.Model
import Neonfi.Sessions.Model
import Neonfi.Lib.Run

/-!
# Live-price sockets

The upgrade listener and the `user_events` listener of `ws/server.ts`, with the registry of
`ws/registry.ts`.  What runs between two answers of the database or of Redis is one step.
-/

namespace Neonfi.Ws

open Lib
open Ledger (Millis Plan)
open Billing (Subscription SubscriptionTable)
open Sessions (Session SessionTable)

/-! ## Plans -/

def isSubscriptionEffectivelyActive (sub : Subscription) (now : Millis) : Bool :=
  sub.status = .active ∨ sub.status = .cancelled ∧ sub.currentPeriod.any fun p => now < p.finish

/-- `getEffectivePlan` on the row it has read, at the time of the answer. -/
def effectivePlan (subscription : Option Subscription) (now : Millis) : Plan :=
  match subscription with
  | none => .free
  | some sub => if isSubscriptionEffectivelyActive sub now then sub.plan else .free

/-! ## Requests and messages -/

/-- What `parseInt` reads in the two halves of a `ws_ticket` value. -/
structure Ticket where
  userId : Option ℕ
  sessionId : Option ℕ
  deriving DecidableEq, Repr

/-- The path and the `token` parameter of an upgrade request. -/
structure UpgradeRequest where
  path : String
  token : Option String
  deriving DecidableEq, Repr

/-- A parsed message of the channel `user_events`. -/
structure UserEvent where
  type : String
  userId : ℕ
  deriving DecidableEq, Repr

/-- How far an upgrade has come: before its ticket; the ticket is taken; its session is read;
the session is live; the subscription is read. -/
inductive Authorizing
  | asked
  | granted (userId sessionId : ℕ)
  | found (userId sessionId : ℕ) (session : Option Session)
  | live (userId sessionId : ℕ)
  | loaded (userId sessionId : ℕ) (subscription : Option Subscription)
  deriving DecidableEq, Repr

inductive Handling
  | received
  | loaded (subscription : Option Subscription)
  deriving DecidableEq, Repr

/-- An upgrade, or a message; `none` is one that `JSON.parse` refuses. -/
inductive Work
  | upgrade (req : UpgradeRequest) (phase : Authorizing)
  | userEvent (evt : Option UserEvent) (phase : Handling)
  deriving DecidableEq, Repr

def Work.isNew : Work → Bool
  | .upgrade _ phase => phase = .asked
  | .userEvent _ phase => phase = .received

inductive Answer
  | ignored
  | refused (status : ℕ) (statusText : String)
  | connected (socketId : ℕ)
  | handled
  deriving DecidableEq, Repr

def unauthorized : Answer := .refused 401 "Unauthorized"

def forbidden : Answer := .refused 403 "Forbidden"

/-! ## Sockets -/

/-- `readyState`. -/
inductive ReadyState
  | opened
  | closing
  | closed
  deriving DecidableEq, Repr

/-- What the server writes to a socket. -/
inductive Sent
  | message (socketId : ℕ) (type text : String)
  | close (socketId : ℕ) (code : ℕ) (reason : String)
  deriving DecidableEq, Repr

/-- `wsBySocketId` and `socketsByUser`; `randomUUID` draws the numbers in turn. -/
structure Registry where
  wsBySocketId : ℕ → Option ReadyState := fun _ => none
  socketsByUser : ℕ → List ℕ := fun _ => []
  nextSocketId : ℕ := 0

namespace Registry

variable (reg : Registry)

def registerSocket (userId : ℕ) : Registry where
  wsBySocketId := Function.update reg.wsBySocketId reg.nextSocketId (some .opened)
  socketsByUser := Function.update reg.socketsByUser userId
    (reg.nextSocketId :: reg.socketsByUser userId)
  nextSocketId := reg.nextSocketId + 1

/-- The listener of the `close` event holds the user of its socket. -/
def unregisterSocket (socketId userId : ℕ) : Registry :=
  { reg with
    wsBySocketId := Function.update reg.wsBySocketId socketId none
    socketsByUser := Function.update reg.socketsByUser userId
      ((reg.socketsByUser userId).filter (· ≠ socketId)) }

def setReadyState (socketId : ℕ) (readyState : ReadyState) : Registry :=
  { reg with
    wsBySocketId := fun sid =>
      if sid = socketId then (reg.wsBySocketId sid).map fun _ => readyState
      else reg.wsBySocketId sid }

/-- One round of the loop of `handleUserEvent`. -/
def downgrade (socketId : ℕ) : Registry :=
  if reg.wsBySocketId socketId = some .opened then reg.setReadyState socketId .closing else reg

/-- The frames of one round. -/
def downgradeFrames (socketId : ℕ) : List Sent :=
  if reg.wsBySocketId socketId = some .opened then
    [.message socketId "plan_downgraded" "Your Pro subscription has expired",
      .close socketId 4003 "Plan downgraded"]
  else []

/-- A socket of the user that gets the prices. -/
def Live (userId socketId : ℕ) : Prop :=
  socketId ∈ reg.socketsByUser userId ∧ reg.wsBySocketId socketId = some .opened

instance (userId socketId : ℕ) : Decidable (reg.Live userId socketId) :=
  inferInstanceAs (Decidable (_ ∧ _))

end Registry

/-! ## The server -/

/-- The tables and tickets, the registry, and what is in flight.  No step reads `settled`: the
users for whom a `plan_changed` was handled on a free plan that has stayed free since. -/
structure State where
  now : Millis := 0
  subscriptions : SubscriptionTable := .empty
  sessions : SessionTable := .empty
  tickets : String → Option Ticket := fun _ => none
  requests : ℕ → Option Work := fun _ => none
  registry : Registry := {}
  answers : List (ℕ × Answer) := []
  sent : List Sent := []
  settled : List ℕ := []

/-- Time passes; other requests write the tables, or issue a ticket, or it expires; an upgrade or
a message comes in, makes its next step, or is given up, as its client is gone or a read has
failed; a client hangs up; the `close` event of a socket fires. -/
inductive Act
  | elapse (ms : ℕ)
  | write (subscriptions : SubscriptionTable) (sessions : SessionTable)
  | issue (token : String) (ticket : Ticket)
  | expire (token : String)
  | request (id : ℕ) (work : Work)
  | go (id : ℕ)
  | drop (id : ℕ)
  | hangUp (socketId : ℕ)
  | close (socketId userId : ℕ)

namespace State

variable (s : State) (id : ℕ)

/-- The plan of a user in this state. -/
def plan (userId : ℕ) : Plan := effectivePlan (s.subscriptions.findUniq? userId) s.now

/-- Who has a paid plan again is no longer settled. -/
def prune : State := { s with settled := s.settled.filter fun userId => s.plan userId = .free }

def put (work : Work) : State :=
  { s with requests := Function.update s.requests id (some work) }

def finish (answer : Answer) : State :=
  { s with
    requests := Function.update s.requests id none
    answers := s.answers ++ [(id, answer)] }

/-- `redis.getdel`, and the numbers of the ticket. -/
def takeTicket (req : UpgradeRequest) (token : String) : State :=
  let value := s.tickets token
  let s := { s with tickets := Function.update s.tickets token none }
  match value with
  | none => s.finish id unauthorized
  | some ticket =>
      match ticket.userId.filter (· ≠ 0), ticket.sessionId.filter (· ≠ 0) with
      | some userId, some sessionId => s.put id (.upgrade req (.granted userId sessionId))
      | _, _ => s.finish id unauthorized

/-- `handleUpgrade` with `handleConnection`, which it calls back at once. -/
def handleConnection (userId : ℕ) : State :=
  { s with registry := s.registry.registerSocket userId }.finish id
    (.connected s.registry.nextSocketId)

/-- One step of an upgrade: `authorizeUpgrade`, and the listener on its result. -/
def upgrade (req : UpgradeRequest) : Authorizing → State
  | .asked =>
      if req.path ≠ "/ws" then s.finish id .ignored
      else
        match req.token.filter (· ≠ "") with
        | none => s.finish id unauthorized
        | some token => s.takeTicket id req token
  | .granted userId sessionId =>
      s.put id (.upgrade req (.found userId sessionId (s.sessions.find? sessionId)))
  | .found userId sessionId session =>
      if session.any fun session => session.revokedAt = none ∧ s.now ≤ session.expiresAt then
        s.put id (.upgrade req (.live userId sessionId))
      else s.finish id unauthorized
  | .live userId sessionId =>
      s.put id (.upgrade req (.loaded userId sessionId (s.subscriptions.findUniq? userId)))
  | .loaded userId _ subscription =>
      if effectivePlan subscription s.now = .free then s.finish id forbidden
      else s.handleConnection id userId

/-- The loop of `handleUserEvent` over the sockets of the user. -/
def downgradeSockets (userId : ℕ) : State :=
  (s.registry.socketsByUser userId).foldl
    (fun s sid =>
      { s with
        registry := s.registry.downgrade sid
        sent := s.sent ++ s.registry.downgradeFrames sid }) s

/-- The end of a `plan_changed` message. -/
def planChanged (userId : ℕ) (subscription : Option Subscription) : State :=
  if effectivePlan subscription s.now = .free then
    let s := s.downgradeSockets userId
    ({ s with settled := userId :: s.settled }.prune).finish id .handled
  else s.finish id .handled

/-- One step of `handleUserEvent`. -/
def handleUserEvent (evt : Option UserEvent) : Handling → State
  | .received =>
      match evt.filter fun evt => evt.type = "plan_changed" with
      | none => s.finish id .ignored
      | some evt =>
          s.put id (.userEvent (some evt) (.loaded (s.subscriptions.findUniq? evt.userId)))
  | .loaded subscription =>
      match evt with
      | none => s.finish id .ignored
      | some evt => s.planChanged id evt.userId subscription

def go : Work → State
  | .upgrade req phase => s.upgrade id req phase
  | .userEvent evt phase => s.handleUserEvent id evt phase

def step : Act → Option State
  | .elapse ms => some { s with now := s.now + ms }.prune
  | .write subscriptions sessions => some { s with subscriptions, sessions }.prune
  | .issue token ticket =>
      some { s with tickets := Function.update s.tickets token (some ticket) }
  | .expire token => some { s with tickets := Function.update s.tickets token none }
  | .request id work =>
      if work.isNew ∧ s.requests id = none then some (s.put id work) else none
  | .go id => (s.requests id).map (s.go id)
  | .drop id => some { s with requests := Function.update s.requests id none }
  | .hangUp socketId =>
      some { s with registry := s.registry.setReadyState socketId .closing }
  | .close socketId userId =>
      if socketId ∈ s.registry.socketsByUser userId then
        some { s with registry := s.registry.unregisterSocket socketId userId }
      else none

end State

/-- A step of the server. -/
def Steps (s : State) (act : Act) (s' : State) : Prop := s.step act = some s'

/-- Nothing is in flight and no socket is registered. -/
def State.start (now : Millis) (subscriptions : SubscriptionTable) (sessions : SessionTable) :
    State :=
  { now, subscriptions, sessions }

end Neonfi.Ws

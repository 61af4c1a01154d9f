import Neonfi.Lib.Custody
import Neonfi.Ws.Firehose

/-!
# One ticket, one socket

The step that reads a `ws_ticket` deletes it, so from there to its socket an upgrade holds the
ticket alone, whatever runs in between.
-/

namespace Neonfi.Ws

open Lib
open Ledger (Millis)
open Billing (SubscriptionTable)
open Sessions (SessionTable)

/-- The ticket and the user of an upgrade that has taken its ticket. -/
def Work.holds : Work → Option (String × ℕ)
  | .upgrade req (.granted userId _) => req.token.map fun token => (token, userId)
  | .upgrade req (.found userId _ _) => req.token.map fun token => (token, userId)
  | .upgrade req (.live userId _) => req.token.map fun token => (token, userId)
  | .upgrade req (.loaded userId _ _) => req.token.map fun token => (token, userId)
  | _ => none

/-- The ticket and the user of the upgrade for which a step registers a socket. -/
def State.admitted? (s : State) : Work → Option (String × ℕ)
  | .upgrade req (.loaded userId _ subscription) =>
      if effectivePlan subscription s.now = .free then none
      else req.token.map fun token => (token, userId)
  | _ => none

def State.admits (s : State) : Act → Option (String × ℕ)
  | .go id => (s.requests id).bind s.admitted?
  | _ => none

/-- The server with a record of the tickets issued and, in the order of the sockets, of those that
were admitted. -/
structure Visit where
  server : State
  issued : List (String × Option ℕ) := []
  admitted : List (String × ℕ) := []

def issuedBy : Act → List (String × Option ℕ)
  | .issue token ticket => [(token, ticket.userId)]
  | _ => []

def Visit.step (v : Visit) (act : Act) : Option Visit :=
  (v.server.step act).map fun server =>
    { server
      issued := issuedBy act ++ v.issued
      admitted := v.admitted ++ (v.server.admits act).toList }

def VisitSteps (v : Visit) (act : Act) (v' : Visit) : Prop := v.step act = some v'

/-- The value of a ticket is random: no ticket is issued twice. -/
def Visit.Fresh (v : Visit) (act : Act) : Prop :=
  ∀ token ticket, act = .issue token ticket → ∀ user, (token, user) ∉ v.issued

/-- Who may hold a ticket. -/
inductive Holder
  | store
  | request (id : ℕ)
  | socket (sid : ℕ)
  deriving DecidableEq

def Visit.Holds (v : Visit) (token : String) (user : Option ℕ) : Holder → Prop
  | .store => (v.server.tickets token).map Ticket.userId = some user
  | .request id => ∃ u, user = some u ∧ (v.server.requests id).bind Work.holds = some (token, u)
  | .socket sid => ∃ u, user = some u ∧ v.admitted[sid]? = some (token, u)

/-- An upgrade that has taken a ticket names it. -/
def Work.Named : Work → Prop
  | .upgrade req phase => phase ≠ .asked → req.token.isSome
  | .userEvent _ _ => True

/-- The sockets were admitted in turn, each for the user it is registered for. -/
structure Admitted (v : Visit) : Prop where
  kept : Kept v.issued v.Holds
  length : v.admitted.length = v.server.registry.nextSocketId
  owner : ∀ u, ∀ sid ∈ v.server.registry.socketsByUser u,
    ∃ token, v.admitted[sid]? = some (token, u)
  named : ∀ id work, v.server.requests id = some work → work.Named

section

variable {v v' : Visit} {act : Act} {acts : List Act} {server : State} {id : ℕ}

/-- A step that neither issues nor admits, and keeps what an upgrade holds. -/
theorem Admitted.of_frame (h : Admitted v)
    (htickets : ∀ token ticket, server.tickets token = some ticket →
      v.server.tickets token = some ticket)
    (hrequests : ∀ id work, server.requests id = some work →
      work.holds = none ∧ work.Named ∨
        ∃ old, v.server.requests id = some old ∧ work.holds = old.holds ∧
          (old.Named → work.Named))
    (hby : ∀ u, ∀ sid ∈ server.registry.socketsByUser u,
      sid ∈ v.server.registry.socketsByUser u)
    (hnext : server.registry.nextSocketId = v.server.registry.nextSocketId) :
    Admitted { v with server } where
  kept := by
    refine h.kept.sub fun token user x hx => ?_
    cases x with
    | store =>
        obtain ⟨ticket, hticket, huser⟩ := Option.map_eq_some_iff.mp hx
        exact Option.map_eq_some_iff.mpr ⟨ticket, htickets token ticket hticket, huser⟩
    | request id =>
        obtain ⟨u, huser, hholds⟩ := hx
        obtain ⟨work, hwork, hheld⟩ := Option.bind_eq_some_iff.mp hholds
        rcases hrequests id work hwork with ⟨hnone, -⟩ | ⟨old, hold, hsame, -⟩
        · rw [hnone] at hheld
          cases hheld
        · exact ⟨u, huser, Option.bind_eq_some_iff.mpr ⟨old, hold, hsame ▸ hheld⟩⟩
    | socket sid => exact hx
  length := h.length.trans hnext.symm
  owner := fun u sid hsid => h.owner u sid (hby u sid hsid)
  named := by
    intro id work hid
    rcases hrequests id work hid with ⟨-, hnamed⟩ | ⟨old, hold, -, hnamed⟩
    · exact hnamed
    · exact hnamed (h.named id old hold)

theorem tickets_forgotten {tickets : String → Option Ticket} {token token' : String}
    {ticket : Ticket} (h : Function.update tickets token none token' = some ticket) :
    tickets token' = some ticket := by
  by_cases hsame : token' = token
  · rw [hsame, Function.update_self] at h
    cases h
  · rwa [Function.update_of_ne hsame] at h

theorem Admitted.put (h : Admitted v) {work : Work}
    (hwork : work.holds = none ∧ work.Named ∨
      ∃ old, v.server.requests id = some old ∧ work.holds = old.holds ∧
        (old.Named → work.Named)) : Admitted { v with server := v.server.put id work } := by
  refine h.of_frame (fun _ _ hticket => hticket) ?_ (fun _ _ hsid => hsid) rfl
  intro id' work' hid'
  change Function.update v.server.requests id (some work) id' = _ at hid'
  by_cases hid : id' = id
  · subst hid
    rw [Function.update_self] at hid'
    cases hid'
    exact hwork
  · rw [Function.update_of_ne hid] at hid'
    exact .inr ⟨work', hid', rfl, fun hnamed => hnamed⟩

/-- The requests that are left when one of them ends. -/
theorem requests_ended {requests : ℕ → Option Work} {id' : ℕ} {work : Work}
    (hid' : Function.update requests id none id' = some work) :
    id' ≠ id ∧ requests id' = some work := by
  by_cases hid : id' = id
  · subst hid
    rw [Function.update_self] at hid'
    cases hid'
  · rw [Function.update_of_ne hid] at hid'
    exact ⟨hid, hid'⟩

theorem Admitted.ended (h : Admitted v) (htickets : server.tickets = v.server.tickets)
    (hrequests : server.requests = Function.update v.server.requests id none)
    (hregistry : server.registry = v.server.registry) : Admitted { v with server } := by
  refine h.of_frame ?_ ?_ ?_ ?_
  · rw [htickets]
    exact fun _ _ hticket => hticket
  · rw [hrequests]
    intro id' work hid'
    exact .inr ⟨work, (requests_ended hid').2, rfl, fun hnamed => hnamed⟩
  · rw [hregistry]
    exact fun _ _ hsid => hsid
  · rw [hregistry]

/-- The step that reads a ticket deletes it: the upgrade holds it from now on. -/
theorem Admitted.takeTicket (h : Admitted v) {req : UpgradeRequest} {token : String}
    (hid : v.server.requests id = some (.upgrade req .asked))
    (htoken : req.token = some token) :
    Admitted { v with server := v.server.takeTicket id req token } := by
  have hforget : Admitted
      { v with server :=
          { v.server with tickets := Function.update v.server.tickets token none } } := by
    exact h.of_frame (fun _ _ hticket => tickets_forgotten hticket)
      (fun id work hid => .inr ⟨work, hid, rfl, fun hn => hn⟩) (fun _ _ hsid => hsid) rfl
  unfold State.takeTicket
  dsimp only
  split
  · exact hforget.ended rfl rfl rfl
  · next ticket hvalue =>
      split
      · next userId sessionId huser hsession =>
          have hname : ticket.userId = some userId := (Option.filter_eq_some_iff.mp huser).1
          refine ⟨@Kept.pass _ _ _ _ _ _ h.kept token .store (.request id) ?_, h.length, h.owner, ?_⟩
          · intro token' user x hx
            cases x with
            | store =>
                right
                obtain ⟨ticket', hticket, huser'⟩ := Option.map_eq_some_iff.mp hx
                change Function.update v.server.tickets token none token' = _ at hticket
                by_cases hsame : token' = token
                · rw [hsame, Function.update_self] at hticket
                  cases hticket
                · rw [Function.update_of_ne hsame] at hticket
                  exact ⟨Option.map_eq_some_iff.mpr ⟨ticket', hticket, huser'⟩,
                    fun hboth => hsame hboth.1⟩
            | request id' =>
                obtain ⟨u, huser', hholds⟩ := hx
                change (Function.update v.server.requests id _ id').bind Work.holds = _ at hholds
                by_cases hsame : id' = id
                · subst hsame
                  rw [Function.update_self, Option.bind_some, Work.holds, htoken] at hholds
                  cases hholds
                  left
                  refine ⟨rfl, rfl, Option.map_eq_some_iff.mpr ⟨ticket, hvalue, ?_⟩⟩
                  rw [hname, huser']
                · rw [Function.update_of_ne hsame] at hholds
                  exact .inr ⟨⟨u, huser', hholds⟩, fun hboth => nomatch hboth.2⟩
            | socket sid => exact .inr ⟨hx, fun hboth => nomatch hboth.2⟩
          · intro id' work hid'
            change Function.update v.server.requests id _ id' = _ at hid'
            by_cases hsame : id' = id
            · subst hsame
              rw [Function.update_self] at hid'
              cases hid'
              intro _
              rw [htoken]
              rfl
            · rw [Function.update_of_ne hsame] at hid'
              exact h.named id' work hid'
      · exact hforget.ended rfl rfl rfl

/-- An upgrade that passes the plan check hands its ticket on to its socket. -/
theorem Admitted.handleConnection (h : Admitted v) {req : UpgradeRequest} {userId sessionId : ℕ}
    {subscription : Option Billing.Subscription} {token : String}
    (hid : v.server.requests id = some (.upgrade req (.loaded userId sessionId subscription)))
    (htoken : req.token = some token) :
    Admitted
      { v with
        server := v.server.handleConnection id userId
        admitted := v.admitted ++ [(token, userId)] } := by
  have hheld : v.Holds token (some userId) (.request id) := by
    refine ⟨userId, rfl, Option.bind_eq_some_iff.mpr ⟨_, hid, ?_⟩⟩
    rw [Work.holds, htoken]
    rfl
  refine ⟨@Kept.pass _ _ _ _ _ _ h.kept token (.request id)
    (.socket v.server.registry.nextSocketId) ?_, ?_, ?_, ?_⟩
  · intro token' user x hx
    cases x with
    | store => exact .inr ⟨hx, fun hboth => nomatch hboth.2⟩
    | request id' =>
        obtain ⟨u, huser, hholds⟩ := hx
        obtain ⟨work, hwork, hholds⟩ := Option.bind_eq_some_iff.mp hholds
        obtain ⟨hne, hwork⟩ := requests_ended hwork
        refine .inr ⟨⟨u, huser, Option.bind_eq_some_iff.mpr ⟨work, hwork, hholds⟩⟩, ?_⟩
        rintro ⟨-, hsame⟩
        cases hsame
        exact hne rfl
    | socket sid =>
        obtain ⟨u, huser, hadmitted⟩ := hx
        by_cases hsid : sid = v.server.registry.nextSocketId
        · rw [hsid, ← h.length, List.getElem?_concat_length] at hadmitted
          cases hadmitted
          exact .inl ⟨rfl, by rw [hsid], huser ▸ hheld⟩
        · have hlt := List.getElem?_eq_some_iff.mp hadmitted |>.1
          rw [List.length_append, List.length_singleton, h.length] at hlt
          rw [List.getElem?_append_left (by rw [h.length]; omega)] at hadmitted
          exact .inr ⟨⟨u, huser, hadmitted⟩, fun hboth => nomatch hboth.2⟩
  · rw [List.length_append, h.length]
    rfl
  · intro u sid hsid
    rcases mem_registerSocket.mp hsid with ⟨rfl, rfl⟩ | hsid
    · exact ⟨token, by rw [← h.length, List.getElem?_concat_length]⟩
    · obtain ⟨token', hadmitted⟩ := h.owner u sid hsid
      have hlt := List.getElem?_eq_some_iff.mp hadmitted |>.1
      exact ⟨token', by rw [List.getElem?_append_left hlt, hadmitted]⟩
  · exact fun id' work hid' => h.named id' work (requests_ended hid').2

theorem Admitted.finish (h : Admitted v) (answer : Answer) :
    Admitted { v with server := v.server.finish id answer } :=
  h.ended rfl rfl rfl

/-- The next phase of an upgrade that holds a ticket. -/
theorem Admitted.goOn (h : Admitted v) {old work : Work} (hid : v.server.requests id = some old)
    (hholds : work.holds = old.holds) (hnamed : old.Named → work.Named) :
    Admitted { v with server := v.server.put id work } :=
  h.put (.inr ⟨old, hid, hholds, hnamed⟩)

theorem Admitted.upgrade (h : Admitted v) {req : UpgradeRequest} {phase : Authorizing}
    (hid : v.server.requests id = some (.upgrade req phase)) :
    Admitted
      { v with
        server := v.server.upgrade id req phase
        admitted := v.admitted ++ (v.server.admitted? (.upgrade req phase)).toList } := by
  have hnamed := h.named id _ hid
  unfold State.upgrade State.admitted?
  cases phase with
  | asked =>
      dsimp only
      rw [Option.toList_none, List.append_nil]
      split
      · exact h.finish _
      · split
        · exact h.finish _
        · next token htoken => exact h.takeTicket hid (Option.filter_eq_some_iff.mp htoken).1
  | granted userId sessionId =>
      dsimp only
      rw [Option.toList_none, List.append_nil]
      exact h.goOn hid rfl fun hn _ => hn (by rintro ⟨⟩)
  | live userId sessionId =>
      dsimp only
      rw [Option.toList_none, List.append_nil]
      exact h.goOn hid rfl fun hn _ => hn (by rintro ⟨⟩)
  | found userId sessionId session =>
      dsimp only
      rw [Option.toList_none, List.append_nil]
      split
      · exact h.goOn hid rfl fun hn _ => hn (by rintro ⟨⟩)
      · exact h.finish _
  | loaded userId sessionId subscription =>
      obtain ⟨token, htoken⟩ := Option.isSome_iff_exists.mp (hnamed (by rintro ⟨⟩))
      dsimp only
      split
      · rw [Option.toList_none, List.append_nil]
        exact h.finish _
      · rw [htoken]
        exact h.handleConnection hid htoken

theorem tickets_downgradeSockets {s : State} {userId : ℕ} :
    (s.downgradeSockets userId).tickets = s.tickets := by
  unfold State.downgradeSockets
  generalize s.registry.socketsByUser userId = sids
  induction sids generalizing s with
  | nil => rfl
  | cons x sids ih => exact ih

theorem Admitted.go (h : Admitted v) {work : Work} (hid : v.server.requests id = some work) :
    Admitted
      { v with
        server := v.server.go id work
        admitted := v.admitted ++ (v.server.admitted? work).toList } := by
  cases work with
  | upgrade req phase => exact h.upgrade hid
  | userEvent evt phase =>
      change Admitted { v with server := _, admitted := v.admitted ++ [] }
      rw [List.append_nil]
      unfold State.go State.handleUserEvent
      cases phase with
      | received =>
          dsimp only
          split
          · exact h.finish _
          · exact h.put (.inl ⟨rfl, trivial⟩)
      | loaded subscription =>
          cases evt with
          | none => exact h.finish _
          | some evt =>
              unfold State.planChanged
              dsimp only
              split
              · have hdown := downgraded_downgradeSockets v.server evt.userId
                refine h.of_frame ?_ ?_ ?_ hdown.nextSocketId
                · intro token ticket hticket
                  rwa [← tickets_downgradeSockets]
                · intro id' work hid'
                  have hleft := (requests_ended hid').2
                  exact .inr ⟨work, hdown.requests ▸ hleft, rfl, fun hn => hn⟩
                · intro u sid hsid
                  rwa [← hdown.socketsByUser]
              · exact h.finish _

theorem Admitted.issue (h : Admitted v) {token : String} {ticket : Ticket}
    (hfresh : ∀ user, (token, user) ∉ v.issued) :
    Admitted
      { v with
        server :=
          { v.server with tickets := Function.update v.server.tickets token (some ticket) }
        issued := (token, ticket.userId) :: v.issued } where
  kept := by
    refine @Kept.issue _ _ _ _ _ _ h.kept token ticket.userId .store hfresh fun token' user x hx => ?_
    cases x with
    | store =>
        obtain ⟨ticket', hticket, huser⟩ := Option.map_eq_some_iff.mp hx
        change Function.update v.server.tickets token (some ticket) token' = _ at hticket
        by_cases hsame : token' = token
        · subst hsame
          rw [Function.update_self] at hticket
          cases hticket
          exact .inl ⟨rfl, huser.symm, rfl⟩
        · rw [Function.update_of_ne hsame] at hticket
          exact .inr (Option.map_eq_some_iff.mpr ⟨ticket', hticket, huser⟩)
    | request id => exact .inr hx
    | socket sid => exact .inr hx
  length := h.length
  owner := h.owner
  named := h.named

/-- A step that admits nobody. -/
theorem admitted_of_none {issued : List (String × Option ℕ)} (hnone : v.server.admits act = none)
    (h : Admitted { v with server, issued }) :
    Admitted { server, issued, admitted := v.admitted ++ (v.server.admits act).toList } := by
  rw [hnone, Option.toList_none, List.append_nil]
  exact h

theorem Admitted.step (h : Admitted v) (hstep : VisitSteps v act v') (hfresh : v.Fresh act) :
    Admitted v' := by
  have hrequests : ∀ id work, v.server.requests id = some work →
      work.holds = none ∧ work.Named ∨
        ∃ old, v.server.requests id = some old ∧ work.holds = old.holds ∧
          (old.Named → work.Named) := fun _ work hid => .inr ⟨work, hid, rfl, fun hn => hn⟩
  obtain ⟨server, hserver, rfl⟩ := Option.map_eq_some_iff.mp hstep
  unfold State.step at hserver
  cases act with
  | go id =>
      obtain ⟨work, hid, rfl⟩ := Option.map_eq_some_iff.mp hserver
      have hgo := h.go hid
      rwa [← Option.bind_some work v.server.admitted?, ← hid] at hgo
  | issue token ticket =>
      cases hserver
      exact admitted_of_none rfl (h.issue (hfresh token ticket rfl))
  | elapse | write =>
      cases hserver
      exact admitted_of_none rfl
        (h.of_frame (fun _ _ hticket => hticket) hrequests (fun _ _ hsid => hsid) rfl)
  | expire token =>
      cases hserver
      refine admitted_of_none rfl (h.of_frame ?_ hrequests (fun _ _ hsid => hsid) rfl)
      exact fun token' ticket => tickets_forgotten
  | request id work =>
      dsimp only at hserver
      split at hserver
      · next hnew =>
          cases hserver
          refine admitted_of_none rfl (h.put (.inl ?_))
          cases work with
          | upgrade req phase =>
              obtain rfl := of_decide_eq_true hnew.1
              exact ⟨rfl, fun hphase => absurd rfl hphase⟩
          | userEvent evt phase => exact ⟨rfl, trivial⟩
      · cases hserver
  | drop id =>
      cases hserver
      exact admitted_of_none rfl (h.ended rfl rfl rfl)
  | hangUp socketId =>
      cases hserver
      exact admitted_of_none rfl
        (h.of_frame (fun _ _ hticket => hticket) hrequests (fun _ _ hsid => hsid) rfl)
  | close socketId userId =>
      dsimp only at hserver
      split at hserver
      · cases hserver
        exact admitted_of_none rfl (h.of_frame (fun _ _ hticket => hticket) hrequests
          (fun _ _ hsid => (mem_unregisterSocket.mp hsid).1) rfl)
      · cases hserver

theorem admitted_start (now : Millis) (subscriptions : SubscriptionTable)
    (sessions : SessionTable) : Admitted { server := .start now subscriptions sessions } where
  kept := by
    refine .none fun token user x hx => ?_
    cases x with
    | store => cases hx
    | request id =>
        obtain ⟨_, -, hholds⟩ := hx
        cases hholds
    | socket sid =>
        obtain ⟨_, -, hadmitted⟩ := hx
        cases hadmitted
  length := rfl
  owner := fun _ _ hmem => absurd hmem List.not_mem_nil
  named := fun _ _ hid => absurd hid (by rintro ⟨⟩)

/-- In every run in which no ticket is issued twice, a socket that is registered for a user was
opened with a ticket of its own that was issued to this user: no other socket was opened with it,
no upgrade holds it, and it cannot be presented again. -/
theorem ticket_admits_once {now : Millis} {subscriptions : SubscriptionTable}
    {sessions : SessionTable}
    (hrun : Run (Guarded VisitSteps Visit.Fresh) { server := .start now subscriptions sessions }
      acts v) {userId sid : ℕ} (hsid : sid ∈ v.server.registry.socketsByUser userId) :
    ∃ token, v.admitted[sid]? = some (token, userId) ∧ (token, some userId) ∈ v.issued ∧
      (∀ sid' userId', v.admitted[sid']? = some (token, userId') → sid' = sid) ∧
      v.server.tickets token = none ∧
      ∀ id work, v.server.requests id = some work → ∀ userId', work.holds ≠ some (token, userId') := by
  have h : Admitted v := hrun.invariant (fun _ _ _ hs hstep => hs.step hstep.1 hstep.2)
    (admitted_start now subscriptions sessions)
  obtain ⟨token, hadmitted⟩ := h.owner userId sid hsid
  have hholds : v.Holds token (some userId) (.socket sid) := ⟨userId, rfl, hadmitted⟩
  refine ⟨token, hadmitted, h.kept.issued hholds, fun sid' userId' hother => ?_, ?_, ?_⟩
  · have hother' : v.Holds token (some userId') (.socket sid') := ⟨userId', rfl, hother⟩
    exact Holder.socket.inj (h.kept.alone hother' hholds).1
  · cases hticket : v.server.tickets token with
    | none => rfl
    | some ticket =>
        have hstore : v.Holds token ticket.userId .store := by
          unfold Visit.Holds
          rw [hticket]
          rfl
        cases (h.kept.alone hstore hholds).1
  · intro id work hid userId' hheld
    have hrequest : v.Holds token (some userId') (.request id) :=
      ⟨userId', rfl, Option.bind_eq_some_iff.mpr ⟨work, hid, hheld⟩⟩
    cases (h.kept.alone hrequest hholds).1

end

/-- A ticket is issued, presented twice, and both upgrades go on as far as they can. -/
def presentedTwice : List Act :=
  [.issue "t" ⟨some 1, some 1⟩, .request 0 (.upgrade ⟨"/ws", some "t"⟩ .asked),
    .request 1 (.upgrade ⟨"/ws", some "t"⟩ .asked), .go 0, .go 1, .go 0, .go 0, .go 0, .go 0]

theorem notIssue_fresh {v : Visit} {act : Act} (h : ∀ token ticket, act ≠ .issue token ticket) :
    v.Fresh act := fun token ticket hact => absurd hact (h token ticket)

theorem ticket_admits_once_presentedTwice :
    ∃ v, Run (Guarded VisitSteps Visit.Fresh)
        { server := .start 0 (subscribed .active) session } presentedTwice v ∧
      ∃ token, v.admitted[0]? = some (token, 1) ∧ (token, some 1) ∈ v.issued := by
  have hrun : ∃ v, Run (Guarded VisitSteps Visit.Fresh)
      { server := .start 0 (subscribed .active) session } presentedTwice v ∧
        0 ∈ v.server.registry.socketsByUser 1 := by
    refine ⟨_, .cons ⟨rfl, fun _ _ _ _ => List.not_mem_nil⟩
      (.cons ⟨rfl, notIssue_fresh (by rintro _ _ ⟨⟩)⟩
      (.cons ⟨rfl, notIssue_fresh (by rintro _ _ ⟨⟩)⟩
      (.cons ⟨rfl, notIssue_fresh (by rintro _ _ ⟨⟩)⟩
      (.cons ⟨rfl, notIssue_fresh (by rintro _ _ ⟨⟩)⟩
      (.cons ⟨rfl, notIssue_fresh (by rintro _ _ ⟨⟩)⟩
      (.cons ⟨rfl, notIssue_fresh (by rintro _ _ ⟨⟩)⟩
      (.cons ⟨rfl, notIssue_fresh (by rintro _ _ ⟨⟩)⟩
      (.cons ⟨rfl, notIssue_fresh (by rintro _ _ ⟨⟩)⟩ (.nil _))))))))), ?_⟩
    exact List.mem_cons_self
  obtain ⟨v, hrun, hsid⟩ := hrun
  obtain ⟨token, hadmitted, hissued, -⟩ := ticket_admits_once hrun hsid
  exact ⟨v, hrun, token, hadmitted, hissued⟩

end Neonfi.Ws

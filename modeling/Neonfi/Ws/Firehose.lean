import Neonfi.Lib.Broadcast
import Neonfi.Ws.PlanGate

/-!
# The price firehose

The Redis listeners of `ws/server.ts` that write to every open socket, on top of the steps of the
server: a socket gets what is published while it is open, in order and once, and who is registered
is the same in both maps of the registry.
-/

namespace Neonfi.Ws

open Lib
open Ledger (Millis)

/-! ## Messages -/

/-- The fields of a `price:*` message; one that is no finite number is `none`. -/
structure PriceBody where
  price : Option ℚ
  change24h : Option ℚ
  deriving DecidableEq

structure ClientEvent where
  type : String
  payload : String
  deriving DecidableEq

/-- A frame for every open socket, with its timestamp. -/
inductive Frame
  | priceUpdate (symbol : String) (price change24h : ℚ) (timestamp : Millis)
  | reconnect (payload : String) (timestamp : Millis)
  deriving DecidableEq

/-- The frame of a `pmessage`; `none` is a body that `JSON.parse` refuses. -/
def broadcastPrice (channel : String) (raw : Option PriceBody) (now : Millis) : Option Frame :=
  if "price:".toList <+: channel.toList then
    let symbol := String.ofList (channel.toList.drop "price:".length)
    if symbol = "" then none
    else
      raw.bind fun data =>
        data.price.map fun price => .priceUpdate symbol price (data.change24h.getD 0) now
  else none

def handleClientEvent (evt : Option ClientEvent) (now : Millis) : Option Frame :=
  (evt.filter fun evt => evt.type = "reconnect").map fun evt => .reconnect evt.payload now

/-! ## The server with its sockets -/

/-- What `ws.send` wrote to each socket; no step reads `log`, the frames of all messages. -/
structure Hose where
  server : State
  log : List Frame := []
  inbox : ℕ → List Frame := fun _ => []

inductive HoseAct
  | server (act : Act)
  | pmessage (channel : String) (raw : Option PriceBody)
  | clientEvent (evt : Option ClientEvent)

namespace Hose

variable (h : Hose)

/-- The loop over `wsBySocketId`, for the frame of a message that has one. -/
def send : Option Frame → Hose
  | none => h
  | some frame =>
      { h with
        log := h.log ++ [frame]
        inbox := fun sid =>
          if h.server.registry.wsBySocketId sid = some .opened then h.inbox sid ++ [frame]
          else h.inbox sid }

/-- The frame of a step. -/
def frame? : HoseAct → Option Frame
  | .server _ => none
  | .pmessage channel raw => broadcastPrice channel raw h.server.now
  | .clientEvent evt => handleClientEvent evt h.server.now

def step (act : HoseAct) : Option Hose :=
  match act with
  | .server act => (h.server.step act).map fun server => { h with server }
  | .pmessage _ _ | .clientEvent _ => some (h.send (h.frame? act))

/-- The sockets that have ever been registered, and those that are open. -/
def board : Board ℕ Frame where
  log := h.log
  inbox := h.inbox
  listeners := {sid | h.server.registry.wsBySocketId sid = some .opened}
  members := {sid | sid < h.server.registry.nextSocketId}

end Hose

def HoseSteps (h : Hose) (act : HoseAct) (h' : Hose) : Prop := h.step act = some h'

/-! ## What a step does to the registry -/

/-- One of the ways in which a step of the server changes the registry. -/
inductive RegistryChange (reg : Registry) : Registry → Prop
  | same : RegistryChange reg reg
  | register (userId : ℕ) : RegistryChange reg (reg.registerSocket userId)
  | unregister {socketId userId : ℕ} (h : socketId ∈ reg.socketsByUser userId) :
      RegistryChange reg (reg.unregisterSocket socketId userId)
  | hangUp (socketId : ℕ) : RegistryChange reg (reg.setReadyState socketId .closing)
  | downgrade (sids : List ℕ) : RegistryChange reg (sids.foldl Registry.downgrade reg)

section Registry

variable {s s' : State} {act : Act} {reg reg' : Registry} {userId sid : ℕ}

theorem registry_downgradeSockets :
    (s.downgradeSockets userId).registry =
      (s.registry.socketsByUser userId).foldl Registry.downgrade s.registry := by
  unfold State.downgradeSockets
  generalize s.registry.socketsByUser userId = sids
  induction sids generalizing s with
  | nil => rfl
  | cons x sids ih => exact ih

theorem registry_takeTicket {id : ℕ} {req : UpgradeRequest} {token : String} :
    (s.takeTicket id req token).registry = s.registry := by
  unfold State.takeTicket
  dsimp only
  split
  · rfl
  · split
    · rfl
    · rfl

theorem registryChange_upgrade {id : ℕ} {req : UpgradeRequest} {phase : Authorizing} :
    RegistryChange s.registry (s.upgrade id req phase).registry := by
  unfold State.upgrade
  cases phase with
  | asked =>
      dsimp only
      split
      · exact .same
      · split
        · exact .same
        · rw [registry_takeTicket]
          exact .same
  | granted userId sessionId => exact .same
  | live userId sessionId => exact .same
  | found userId sessionId session =>
      dsimp only
      split
      · exact .same
      · exact .same
  | loaded userId sessionId subscription =>
      dsimp only
      split
      · exact .same
      · exact .register userId

theorem registryChange_go {id : ℕ} {work : Work} :
    RegistryChange s.registry (s.go id work).registry := by
  unfold State.go
  cases work with
  | upgrade req phase => exact registryChange_upgrade
  | userEvent evt phase =>
      unfold State.handleUserEvent
      cases phase with
      | received =>
          dsimp only
          split
          · exact .same
          · exact .same
      | loaded subscription =>
          cases evt with
          | none => exact .same
          | some evt =>
              unfold State.planChanged
              dsimp only
              split
              · change RegistryChange _ (s.downgradeSockets evt.userId).registry
                rw [registry_downgradeSockets]
                exact .downgrade _
              · exact .same

theorem registryChange_step (hstep : Steps s act s') : RegistryChange s.registry s'.registry := by
  unfold Steps State.step at hstep
  cases act with
  | elapse | write | issue | expire | drop =>
      cases hstep
      exact .same
  | request id work =>
      dsimp only at hstep
      split at hstep
      · cases hstep
        exact .same
      · cases hstep
  | go id =>
      obtain ⟨work, -, rfl⟩ := Option.map_eq_some_iff.mp hstep
      exact registryChange_go
  | hangUp socketId =>
      cases hstep
      exact .hangUp socketId
  | close socketId userId =>
      dsimp only at hstep
      split at hstep
      · next hmem =>
          cases hstep
          exact .unregister hmem
      · cases hstep

/-! ## The two maps of the registry -/

theorem wsBySocketId_setReadyState {readyState : ReadyState} (socketId : ℕ) :
    (reg.setReadyState socketId readyState).wsBySocketId sid =
      if sid = socketId then (reg.wsBySocketId sid).map fun _ => readyState
      else reg.wsBySocketId sid := rfl

theorem isSome_downgrade (socketId : ℕ) :
    ((reg.downgrade socketId).wsBySocketId sid).isSome = (reg.wsBySocketId sid).isSome := by
  rw [wsBySocketId_downgrade]
  split
  · next hopen => rw [hopen.2]; rfl
  · rfl

theorem opened_of_downgrade {socketId : ℕ}
    (h : (reg.downgrade socketId).wsBySocketId sid = some .opened) :
    reg.wsBySocketId sid = some .opened := by
  rw [wsBySocketId_downgrade] at h
  split at h
  · cases h
  · exact h

/-- A socket is in the one map exactly when it is in the other, for one user. -/
structure Consistent (reg : Registry) : Prop where
  fresh : ∀ userId, ∀ sid ∈ reg.socketsByUser userId, sid < reg.nextSocketId
  owner : ∀ u v sid, sid ∈ reg.socketsByUser u → sid ∈ reg.socketsByUser v → u = v
  registered : ∀ sid, (reg.wsBySocketId sid).isSome ↔ ∃ userId, sid ∈ reg.socketsByUser userId
  nodup : ∀ userId, (reg.socketsByUser userId).Nodup

theorem Consistent.lt (h : Consistent reg) (hsid : (reg.wsBySocketId sid).isSome) :
    sid < reg.nextSocketId := by
  obtain ⟨userId, hmem⟩ := (h.registered sid).mp hsid
  exact h.fresh userId sid hmem

theorem mem_registerSocket {other : ℕ} :
    sid ∈ (reg.registerSocket userId).socketsByUser other ↔
      other = userId ∧ sid = reg.nextSocketId ∨ sid ∈ reg.socketsByUser other := by
  unfold Registry.registerSocket
  by_cases hother : other = userId
  · subst hother
    simp
  · simp [hother]

theorem mem_unregisterSocket {socketId other : ℕ} :
    sid ∈ (reg.unregisterSocket socketId userId).socketsByUser other ↔
      sid ∈ reg.socketsByUser other ∧ (other = userId → sid ≠ socketId) := by
  unfold Registry.unregisterSocket
  by_cases hother : other = userId
  · subst hother
    simp
  · simp [hother]

theorem Consistent.registerSocket (h : Consistent reg) (userId : ℕ) :
    Consistent (reg.registerSocket userId) where
  fresh := by
    intro other sid hmem
    change sid < reg.nextSocketId + 1
    rcases mem_registerSocket.mp hmem with ⟨-, rfl⟩ | hmem
    · omega
    · have hlt := h.fresh other sid hmem
      omega
  owner := by
    intro u v sid hu hv
    rcases mem_registerSocket.mp hu with ⟨hu, hsid⟩ | hmemu
    · rcases mem_registerSocket.mp hv with ⟨hv, -⟩ | hmemv
      · exact hu.trans hv.symm
      · exact absurd (h.fresh v sid hmemv) hsid.not_lt
    · rcases mem_registerSocket.mp hv with ⟨-, hsid⟩ | hmemv
      · exact absurd (h.fresh u sid hmemu) hsid.not_lt
      · exact h.owner u v sid hmemu hmemv
  registered := by
    intro sid
    change (Function.update reg.wsBySocketId _ _ sid).isSome ↔ _
    simp only [mem_registerSocket]
    by_cases hsid : sid = reg.nextSocketId
    · subst hsid
      rw [Function.update_self]
      exact ⟨fun _ => ⟨userId, .inl ⟨rfl, rfl⟩⟩, fun _ => rfl⟩
    · rw [Function.update_of_ne hsid, h.registered]
      simp [hsid]
  nodup := by
    intro other
    unfold Registry.registerSocket
    by_cases hother : other = userId
    · subst hother
      dsimp only
      rw [Function.update_self, List.nodup_cons]
      exact ⟨fun hmem => lt_irrefl _ (h.fresh other _ hmem), h.nodup other⟩
    · dsimp only
      rw [Function.update_of_ne hother]
      exact h.nodup other

theorem Consistent.unregisterSocket (h : Consistent reg) {socketId : ℕ}
    (hmem : socketId ∈ reg.socketsByUser userId) :
    Consistent (reg.unregisterSocket socketId userId) where
  fresh := fun other sid hsid => h.fresh other sid (mem_unregisterSocket.mp hsid).1
  owner := fun u v sid hu hv =>
    h.owner u v sid (mem_unregisterSocket.mp hu).1 (mem_unregisterSocket.mp hv).1
  registered := by
    intro sid
    change (Function.update reg.wsBySocketId socketId none sid).isSome ↔ _
    simp only [mem_unregisterSocket]
    by_cases hsid : sid = socketId
    · subst hsid
      rw [Function.update_self]
      refine ⟨fun hsome => absurd hsome Bool.false_ne_true, ?_⟩
      rintro ⟨other, hother, hne⟩
      exact absurd rfl (hne (h.owner other userId sid hother hmem))
    · rw [Function.update_of_ne hsid, h.registered]
      simp [hsid]
  nodup := by
    intro other
    unfold Registry.unregisterSocket
    by_cases hother : other = userId
    · subst hother
      dsimp only
      rw [Function.update_self]
      exact (h.nodup other).filter _
    · dsimp only
      rw [Function.update_of_ne hother]
      exact h.nodup other

/-- The ready states alone may change. -/
theorem Consistent.of_isSome (h : Consistent reg) (hby : reg'.socketsByUser = reg.socketsByUser)
    (hnext : reg'.nextSocketId = reg.nextSocketId)
    (hsome : ∀ sid, (reg'.wsBySocketId sid).isSome = (reg.wsBySocketId sid).isSome) :
    Consistent reg' where
  fresh := by
    rw [hby, hnext]
    exact h.fresh
  owner := by
    rw [hby]
    exact h.owner
  registered := by
    intro sid
    rw [hsome, hby]
    exact h.registered sid
  nodup := by
    rw [hby]
    exact h.nodup

theorem Consistent.downgrade (h : Consistent reg) (socketId : ℕ) :
    Consistent (reg.downgrade socketId) :=
  h.of_isSome (socketsByUser_downgrade reg socketId).1 (socketsByUser_downgrade reg socketId).2
    fun _ => isSome_downgrade socketId

theorem Consistent.change (h : Consistent reg) (hchange : RegistryChange reg reg') :
    Consistent reg' := by
  cases hchange with
  | same => exact h
  | register userId => exact h.registerSocket userId
  | unregister hmem => exact h.unregisterSocket hmem
  | hangUp socketId =>
      refine h.of_isSome rfl rfl fun sid => ?_
      rw [wsBySocketId_setReadyState]
      split
      · rw [Option.isSome_map]
      · rfl
  | downgrade sids =>
      induction sids generalizing reg with
      | nil => exact h
      | cons x sids ih => exact ih (h.downgrade x)

/-- No step opens a socket that was registered before, or forgets one. -/
theorem change_listeners (h : Consistent reg) (hchange : RegistryChange reg reg') :
    reg.nextSocketId ≤ reg'.nextSocketId ∧
      ∀ sid < reg.nextSocketId, reg'.wsBySocketId sid = some .opened →
        reg.wsBySocketId sid = some .opened := by
  cases hchange with
  | same => exact ⟨le_rfl, fun _ _ hopen => hopen⟩
  | register userId =>
      refine ⟨Nat.le_succ _, fun sid hlt hopen => ?_⟩
      change Function.update reg.wsBySocketId _ _ sid = _ at hopen
      rwa [Function.update_of_ne hlt.ne] at hopen
  | @unregister socketId userId hmem =>
      refine ⟨le_rfl, fun sid _ hopen => ?_⟩
      change Function.update reg.wsBySocketId socketId none sid = _ at hopen
      by_cases hsid : sid = socketId
      · rw [hsid, Function.update_self] at hopen
        cases hopen
      · rwa [Function.update_of_ne hsid] at hopen
  | hangUp socketId =>
      refine ⟨le_rfl, fun sid _ hopen => ?_⟩
      rw [wsBySocketId_setReadyState] at hopen
      split at hopen
      · obtain ⟨_, -, hclosing⟩ := Option.map_eq_some_iff.mp hopen
        cases hclosing
      · exact hopen
  | downgrade sids =>
      induction sids generalizing reg with
      | nil => exact ⟨le_rfl, fun _ _ hopen => hopen⟩
      | cons x sids ih =>
          obtain ⟨hle, hlisten⟩ := ih (h.downgrade x)
          have hnext := (socketsByUser_downgrade reg x).2
          rw [hnext] at hle hlisten
          exact ⟨hle, fun sid hlt hopen => opened_of_downgrade (hlisten sid hlt hopen)⟩

end Registry

/-! ## Runs -/

section Runs

variable {h h' : Hose} {act : HoseAct} {acts : List HoseAct}

theorem consistent_step (hreg : Consistent h.server.registry) (hstep : HoseSteps h act h') :
    Consistent h'.server.registry := by
  cases act with
  | server act =>
      obtain ⟨server, hserver, rfl⟩ := Option.map_eq_some_iff.mp hstep
      exact hreg.change (registryChange_step hserver)
  | pmessage | clientEvent =>
      cases hstep
      unfold Hose.send
      split
      · exact hreg
      · exact hreg

theorem listeners_subset (hreg : Consistent h.server.registry) :
    h.board.listeners ⊆ h.board.members :=
  fun _ hopen => hreg.lt (Option.isSome_iff_exists.mpr ⟨_, hopen⟩)

theorem board_send (hreg : Consistent h.server.registry) (frame : Option Frame) :
    Board.Steps h.board frame (h.send frame).board := by
  cases frame with
  | none =>
      exact
        { log := rfl
          inbox := rfl
          members := Set.Subset.rfl
          stays := fun _ _ hi => hi
          joined := listeners_subset hreg }
  | some frame =>
      exact
        { log := rfl
          listeners := rfl
          members := rfl
          hears := fun _ hsid => if_pos hsid
          deaf := fun _ hsid => if_neg hsid }

theorem board_step (hreg : Consistent h.server.registry) (hstep : HoseSteps h act h') :
    Board.Steps h.board (h.frame? act) h'.board := by
  cases act with
  | server act =>
      have hjoined := listeners_subset (consistent_step hreg hstep)
      obtain ⟨server, hserver, rfl⟩ := Option.map_eq_some_iff.mp hstep
      obtain ⟨hle, hlisten⟩ := change_listeners hreg (registryChange_step hserver)
      exact
        { log := rfl
          inbox := rfl
          members := fun _ hlt => lt_of_lt_of_le hlt hle
          stays := hlisten
          joined := hjoined }
  | pmessage | clientEvent =>
      cases hstep
      exact board_send hreg _

theorem board_run (hreg : Consistent h.server.registry) (hrun : Run HoseSteps h acts h') :
    ∃ frames, Run Board.Steps h.board frames h'.board := by
  induction hrun with
  | nil => exact ⟨[], .nil _⟩
  | cons hstep _ ih =>
      obtain ⟨frames, hframes⟩ := ih (consistent_step hreg hstep)
      exact ⟨_, .cons (board_step hreg hstep) hframes⟩

/-- No socket and no message yet. -/
def Hose.start (server : State) : Hose := { server }

theorem consistent_start {server : State} (hserver : server.registry = {}) :
    Consistent (Hose.start server).server.registry := by
  change Consistent server.registry
  rw [hserver]
  exact
    { fresh := fun _ _ hmem => absurd hmem List.not_mem_nil
      owner := fun _ _ _ hmem => absurd hmem List.not_mem_nil
      registered := fun _ =>
        ⟨fun hsome => absurd hsome Bool.false_ne_true,
          fun ⟨_, hmem⟩ => absurd hmem List.not_mem_nil⟩
      nodup := fun _ => List.nodup_nil }

theorem sound_start {server : State} (hserver : server.registry = {}) :
    Board.Sound (Hose.start server).board where
  joined := listeners_subset (consistent_start hserver)
  unread := fun _ _ => rfl
  segment := fun _ => List.infix_rfl
  upToDate := fun _ _ => List.suffix_rfl

/-- A socket that has been registered gets, from there on, a prefix of the frames of all messages,
in order and once: all of them if it is still open at the end, and none once it has stopped being
open.  Whatever was published before it was registered it has not got. -/
theorem firehose_received {server : State} (hserver : server.registry = {})
    {before : List HoseAct} (hbefore : Run HoseSteps (.start server) before h)
    (hrun : Run HoseSteps h acts h') :
    ∃ published, h'.log = h.log ++ published ∧
      (∀ sid < h.server.registry.nextSocketId, ∃ got, got <+: published ∧
        h'.inbox sid = h.inbox sid ++ got ∧
        (h'.server.registry.wsBySocketId sid = some .opened →
          h.server.registry.wsBySocketId sid = some .opened ∧ got = published) ∧
        (h.server.registry.wsBySocketId sid ≠ some .opened → got = [])) ∧
      ∀ sid, h.server.registry.nextSocketId ≤ sid →
        h.inbox sid = [] ∧ h'.inbox sid <:+: published := by
  have hreg := consistent_start hserver
  have hreg' : Consistent h.server.registry :=
    hbefore.invariant (fun _ _ _ hs hstep => consistent_step hs hstep) hreg
  obtain ⟨_, hboard⟩ := board_run hreg hbefore
  obtain ⟨frames, hframes⟩ := board_run hreg' hrun
  have hsound := (sound_start hserver).run hboard
  exact ⟨frames.filterMap id, Board.log_run hframes,
    fun sid hsid => Board.received_run hsound hframes hsid,
    fun sid hsid => ⟨hsound.unread sid hsid.not_gt, Board.unread_run hsound hframes hsid.not_gt⟩⟩

end Runs

/-- An upgrade that has read an active subscription. -/
def paidUpgrade : State where
  requests := Function.update (fun _ => none) 0
    (some (.upgrade ⟨"/ws", some "t"⟩
      (.loaded 1 1 (some { id := 1, userId := 1, plan := .pro, status := .active }))))

/-- A socket that is registered, gets a price and hangs up before the next one. -/
theorem firehose_received_oneSocket :
    ∃ h h', Run HoseSteps (.start paidUpgrade) [.server (.go 0)] h ∧
      Run HoseSteps h
        [.pmessage "price:BTC" (some ⟨some 50000, some 1⟩), .server (.hangUp 0),
          .pmessage "price:BTC" (some ⟨some 51000, none⟩)] h' ∧
      h.server.registry.wsBySocketId 0 = some .opened ∧
      ∃ published, h'.log = h.log ++ published ∧ h'.inbox 0 <+: published := by
  have hbefore : ∃ h, Run HoseSteps (.start paidUpgrade) [.server (.go 0)] h ∧
      h.server.registry.nextSocketId = 1 ∧ h.inbox 0 = [] ∧
        h.server.registry.wsBySocketId 0 = some .opened :=
    ⟨_, .cons rfl (.nil _), rfl, rfl, rfl⟩
  obtain ⟨h, hbefore, hnext, hinbox, hopen⟩ := hbefore
  have hrun : ∃ h', Run HoseSteps h
      [.pmessage "price:BTC" (some ⟨some 50000, some 1⟩), .server (.hangUp 0),
        .pmessage "price:BTC" (some ⟨some 51000, none⟩)] h' :=
    ⟨_, .cons rfl (.cons rfl (.cons rfl (.nil _)))⟩
  obtain ⟨h', hrun⟩ := hrun
  obtain ⟨published, hlog, hreceived, -⟩ := firehose_received rfl hbefore hrun
  obtain ⟨got, hprefix, hgot, -⟩ := hreceived 0 (by rw [hnext]; exact Nat.one_pos)
  rw [hinbox, List.nil_append] at hgot
  exact ⟨h, h', hbefore, hrun, hopen, published, hlog, hgot ▸ hprefix⟩

end Neonfi.Ws

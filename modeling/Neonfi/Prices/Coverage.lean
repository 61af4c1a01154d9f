import Neonfi.Lib.Chunks
import Neonfi.Prices.Coinbase

/-!
# Feeds that cover a list of pairs

The Gate.io, OKX, Bybit and Kraken clients keep one set of pairs, send it in slices whenever a
socket opens, and send what is new while one is open.  They differ in the length of a slice and in
whether a pair is upper-cased.  The keepalive of a feed is left out: what it can do to the
subscription is to drop a silent socket.
-/

namespace Neonfi.Prices

open Lib

/-! ## The client -/

/-- What one exchange's client does its own way. -/
structure CoverageFeed where
  subscribeChunk : ℕ
  normalize : String → String
  pos : 0 < subscribeChunk

def gateFeed (toUpperCase : String → String) : CoverageFeed := ⟨100, toUpperCase, Nat.succ_pos _⟩

def okxFeed (toUpperCase : String → String) : CoverageFeed := ⟨100, toUpperCase, Nat.succ_pos _⟩

/-- Bybit's topics are taken as they are. -/
def bybitFeed : CoverageFeed := ⟨10, id, Nat.succ_pos _⟩

def krakenFeed (toUpperCase : String → String) : CoverageFeed := ⟨100, toUpperCase, Nat.succ_pos _⟩

/-- A socket and the subscribe frames that went out over it. -/
structure FeedSocket where
  readyState : ReadyState := .connecting
  sent : List (List String) := []
  deriving DecidableEq

/-- A socket that is still connecting throws, and one that is closing or closed drops the frames. -/
def FeedSocket.send (s : FeedSocket) (frames : List (List String)) : FeedSocket :=
  if s.readyState = .opened then { s with sent := s.sent ++ frames } else s

/-- Beside its fields the client has sockets that were replaced, connecting or open, and scheduled
reconnects, of which it holds at most the last one. -/
structure FeedClient where
  state : ClientState := .disconnected
  pairs : List String := []
  ws : Option FeedSocket := none
  strayConnecting : ℕ := 0
  strayOpen : ℕ := 0
  scheduled : ℕ := 0
  reconnectTimer : Bool := false

namespace FeedClient

variable (feed : CoverageFeed) (c : FeedClient)

/-- `_sendSubscribe` -/
def sendSubscribe (pairs : List String) : FeedClient :=
  { c with ws := c.ws.map fun s => s.send (slices feed.subscribeChunk pairs) }

/-- `_open` -/
def openSocket : FeedClient :=
  let phase := c.ws.map FeedSocket.readyState
  { c with
    state := .connecting
    ws := some {}
    strayConnecting := c.strayConnecting + if phase = some .connecting then 1 else 0
    strayOpen := c.strayOpen + if phase = some .opened ∨ phase = some .closing then 1 else 0 }

/-- `_onOpen` -/
def onOpen : FeedClient :=
  let c := { c with state := .connected }
  if c.pairs ≠ [] then c.sendSubscribe feed c.pairs else c

/-- `_onClose` and `_scheduleReconnect` -/
def onClose : FeedClient :=
  if c.state = .disconnected then c
  else
    { c with
      state := .reconnecting
      scheduled := c.scheduled + 1
      reconnectTimer := true }

def connect : FeedClient :=
  if c.state = .connected ∨ c.state = .connecting then c else c.openSocket

def disconnect : FeedClient :=
  { c with
    state := .disconnected
    ws := none
    scheduled := if c.reconnectTimer then c.scheduled - 1 else c.scheduled
    reconnectTimer := false }

/-- `subscribeForCoverage`, which the Kraken client calls `subscribe`. -/
def subscribeForCoverage (pairs : List String) : FeedClient :=
  let fresh := freshProducts c.pairs (pairs.map feed.normalize)
  let c := { c with pairs := c.pairs ++ fresh }
  if fresh ≠ [] ∧ c.state = .connected then c.sendSubscribe feed fresh else c

end FeedClient

/-! ## Steps -/

/-- The calls on the client, and what happens to its sockets and timers.  The watchdog and the
network drop a socket, which closes later. -/
inductive FeedAct
  | connect
  | disconnect
  | subscribeForCoverage (pairs : List String)
  | opens
  | drops
  | closes
  | strayOpens
  | strayFails
  | strayCloses
  | timerFires
  deriving DecidableEq

def FeedClient.step (feed : CoverageFeed) (c : FeedClient) : FeedAct → Option FeedClient
  | .connect => some c.connect
  | .disconnect => some c.disconnect
  | .subscribeForCoverage pairs => some (c.subscribeForCoverage feed pairs)
  | .opens =>
      match c.ws with
      | some s =>
          if s.readyState = .connecting then
            some (onOpen feed { c with ws := some { s with readyState := .opened } })
          else none
      | none => none
  | .drops =>
      match c.ws with
      | some s =>
          if s.readyState = .connecting ∨ s.readyState = .opened then
            some { c with ws := some { s with readyState := .closing } }
          else none
      | none => none
  | .closes =>
      match c.ws with
      | some s =>
          if s.readyState = .closed then none
          else some { c with ws := some { s with readyState := .closed } }.onClose
      | none => none
  | .strayOpens =>
      if 0 < c.strayConnecting then
        some (onOpen feed { c with
          strayConnecting := c.strayConnecting - 1
          strayOpen := c.strayOpen + 1 })
      else none
  | .strayFails =>
      if 0 < c.strayConnecting then
        some { c with strayConnecting := c.strayConnecting - 1 }.onClose
      else none
  | .strayCloses =>
      if 0 < c.strayOpen then some { c with strayOpen := c.strayOpen - 1 }.onClose else none
  | .timerFires =>
      if 0 < c.scheduled then
        some { c with scheduled := c.scheduled - 1, reconnectTimer := false }.openSocket
      else none

def FeedSteps (feed : CoverageFeed) (c : FeedClient) (act : FeedAct) (c' : FeedClient) : Prop :=
  c.step feed act = some c'

/-- The pairs a call asks for. -/
def FeedAct.asks (feed : CoverageFeed) : FeedAct → List String
  | .subscribeForCoverage pairs => pairs.map feed.normalize
  | _ => []

/-! ## Phases -/

/-- Every pair once, in order, in frames that are neither empty nor too long. -/
structure Subscribed (feed : CoverageFeed) (pairs : List String) (s : FeedSocket) : Prop where
  once : s.sent.flatten = pairs
  frames : ∀ frame ∈ s.sent, frame ≠ [] ∧ frame.length ≤ feed.subscribeChunk

/-- Where a client stands that was never told to connect while it waited to reconnect. -/
inductive Phase (feed : CoverageFeed) (c : FeedClient) : Prop
  | down (state : c.state = .disconnected) (ws : c.ws = none) (idle : c.scheduled = 0)
  | opening {s : FeedSocket} (state : c.state = .connecting) (ws : c.ws = some s)
      (ready : s.readyState = .connecting ∨ s.readyState = .closing) (silent : s.sent = [])
      (idle : c.scheduled = 0)
  | up {s : FeedSocket} (state : c.state = .connected) (ws : c.ws = some s)
      (ready : s.readyState = .opened ∨ s.readyState = .closing)
      (subscribed : s.readyState = .opened → Subscribed feed c.pairs s) (idle : c.scheduled = 0)
  | waiting {s : FeedSocket} (state : c.state = .reconnecting) (ws : c.ws = some s)
      (ready : s.readyState = .closed) (one : c.scheduled = 1)

/-- One socket, one timer, no pair twice. -/
structure Steady (feed : CoverageFeed) (c : FeedClient) : Prop where
  phase : Phase feed c
  noStray : c.strayConnecting = 0 ∧ c.strayOpen = 0
  timer : c.reconnectTimer = decide (c.scheduled = 1)
  nodup : c.pairs.Nodup

theorem nodup_freshProducts {coverage ps : List String} (h : coverage.Nodup) :
    (coverage ++ freshProducts coverage ps).Nodup := by
  induction ps generalizing coverage with
  | nil =>
      rw [freshProducts, List.append_nil]
      exact h
  | cons p ps ih =>
      rw [freshProducts]
      split
      · exact ih h
      · next hfresh =>
          rw [← List.singleton_append, ← List.append_assoc]
          refine ih (List.nodup_append.mpr ⟨h, List.nodup_singleton p, fun x hx y hy => ?_⟩)
          rw [List.mem_singleton.mp hy]
          rintro rfl
          exact hfresh hx

namespace Steady

variable {feed : CoverageFeed} {c c' : FeedClient}

theorem start : Steady feed {} := ⟨.down rfl rfl rfl, ⟨rfl, rfl⟩, rfl, List.nodup_nil⟩

/-- A socket that is closed, or none, leaves nothing behind when it is replaced. -/
theorem openSocket (hstray : c.strayConnecting = 0 ∧ c.strayOpen = 0)
    (htimer : c.reconnectTimer = decide (c.scheduled = 1)) (hnodup : c.pairs.Nodup)
    (hidle : c.scheduled = 0) (hws : ∀ s, c.ws = some s → s.readyState = .closed) :
    Steady feed c.openSocket := by
  have hphase : ∀ state : ReadyState, ReadyState.closed ≠ state →
      c.ws.map FeedSocket.readyState ≠ some state := by
    intro state hne hmap
    obtain ⟨s, hs, rfl⟩ := Option.map_eq_some_iff.mp hmap
    exact hne (hws s hs).symm
  have hconnecting := hphase .connecting (by decide)
  have hopen : ¬ (c.ws.map FeedSocket.readyState = some .opened ∨
      c.ws.map FeedSocket.readyState = some .closing) :=
    not_or.mpr ⟨hphase _ (by decide), hphase _ (by decide)⟩
  refine ⟨.opening rfl rfl (.inl rfl) rfl hidle, ⟨?_, ?_⟩, htimer, hnodup⟩
  · unfold FeedClient.openSocket
    dsimp only
    rw [if_neg hconnecting, hstray.1]
  · unfold FeedClient.openSocket
    dsimp only
    rw [if_neg hopen, hstray.2]

theorem connect (h : Steady feed c) (hstate : c.state ≠ .reconnecting) :
    Steady feed c.connect := by
  unfold FeedClient.connect
  split
  · exact h
  · next hneither =>
      cases h.phase with
      | down _ hws hidle =>
          refine openSocket h.noStray h.timer h.nodup hidle fun s hs => ?_
          rw [hws] at hs
          cases hs
      | opening state => exact absurd (.inr state) hneither
      | up state => exact absurd (.inl state) hneither
      | waiting state => exact absurd state hstate

theorem disconnect (h : Steady feed c) : Steady feed c.disconnect := by
  have hidle : c.disconnect.scheduled = 0 := by
    unfold FeedClient.disconnect
    dsimp only
    rw [h.timer]
    cases h.phase with
    | down _ _ idle | opening _ _ _ _ idle | up _ _ _ _ idle => simp [idle]
    | waiting _ _ _ one => simp [one]
  refine ⟨.down rfl rfl hidle, h.noStray, ?_, h.nodup⟩
  rw [hidle]
  rfl

theorem subscribed_slices {pairs : List String} {s : FeedSocket} (hopen : s.readyState = .opened)
    {sofar : List String} (h : Subscribed feed sofar s) :
    Subscribed feed (sofar ++ pairs) (s.send (slices feed.subscribeChunk pairs)) := by
  unfold FeedSocket.send
  rw [if_pos hopen]
  refine ⟨?_, fun frame hframe => ?_⟩
  · show (s.sent ++ slices _ pairs).flatten = _
    rw [List.flatten_append, h.once, flatten_slices feed.pos]
  · rcases List.mem_append.mp hframe with hframe | hframe
    · exact h.frames frame hframe
    · exact of_mem_slices feed.pos hframe

theorem readyState_send (s : FeedSocket) (frames : List (List String)) :
    (s.send frames).readyState = s.readyState := by
  unfold FeedSocket.send
  split <;> rfl

theorem subscribeForCoverage (h : Steady feed c) (pairs : List String) :
    Steady feed (c.subscribeForCoverage feed pairs) := by
  have hnodup : (c.pairs ++ freshProducts c.pairs (pairs.map feed.normalize)).Nodup :=
    nodup_freshProducts h.nodup
  unfold FeedClient.subscribeForCoverage
  dsimp only
  split
  · next hfresh =>
      cases h.phase with
      | down state | opening state | waiting state =>
          rw [state] at hfresh
          cases hfresh.2
      | @up s state ws ready subscribed idle =>
          refine ⟨@Phase.up _ _ (s.send _) state (by rw [FeedClient.sendSubscribe, ws]; rfl)
            (by rw [readyState_send]; exact ready) (fun hopen => ?_) idle, h.noStray, h.timer,
            hnodup⟩
          rw [readyState_send] at hopen
          exact subscribed_slices hopen (subscribed hopen)
  · next hquiet =>
      refine ⟨?_, h.noStray, h.timer, hnodup⟩
      cases h.phase with
      | down state ws idle => exact .down state ws idle
      | opening state ws ready silent idle => exact .opening state ws ready silent idle
      | waiting state ws ready one => exact .waiting state ws ready one
      | up state ws ready subscribed idle =>
          have hnil : freshProducts c.pairs (pairs.map feed.normalize) = [] := by
            by_contra hne
            exact hquiet ⟨hne, state⟩
          refine .up state ws ready (fun hopen => ?_) idle
          rw [hnil, List.append_nil]
          exact subscribed hopen

theorem onOpen {s : FeedSocket} (h : Steady feed c) (hws : c.ws = some s)
    (hconnecting : s.readyState = .connecting) :
    Steady feed (FeedClient.onOpen feed { c with ws := some { s with readyState := .opened } }) := by
  have hopening : s.sent = [] ∧ c.scheduled = 0 := by
    cases h.phase with
    | down _ ws =>
        rw [ws] at hws
        cases hws
    | opening _ ws _ silent idle =>
        rw [ws] at hws
        cases hws
        exact ⟨silent, idle⟩
    | up _ ws ready =>
        rw [ws] at hws
        cases hws
        rw [hconnecting] at ready
        exact absurd ready (by decide)
    | waiting _ ws ready =>
        rw [ws] at hws
        cases hws
        rw [hconnecting] at ready
        cases ready
  obtain ⟨hsilent, hidle⟩ := hopening
  have hempty : Subscribed feed [] { s with readyState := .opened } :=
    ⟨by rw [hsilent]; rfl, fun frame hframe => by rw [hsilent] at hframe; cases hframe⟩
  unfold FeedClient.onOpen
  dsimp only
  split
  · refine ⟨.up rfl rfl (.inl (readyState_send _ _)) (fun _ => ?_) hidle, h.noStray, h.timer,
      h.nodup⟩
    exact subscribed_slices rfl hempty
  · next hnone =>
      rw [not_not] at hnone
      refine ⟨.up rfl rfl (.inl rfl) (fun _ => ?_) hidle, h.noStray, h.timer, h.nodup⟩
      rw [hnone]
      exact hempty

theorem drops {s : FeedSocket} (h : Steady feed c) (hws : c.ws = some s)
    (hready : s.readyState = .connecting ∨ s.readyState = .opened) :
    Steady feed { c with ws := some { s with readyState := .closing } } := by
  refine ⟨?_, h.noStray, h.timer, h.nodup⟩
  cases h.phase with
  | down _ ws =>
      rw [ws] at hws
      cases hws
  | opening state ws _ silent idle =>
      rw [ws] at hws
      cases hws
      exact .opening state rfl (.inr rfl) silent idle
  | up state ws _ _ idle =>
      rw [ws] at hws
      cases hws
      exact .up state rfl (.inr rfl) (fun hopen => by cases hopen) idle
  | waiting _ ws ready =>
      rw [ws] at hws
      cases hws
      rw [ready] at hready
      exact absurd hready (by decide)

theorem closes {s : FeedSocket} (h : Steady feed c) (hws : c.ws = some s)
    (hready : s.readyState ≠ .closed) :
    Steady feed { c with ws := some { s with readyState := .closed } }.onClose := by
  have hup : c.state ≠ .disconnected ∧ c.scheduled = 0 := by
    cases h.phase with
    | down _ ws =>
        rw [ws] at hws
        cases hws
    | opening state _ _ _ idle | up state _ _ _ idle =>
        rw [state]
        exact ⟨nofun, idle⟩
    | waiting _ ws ready =>
        rw [ws] at hws
        cases hws
        exact absurd ready hready
  unfold FeedClient.onClose
  dsimp only
  rw [if_neg hup.1, hup.2]
  exact ⟨.waiting rfl rfl rfl rfl, h.noStray, rfl, h.nodup⟩

theorem timerFires (h : Steady feed c) (hscheduled : 0 < c.scheduled) :
    Steady feed
      { c with scheduled := c.scheduled - 1, reconnectTimer := false }.openSocket := by
  cases h.phase with
  | down _ _ idle | opening _ _ _ _ idle | up _ _ _ _ idle =>
      rw [idle] at hscheduled
      cases hscheduled
  | waiting state ws ready one =>
      refine openSocket h.noStray ?_ h.nodup ?_ fun s hs => ?_
      · dsimp only
        rw [one]
        rfl
      · dsimp only
        rw [one]
      · dsimp only at hs
        rw [ws] at hs
        cases hs
        exact ready

/-- Every step of a client that is not told to connect while it waits to reconnect. -/
theorem step {act : FeedAct} (h : Steady feed c)
    (hcall : act = .connect → c.state ≠ .reconnecting) (hstep : FeedSteps feed c act c') :
    Steady feed c' := by
  unfold FeedSteps FeedClient.step at hstep
  cases act with
  | connect =>
      cases hstep
      exact h.connect (hcall rfl)
  | disconnect =>
      cases hstep
      exact h.disconnect
  | subscribeForCoverage pairs =>
      cases hstep
      exact h.subscribeForCoverage pairs
  | opens =>
      dsimp only at hstep
      split at hstep
      · next s hws =>
          split at hstep
          · next hready =>
              cases hstep
              exact h.onOpen hws hready
          · cases hstep
      · cases hstep
  | drops =>
      dsimp only at hstep
      split at hstep
      · next s hws =>
          split at hstep
          · next hready =>
              cases hstep
              exact h.drops hws hready
          · cases hstep
      · cases hstep
  | closes =>
      dsimp only at hstep
      split at hstep
      · next s hws =>
          split at hstep
          · cases hstep
          · next hready =>
              cases hstep
              exact h.closes hws hready
      · cases hstep
  | strayOpens | strayFails =>
      dsimp only at hstep
      rw [if_neg (by rw [h.noStray.1]; exact lt_irrefl 0)] at hstep
      cases hstep
  | strayCloses =>
      dsimp only at hstep
      rw [if_neg (by rw [h.noStray.2]; exact lt_irrefl 0)] at hstep
      cases hstep
  | timerFires =>
      dsimp only at hstep
      split at hstep
      · next hscheduled =>
          cases hstep
          exact h.timerFires hscheduled
      · cases hstep

end Steady

/-! ## Pairs -/

section Pairs

variable {feed : CoverageFeed} {c c' : FeedClient}

theorem pairs_onOpen : (c.onOpen feed).pairs = c.pairs := by
  unfold FeedClient.onOpen
  dsimp only
  split <;> rfl

theorem pairs_onClose : c.onClose.pairs = c.pairs := by
  unfold FeedClient.onClose
  split <;> rfl

theorem pairs_connect : c.connect.pairs = c.pairs := by
  unfold FeedClient.connect
  split <;> rfl

theorem pairs_subscribeForCoverage (pairs : List String) :
    (c.subscribeForCoverage feed pairs).pairs =
      c.pairs ++ freshProducts c.pairs (pairs.map feed.normalize) := by
  unfold FeedClient.subscribeForCoverage
  dsimp only
  split <;> rfl

/-- Nothing but a call that asks for pairs changes them. -/
theorem pairs_step {act : FeedAct} (hstep : FeedSteps feed c act c') :
    c'.pairs = c.pairs ++ freshProducts c.pairs (act.asks feed) := by
  have hsame : ∀ {d : FeedClient}, d.pairs = c.pairs → d.pairs = c.pairs ++ [] := by
    intro d hd
    rw [List.append_nil, hd]
  unfold FeedSteps FeedClient.step at hstep
  cases act with
  | connect =>
      cases hstep
      exact hsame pairs_connect
  | disconnect =>
      cases hstep
      exact hsame rfl
  | subscribeForCoverage pairs =>
      cases hstep
      exact pairs_subscribeForCoverage pairs
  | opens =>
      dsimp only at hstep
      split at hstep
      · split at hstep
        · cases hstep
          exact hsame pairs_onOpen
        · cases hstep
      · cases hstep
  | drops =>
      dsimp only at hstep
      split at hstep
      · split at hstep
        · cases hstep
          exact hsame rfl
        · cases hstep
      · cases hstep
  | closes =>
      dsimp only at hstep
      split at hstep
      · split at hstep
        · cases hstep
        · cases hstep
          exact hsame pairs_onClose
      · cases hstep
  | strayOpens =>
      dsimp only at hstep
      split at hstep
      · cases hstep
        exact hsame pairs_onOpen
      · cases hstep
  | strayFails | strayCloses =>
      dsimp only at hstep
      split at hstep
      · cases hstep
        exact hsame pairs_onClose
      · cases hstep
  | timerFires =>
      dsimp only at hstep
      split at hstep
      · cases hstep
        exact hsame rfl
      · cases hstep

theorem mem_pairs_run {acts : List FeedAct} {x : String} (hrun : Run (FeedSteps feed) c acts c') :
    x ∈ c'.pairs ↔ x ∈ c.pairs ∨ ∃ act ∈ acts, x ∈ act.asks feed := by
  induction hrun with
  | nil => simp
  | cons hstep _ ih =>
      rw [ih, pairs_step hstep, List.mem_append, CoinbaseClient.mem_freshProducts, or_assoc]
      simp only [List.mem_cons, exists_eq_or_imp]

end Pairs

/-! ## Runs -/

/-- The client is not told to connect while it waits to reconnect. -/
def FeedClient.Calls (c : FeedClient) (act : FeedAct) : Prop :=
  act = .connect → c.state ≠ .reconnecting

section Runs

variable {feed : CoverageFeed} {c c' : FeedClient} {acts : List FeedAct}

theorem Steady.run (h : Steady feed c)
    (hrun : Run (Guarded (FeedSteps feed) FeedClient.Calls) c acts c') : Steady feed c' :=
  hrun.invariant (fun _ _ _ hs hstep => hs.step hstep.2 hstep.1) h

theorem Steady.subscribed {s : FeedSocket} (h : Steady feed c) (hws : c.ws = some s)
    (hopen : s.readyState = .opened) : Subscribed feed c.pairs s := by
  cases h.phase with
  | down _ ws =>
      rw [ws] at hws
      cases hws
  | opening _ ws ready =>
      rw [ws] at hws
      cases hws
      rw [hopen] at ready
      exact absurd ready (by decide)
  | up _ ws _ subscribed =>
      rw [ws] at hws
      cases hws
      exact subscribed hopen
  | waiting _ ws ready =>
      rw [ws] at hws
      cases hws
      rw [hopen] at ready
      cases ready

/-- A client that is not told to connect while it waits to reconnect has one socket and at most one
timer, and every open socket was sent each pair that any call ever asked for exactly once, in
frames within the exchange's limit. -/
theorem feed_subscribes_once
    (hrun : Run (Guarded (FeedSteps feed) FeedClient.Calls) {} acts c) :
    c.strayConnecting = 0 ∧ c.strayOpen = 0 ∧ c.scheduled ≤ 1 ∧ c.pairs.Nodup ∧
      (∀ x, x ∈ c.pairs ↔ ∃ act ∈ acts, x ∈ act.asks feed) ∧
      ∀ s, c.ws = some s → s.readyState = .opened → Subscribed feed c.pairs s := by
  have hsteady : Steady feed c := Steady.start.run hrun
  refine ⟨hsteady.noStray.1, hsteady.noStray.2, ?_, hsteady.nodup, fun x => ?_,
    fun s hws hopen => hsteady.subscribed hws hopen⟩
  · cases hsteady.phase with
    | down _ _ idle | opening _ _ _ _ idle | up _ _ _ _ idle =>
        rw [idle]
        exact Nat.zero_le 1
    | waiting _ _ _ one => exact one.le
  · rw [mem_pairs_run (hrun.mono fun _ _ _ hstep => hstep.1)]
    exact or_iff_right List.not_mem_nil

/-! ## Coming back and staying away -/

/-- What the network and the reconnect timer do by themselves. -/
def FeedAct.recovers : FeedAct → Bool
  | .opens => true
  | .closes => true
  | .timerFires => true
  | _ => false

/-- The socket is open and has every pair. -/
def Covered (feed : CoverageFeed) (pairs : List String) (c : FeedClient) : Prop :=
  ∃ s, c.ws = some s ∧ s.readyState = .opened ∧ Subscribed feed pairs s

theorem recovers_step {act : FeedAct} (h : Steady feed c) (hact : act.recovers = true)
    (hstep : FeedSteps feed c act c') : Steady feed c' ∧ c'.pairs = c.pairs := by
  refine ⟨h.step (by rintro rfl; cases hact) hstep, ?_⟩
  have hpairs := pairs_step hstep
  cases act with
  | opens | closes | timerFires => exact hpairs.trans (List.append_nil _)
  | connect | disconnect | subscribeForCoverage | drops | strayOpens | strayFails | strayCloses =>
      cases hact

theorem covered_of_opening {s : FeedSocket} (h : Steady feed c) (hws : c.ws = some s)
    (hready : s.readyState = .connecting) :
    ∃ c', Run (FeedSteps feed) c [.opens] c' ∧ Covered feed c.pairs c' := by
  have hstep : FeedSteps feed c .opens
      (FeedClient.onOpen feed { c with ws := some { s with readyState := .opened } }) := by
    unfold FeedSteps FeedClient.step
    rw [hws]
    exact if_pos hready
  obtain ⟨hsteady, hpairs⟩ := recovers_step h rfl hstep
  refine ⟨_, .cons hstep (.nil _), ?_⟩
  obtain ⟨s', hws', hopen⟩ : ∃ s', (FeedClient.onOpen feed
      { c with ws := some { s with readyState := .opened } }).ws = some s' ∧
        s'.readyState = .opened := by
    unfold FeedClient.onOpen
    dsimp only
    split
    · exact ⟨_, rfl, Steady.readyState_send _ _⟩
    · exact ⟨_, rfl, rfl⟩
  exact ⟨s', hws', hopen, hpairs ▸ hsteady.subscribed hws' hopen⟩

theorem covered_of_waiting (h : Steady feed c) (hone : c.scheduled = 1) :
    ∃ c', Run (FeedSteps feed) c [.timerFires, .opens] c' ∧ Covered feed c.pairs c' := by
  have hstep : FeedSteps feed c .timerFires
      { c with scheduled := c.scheduled - 1, reconnectTimer := false }.openSocket := by
    unfold FeedSteps FeedClient.step
    exact if_pos (by rw [hone]; exact Nat.one_pos)
  obtain ⟨hsteady, hpairs⟩ := recovers_step h rfl hstep
  obtain ⟨c', hrun, hcovered⟩ := covered_of_opening hsteady rfl rfl
  exact ⟨c', .cons hstep hrun, hpairs ▸ hcovered⟩

theorem covered_of_closing {s : FeedSocket} (h : Steady feed c) (hws : c.ws = some s)
    (hready : s.readyState = .closing) (hup : c.state ≠ .disconnected)
    (hidle : c.scheduled = 0) :
    ∃ c', Run (FeedSteps feed) c [.closes, .timerFires, .opens] c' ∧
      Covered feed c.pairs c' := by
  have hstep : FeedSteps feed c .closes
      { c with ws := some { s with readyState := .closed } }.onClose := by
    unfold FeedSteps FeedClient.step
    rw [hws]
    exact if_neg (by rw [hready]; decide)
  obtain ⟨hsteady, hpairs⟩ := recovers_step h rfl hstep
  obtain ⟨c', hrun, hcovered⟩ := covered_of_waiting hsteady (by
    unfold FeedClient.onClose
    rw [if_neg hup]
    exact congrArg (· + 1) hidle)
  exact ⟨c', .cons hstep hrun, hpairs ▸ hcovered⟩

/-- Nothing is left that could open a socket. -/
structure Down (c : FeedClient) : Prop where
  state : c.state = .disconnected
  ws : c.ws = none
  idle : c.scheduled = 0
  noStray : c.strayConnecting = 0 ∧ c.strayOpen = 0

theorem Down.step {act : FeedAct} (h : Down c) (hact : act ≠ .connect)
    (hstep : FeedSteps feed c act c') : Down c' := by
  unfold FeedSteps FeedClient.step at hstep
  cases act with
  | connect => exact absurd rfl hact
  | disconnect =>
      cases hstep
      refine ⟨rfl, rfl, ?_, h.noStray⟩
      unfold FeedClient.disconnect
      dsimp only
      rw [h.idle]
      exact ite_self 0
  | subscribeForCoverage pairs =>
      cases hstep
      unfold FeedClient.subscribeForCoverage
      dsimp only
      rw [if_neg fun hup => by rw [h.state] at hup; cases hup.2]
      exact ⟨h.state, h.ws, h.idle, h.noStray⟩
  | opens | drops | closes =>
      dsimp only at hstep
      rw [h.ws] at hstep
      cases hstep
  | strayOpens | strayFails =>
      dsimp only at hstep
      rw [if_neg (by rw [h.noStray.1]; exact lt_irrefl 0)] at hstep
      cases hstep
  | strayCloses =>
      dsimp only at hstep
      rw [if_neg (by rw [h.noStray.2]; exact lt_irrefl 0)] at hstep
      cases hstep
  | timerFires =>
      dsimp only at hstep
      rw [if_neg (by rw [h.idle]; exact lt_irrefl 0)] at hstep
      cases hstep

theorem Down.run (h : Down c) (hrun : Run (FeedSteps feed) c acts c')
    (hacts : .connect ∉ acts) : Down c' := by
  induction hrun with
  | nil => exact h
  | cons hstep _ ih =>
      obtain ⟨hne, hrest⟩ := not_or.mp (mt List.mem_cons.mpr hacts)
      exact ih (h.step (Ne.symm hne) hstep) hrest

end Runs

/-! ### A feed that drops once -/

def sampleFeed : CoverageFeed := ⟨2, id, Nat.succ_pos _⟩

/-- Three pairs before the socket opens and one after it came back, with a repeated pair. -/
def dropsOnce : List FeedAct :=
  [.connect, .subscribeForCoverage ["BTC_USDT", "ETH_USDT", "SOL_USDT"], .opens, .drops, .closes,
    .timerFires, .opens, .subscribeForCoverage ["ETH_USDT", "TON_USDT"]]

theorem dropsOnce_run : ∃ c, Run (Guarded (FeedSteps sampleFeed) FeedClient.Calls) {} dropsOnce c ∧
    c.state = .connected ∧ c.ws = some ⟨.opened,
      [["BTC_USDT", "ETH_USDT"], ["SOL_USDT"], ["TON_USDT"]]⟩ := by
  refine ⟨_, .cons ⟨rfl, fun _ => by decide⟩ (.cons ⟨rfl, nofun⟩ (.cons ⟨rfl, nofun⟩
    (.cons ⟨rfl, nofun⟩ (.cons ⟨rfl, nofun⟩ (.cons ⟨rfl, nofun⟩ (.cons ⟨rfl, nofun⟩
    (.cons ⟨rfl, nofun⟩ (.nil _)))))))), rfl, by decide⟩

theorem feed_subscribes_once_dropsOnce :
    ∃ c, Run (Guarded (FeedSteps sampleFeed) FeedClient.Calls) {} dropsOnce c ∧
      c.scheduled ≤ 1 ∧ Covered sampleFeed c.pairs c := by
  obtain ⟨c, hrun, -, hws⟩ := dropsOnce_run
  obtain ⟨-, -, hone, -, -, hsubscribed⟩ := feed_subscribes_once hrun
  exact ⟨c, hrun, hone, _, hws, rfl, hsubscribed _ hws rfl⟩

end Neonfi.Prices

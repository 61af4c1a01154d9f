import Neonfi.Prices.Coverage

/-!
# The KuCoin client

KuCoin has no fixed address: every connection starts with a request for a token, and only its answer
opens a socket.  `disconnect` clears the timers and the socket, but not a request that is under way.
-/

namespace Neonfi.Prices

open Lib

/-! ## The client -/

/-- A socket and how often the market topic was subscribed over it. -/
structure KucoinSocket where
  readyState : ReadyState := .connecting
  subscribed : ℕ := 0
  deriving DecidableEq

/-- Beside its fields the client has token requests under way, sockets that were replaced,
connecting or open, and scheduled reconnects, of which it holds at most the last one. -/
structure KucoinClient where
  state : ClientState := .disconnected
  ws : Option KucoinSocket := none
  fetching : ℕ := 0
  strayConnecting : ℕ := 0
  strayOpen : ℕ := 0
  scheduled : ℕ := 0
  reconnectTimer : Bool := false

namespace KucoinClient

variable (c : KucoinClient)

/-- `_open` up to the token request. -/
def openSocket : KucoinClient := { c with state := .connecting, fetching := c.fetching + 1 }

/-- `_open` from the token on; the state is what it is by then. -/
def onToken : KucoinClient :=
  let phase := c.ws.map KucoinSocket.readyState
  { c with
    ws := some {}
    strayConnecting := c.strayConnecting + if phase = some .connecting then 1 else 0
    strayOpen := c.strayOpen + if phase = some .opened ∨ phase = some .closing then 1 else 0 }

def scheduleReconnect : KucoinClient :=
  { c with
    state := .reconnecting
    scheduled := c.scheduled + 1
    reconnectTimer := true }

/-- `_onClose` -/
def onClose : KucoinClient := if c.state = .disconnected then c else c.scheduleReconnect

/-- `_onOpen`; the subscription waits for the welcome. -/
def onOpen : KucoinClient := { c with state := .connected }

def connect : KucoinClient :=
  if c.state = .connected ∨ c.state = .connecting then c else c.openSocket

def disconnect : KucoinClient :=
  { c with
    state := .disconnected
    ws := none
    scheduled := if c.reconnectTimer then c.scheduled - 1 else c.scheduled
    reconnectTimer := false }

/-- A welcome subscribes the market topic over the client's socket, if it is open. -/
def onWelcome : KucoinClient :=
  { c with
    ws := c.ws.map fun s =>
      if s.readyState = .opened then { s with subscribed := s.subscribed + 1 } else s }

end KucoinClient

/-! ## Steps -/

inductive KucoinAct
  | connect
  | disconnect
  | fetchSucceeds
  | fetchFails
  | opens
  | welcome
  | drops
  | closes
  | strayOpens
  | strayWelcome
  | strayFails
  | strayCloses
  | timerFires
  deriving DecidableEq

def KucoinClient.step (c : KucoinClient) : KucoinAct → Option KucoinClient
  | .connect => some c.connect
  | .disconnect => some c.disconnect
  | .fetchSucceeds =>
      if 0 < c.fetching then some { c with fetching := c.fetching - 1 }.onToken else none
  | .fetchFails =>
      if 0 < c.fetching then some { c with fetching := c.fetching - 1 }.scheduleReconnect
      else none
  | .opens =>
      match c.ws with
      | some s =>
          if s.readyState = .connecting then
            some { c with ws := some { s with readyState := .opened } }.onOpen
          else none
      | none => none
  | .welcome =>
      match c.ws with
      | some s => if s.readyState = .opened then some c.onWelcome else none
      | none => none
  | .drops =>
      match c.ws with
      | some s =>
          if s.readyState = .connecting ∨ s.readyState = .opened then
            some { c with ws := some { s with readyState := .closing } }
          else none
      | none => none
  | .closes =>
      match c.ws with
      | some s =>
          if s.readyState = .closed then none
          else some { c with ws := some { s with readyState := .closed } }.onClose
      | none => none
  | .strayOpens =>
      if 0 < c.strayConnecting then
        some { c with
          strayConnecting := c.strayConnecting - 1
          strayOpen := c.strayOpen + 1 }.onOpen
      else none
  | .strayWelcome => if 0 < c.strayOpen then some c.onWelcome else none
  | .strayFails =>
      if 0 < c.strayConnecting then
        some { c with strayConnecting := c.strayConnecting - 1 }.onClose
      else none
  | .strayCloses =>
      if 0 < c.strayOpen then some { c with strayOpen := c.strayOpen - 1 }.onClose else none
  | .timerFires =>
      if 0 < c.scheduled then
        some { c with scheduled := c.scheduled - 1, reconnectTimer := false }.openSocket
      else none

def KucoinSteps (c : KucoinClient) (act : KucoinAct) (c' : KucoinClient) : Prop :=
  c.step act = some c'

/-- The client is not told to connect while it waits to reconnect, nor to disconnect while a token
request is under way. -/
def KucoinClient.Calls (c : KucoinClient) (act : KucoinAct) : Prop :=
  (act = .connect → c.state ≠ .reconnecting) ∧ (act = .disconnect → c.fetching = 0)

/-! ## Phases -/

inductive KucoinPhase (c : KucoinClient) : Prop
  | down (state : c.state = .disconnected) (ws : c.ws = none) (quiet : c.fetching = 0)
      (idle : c.scheduled = 0)
  | fetching (state : c.state = .connecting) (ws : ∀ s, c.ws = some s → s.readyState = .closed)
      (one : c.fetching = 1) (idle : c.scheduled = 0)
  | opening {s : KucoinSocket} (state : c.state = .connecting) (ws : c.ws = some s)
      (ready : s.readyState = .connecting ∨ s.readyState = .closing) (quiet : c.fetching = 0)
      (idle : c.scheduled = 0)
  | up {s : KucoinSocket} (state : c.state = .connected) (ws : c.ws = some s)
      (ready : s.readyState = .opened ∨ s.readyState = .closing) (quiet : c.fetching = 0)
      (idle : c.scheduled = 0)
  | waiting (state : c.state = .reconnecting) (ws : ∀ s, c.ws = some s → s.readyState = .closed)
      (quiet : c.fetching = 0) (one : c.scheduled = 1)

/-- One socket or one token request at most, and one timer. -/
structure KucoinSteady (c : KucoinClient) : Prop where
  phase : KucoinPhase c
  noStray : c.strayConnecting = 0 ∧ c.strayOpen = 0
  timer : c.reconnectTimer = decide (c.scheduled = 1)

namespace KucoinSteady

variable {c c' : KucoinClient}

theorem start : KucoinSteady {} := ⟨.down rfl rfl rfl rfl, ⟨rfl, rfl⟩, rfl⟩

theorem idle_disconnect (h : KucoinSteady c) : c.disconnect.scheduled = 0 := by
  unfold KucoinClient.disconnect
  dsimp only
  rw [h.timer]
  cases h.phase with
  | down _ _ _ idle | fetching _ _ _ idle | opening _ _ _ _ idle | up _ _ _ _ idle => simp [idle]
  | waiting _ _ _ one => simp [one]

theorem disconnect (h : KucoinSteady c) (hquiet : c.fetching = 0) :
    KucoinSteady c.disconnect := by
  refine ⟨.down rfl rfl hquiet h.idle_disconnect, h.noStray, ?_⟩
  rw [h.idle_disconnect]
  rfl

theorem connect (h : KucoinSteady c) (hstate : c.state ≠ .reconnecting) :
    KucoinSteady c.connect := by
  unfold KucoinClient.connect
  split
  · exact h
  · next hneither =>
      cases h.phase with
      | down _ ws quiet idle =>
          refine ⟨.fetching rfl (fun s hs => ?_) (congrArg (· + 1) quiet) idle, h.noStray, h.timer⟩
          change c.ws = some s at hs
          rw [ws] at hs
          cases hs
      | fetching state | opening state => exact absurd (.inr state) hneither
      | up state => exact absurd (.inl state) hneither
      | waiting state => exact absurd state hstate

/-- A token request is under way in one phase only. -/
theorem of_fetching (h : KucoinSteady c) (hfetching : 0 < c.fetching) :
    c.fetching = 1 ∧ c.state = .connecting ∧ c.scheduled = 0 ∧
      ∀ s, c.ws = some s → s.readyState = .closed := by
  cases h.phase with
  | fetching state ws one idle => exact ⟨one, state, idle, ws⟩
  | down _ _ quiet | opening _ _ _ quiet | up _ _ _ quiet | waiting _ _ quiet =>
      rw [quiet] at hfetching
      cases hfetching

theorem fetchSucceeds (h : KucoinSteady c) (hfetching : 0 < c.fetching) :
    KucoinSteady { c with fetching := c.fetching - 1 }.onToken := by
  obtain ⟨one, state, idle, ws⟩ := h.of_fetching hfetching
  have hphase : ∀ state : ReadyState, ReadyState.closed ≠ state →
      c.ws.map KucoinSocket.readyState ≠ some state := by
    intro state hne hmap
    obtain ⟨s, hs, rfl⟩ := Option.map_eq_some_iff.mp hmap
    exact hne (ws s hs).symm
  have hconnecting := hphase .connecting (by decide)
  have hopen : ¬ (c.ws.map KucoinSocket.readyState = some .opened ∨
      c.ws.map KucoinSocket.readyState = some .closing) :=
    not_or.mpr ⟨hphase _ (by decide), hphase _ (by decide)⟩
  refine ⟨.opening state rfl (.inl rfl) (by rw [KucoinClient.onToken]; dsimp only; rw [one]) idle,
    ⟨?_, ?_⟩, h.timer⟩
  · unfold KucoinClient.onToken
    dsimp only
    rw [if_neg hconnecting, h.noStray.1]
  · unfold KucoinClient.onToken
    dsimp only
    rw [if_neg hopen, h.noStray.2]

theorem fetchFails (h : KucoinSteady c) (hfetching : 0 < c.fetching) :
    KucoinSteady { c with fetching := c.fetching - 1 }.scheduleReconnect := by
  obtain ⟨one, -, idle, ws⟩ := h.of_fetching hfetching
  unfold KucoinClient.scheduleReconnect
  dsimp only
  rw [idle, one]
  exact ⟨.waiting rfl ws rfl rfl, h.noStray, rfl⟩

/-- A socket that is not closed is there while nothing else is under way. -/
theorem of_socket {s : KucoinSocket} (h : KucoinSteady c) (hws : c.ws = some s)
    (hready : s.readyState ≠ .closed) :
    c.fetching = 0 ∧ c.scheduled = 0 ∧
      (c.state = .connecting ∧ s.readyState ≠ .opened ∨
        c.state = .connected ∧ s.readyState ≠ .connecting) := by
  cases h.phase with
  | down _ ws =>
      rw [ws] at hws
      cases hws
  | fetching _ ws | waiting _ ws => exact absurd (ws s hws) hready
  | opening state ws ready quiet idle =>
      rw [ws] at hws
      cases hws
      refine ⟨quiet, idle, .inl ⟨state, ?_⟩⟩
      rcases ready with ready | ready
      · rw [ready]
        decide
      · rw [ready]
        decide
  | up state ws ready quiet idle =>
      rw [ws] at hws
      cases hws
      refine ⟨quiet, idle, .inr ⟨state, ?_⟩⟩
      rcases ready with ready | ready
      · rw [ready]
        decide
      · rw [ready]
        decide

theorem opens {s : KucoinSocket} (h : KucoinSteady c) (hws : c.ws = some s)
    (hready : s.readyState = .connecting) :
    KucoinSteady { c with ws := some { s with readyState := .opened } }.onOpen := by
  obtain ⟨quiet, idle, -⟩ := h.of_socket hws (by rw [hready]; decide)
  exact ⟨.up rfl rfl (.inl rfl) quiet idle, h.noStray, h.timer⟩

theorem welcome {s : KucoinSocket} (h : KucoinSteady c) (hws : c.ws = some s)
    (hready : s.readyState = .opened) : KucoinSteady c.onWelcome := by
  obtain ⟨quiet, idle, ⟨-, hne⟩ | ⟨state, -⟩⟩ := h.of_socket hws (by rw [hready]; decide)
  · exact absurd hready hne
  · have hsocket : c.onWelcome.ws = some { s with subscribed := s.subscribed + 1 } := by
      unfold KucoinClient.onWelcome
      rw [hws, Option.map_some, if_pos hready]
    exact ⟨.up state hsocket (.inl hready) quiet idle, h.noStray, h.timer⟩

theorem drops {s : KucoinSocket} (h : KucoinSteady c) (hws : c.ws = some s)
    (hready : s.readyState ≠ .closed) :
    KucoinSteady { c with ws := some { s with readyState := .closing } } := by
  refine ⟨?_, h.noStray, h.timer⟩
  obtain ⟨quiet, idle, ⟨state, -⟩ | ⟨state, -⟩⟩ := h.of_socket hws hready
  · exact .opening state rfl (.inr rfl) quiet idle
  · exact .up state rfl (.inr rfl) quiet idle

theorem closes {s : KucoinSocket} (h : KucoinSteady c) (hws : c.ws = some s)
    (hready : s.readyState ≠ .closed) :
    KucoinSteady { c with ws := some { s with readyState := .closed } }.onClose := by
  obtain ⟨quiet, idle, hstate⟩ := h.of_socket hws hready
  have hup : c.state ≠ .disconnected := by
    rcases hstate with ⟨state, -⟩ | ⟨state, -⟩
    · rw [state]
      decide
    · rw [state]
      decide
  unfold KucoinClient.onClose
  dsimp only
  rw [if_neg hup]
  unfold KucoinClient.scheduleReconnect
  dsimp only
  rw [idle]
  refine ⟨.waiting rfl (fun s' hs' => ?_) quiet rfl, h.noStray, rfl⟩
  cases hs'
  rfl

theorem timerFires (h : KucoinSteady c) (hscheduled : 0 < c.scheduled) :
    KucoinSteady { c with scheduled := c.scheduled - 1, reconnectTimer := false }.openSocket := by
  cases h.phase with
  | down _ _ _ idle | fetching _ _ _ idle | opening _ _ _ _ idle | up _ _ _ _ idle =>
      rw [idle] at hscheduled
      cases hscheduled
  | waiting _ ws quiet one =>
      unfold KucoinClient.openSocket
      dsimp only
      rw [quiet, one]
      exact ⟨.fetching rfl ws rfl rfl, h.noStray, rfl⟩

theorem step {act : KucoinAct} (h : KucoinSteady c) (hcall : c.Calls act)
    (hstep : KucoinSteps c act c') : KucoinSteady c' := by
  unfold KucoinSteps KucoinClient.step at hstep
  cases act with
  | connect =>
      cases hstep
      exact h.connect (hcall.1 rfl)
  | disconnect =>
      cases hstep
      exact h.disconnect (hcall.2 rfl)
  | fetchSucceeds =>
      dsimp only at hstep
      split at hstep
      · next hfetching =>
          cases hstep
          exact h.fetchSucceeds hfetching
      · cases hstep
  | fetchFails =>
      dsimp only at hstep
      split at hstep
      · next hfetching =>
          cases hstep
          exact h.fetchFails hfetching
      · cases hstep
  | opens =>
      dsimp only at hstep
      split at hstep
      · next s hws =>
          split at hstep
          · next hready =>
              cases hstep
              exact h.opens hws hready
          · cases hstep
      · cases hstep
  | welcome =>
      dsimp only at hstep
      split at hstep
      · next s hws =>
          split at hstep
          · next hready =>
              cases hstep
              exact h.welcome hws hready
          · cases hstep
      · cases hstep
  | drops =>
      dsimp only at hstep
      split at hstep
      · next s hws =>
          split at hstep
          · next hready =>
              cases hstep
              exact h.drops hws (by rcases hready with hr | hr <;> rw [hr] <;> decide)
          · cases hstep
      · cases hstep
  | closes =>
      dsimp only at hstep
      split at hstep
      · next s hws =>
          split at hstep
          · cases hstep
          · next hready =>
              cases hstep
              exact h.closes hws hready
      · cases hstep
  | strayOpens | strayFails =>
      dsimp only at hstep
      rw [if_neg (by rw [h.noStray.1]; exact lt_irrefl 0)] at hstep
      cases hstep
  | strayWelcome | strayCloses =>
      dsimp only at hstep
      rw [if_neg (by rw [h.noStray.2]; exact lt_irrefl 0)] at hstep
      cases hstep
  | timerFires =>
      dsimp only at hstep
      split at hstep
      · next hscheduled =>
          cases hstep
          exact h.timerFires hscheduled
      · cases hstep

end KucoinSteady

/-! ## Staying down -/

/-- Nothing is left that could open a socket. -/
structure KucoinDown (c : KucoinClient) : Prop where
  state : c.state = .disconnected
  ws : c.ws = none
  quiet : c.fetching = 0
  idle : c.scheduled = 0
  noStray : c.strayConnecting = 0 ∧ c.strayOpen = 0

namespace KucoinDown

variable {c c' : KucoinClient} {acts : List KucoinAct}

theorem step {act : KucoinAct} (h : KucoinDown c) (hact : act ≠ .connect)
    (hstep : KucoinSteps c act c') : KucoinDown c' := by
  unfold KucoinSteps KucoinClient.step at hstep
  cases act with
  | connect => exact absurd rfl hact
  | disconnect =>
      cases hstep
      refine ⟨rfl, rfl, h.quiet, ?_, h.noStray⟩
      unfold KucoinClient.disconnect
      dsimp only
      rw [h.idle]
      exact ite_self 0
  | fetchSucceeds | fetchFails =>
      dsimp only at hstep
      rw [if_neg (by rw [h.quiet]; exact lt_irrefl 0)] at hstep
      cases hstep
  | opens | welcome | drops | closes =>
      dsimp only at hstep
      rw [h.ws] at hstep
      cases hstep
  | strayOpens | strayFails =>
      dsimp only at hstep
      rw [if_neg (by rw [h.noStray.1]; exact lt_irrefl 0)] at hstep
      cases hstep
  | strayWelcome | strayCloses =>
      dsimp only at hstep
      rw [if_neg (by rw [h.noStray.2]; exact lt_irrefl 0)] at hstep
      cases hstep
  | timerFires =>
      dsimp only at hstep
      rw [if_neg (by rw [h.idle]; exact lt_irrefl 0)] at hstep
      cases hstep

theorem run (h : KucoinDown c) (hrun : Run KucoinSteps c acts c') (hacts : .connect ∉ acts) :
    KucoinDown c' := by
  induction hrun with
  | nil => exact h
  | cons hstep _ ih =>
      obtain ⟨hne, hrest⟩ := not_or.mp (mt List.mem_cons.mpr hacts)
      exact ih (h.step (Ne.symm hne) hstep) hrest

end KucoinDown

/-- A client that connected, was dropped and is asking for its next token. -/
def asksAgain : List KucoinAct :=
  [.connect, .fetchSucceeds, .opens, .welcome, .drops, .closes, .timerFires]

end Neonfi.Prices

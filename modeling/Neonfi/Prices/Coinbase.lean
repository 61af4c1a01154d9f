import Mathlib.Data.Finset.SDiff
import Mathlib.Data.Finset.Lattice.Basic
import Neonfi.Lib.Run
import Neonfi.Lib.Table

/-!
# Coinbase subscriptions

Two owners share the products of one ticker channel: the symbols that clients watch are counted,
and the coverage set is subscribed once and never given up.  The exchange keeps the products of a
socket; a new socket starts with none and is sent all of them when it opens.

A reconnect timer opens a socket whatever the state of the client is by then, so `connect` during a
pending reconnect leads to a second socket.  The one it replaces keeps its listeners.
-/

namespace Neonfi.Prices

open Lib

/-! ## Frames -/

/-- `${symbol}-USD` -/
def product (symbol : String) : String := symbol ++ "-USD"

theorem product_injective : Function.Injective product := by
  intro s s' h
  exact String.append_left_inj _ |>.mp h

/-- What is sent to the exchange; the products are those of the ticker channel. -/
inductive CoinbaseFrame
  | subscribe (productIds : List String)
  | unsubscribe (productIds : List String)
  | heartbeats
  deriving DecidableEq, Repr

def chunkSize : ℕ := 100

/-- One frame for every hundred products. -/
def batchSubscribe (productIds : List String) : List CoinbaseFrame :=
  (List.range ((productIds.length + chunkSize - 1) / chunkSize)).map fun i =>
    .subscribe ((productIds.drop (i * chunkSize)).take chunkSize)

/-- The exchange processes a frame. -/
def CoinbaseFrame.process (ticker : Finset String) : CoinbaseFrame → Finset String
  | .subscribe productIds => ticker ∪ productIds.toFinset
  | .unsubscribe productIds => ticker \ productIds.toFinset
  | .heartbeats => ticker

/-! ## The client -/

inductive ReadyState
  | connecting
  | opened
  | closing
  | closed
  deriving DecidableEq, Repr

/-- A socket and the frames that went out over it. -/
structure CoinbaseSocket where
  readyState : ReadyState := .connecting
  sent : List CoinbaseFrame := []

namespace CoinbaseSocket

/-- A socket that is still connecting throws, and one that is closing or closed drops the frames. -/
def send (s : CoinbaseSocket) (frames : List CoinbaseFrame) : CoinbaseSocket :=
  if s.readyState = .opened then { s with sent := s.sent ++ frames } else s

/-- The products of the ticker channel when all the frames are processed. -/
def ticker (s : CoinbaseSocket) : Finset String := s.sent.foldl CoinbaseFrame.process ∅

end CoinbaseSocket

inductive ClientState
  | disconnected
  | connecting
  | connected
  | reconnecting
  deriving DecidableEq, Repr

/-- Beside its fields the client has sockets that were replaced, connecting or open, and scheduled
reconnects, of which it holds at most the last one. -/
structure CoinbaseClient where
  state : ClientState := .disconnected
  subscriptions : Table (String × ℕ) String Prod.fst := .empty
  coverageProducts : List String := []
  ws : Option CoinbaseSocket := none
  strayConnecting : ℕ := 0
  strayOpen : ℕ := 0
  scheduled : ℕ := 0
  reconnectTimer : Bool := false

namespace CoinbaseClient

variable (c : CoinbaseClient)

/-- `this.subscriptions.get(symbol) ?? 0` -/
def refCount (symbol : String) : ℕ := ((c.subscriptions.find? symbol).map Prod.snd).getD 0

def send (frames : List CoinbaseFrame) : CoinbaseClient :=
  { c with ws := c.ws.map fun s => s.send frames }

/-- `_open` -/
def openSocket : CoinbaseClient :=
  let phase := c.ws.map CoinbaseSocket.readyState
  { c with
    state := .connecting
    ws := some {}
    strayConnecting := c.strayConnecting + if phase = some .connecting then 1 else 0
    strayOpen := c.strayOpen + if phase = some .opened ∨ phase = some .closing then 1 else 0 }

/-- `_onOpen` -/
def onOpen : CoinbaseClient :=
  { c with state := .connected }.send
    ((c.subscriptions.rows.map fun r : String × ℕ => CoinbaseFrame.subscribe [product r.1]) ++
      batchSubscribe c.coverageProducts ++ [CoinbaseFrame.heartbeats])

/-- `_onClose` and `_scheduleReconnect` -/
def onClose : CoinbaseClient :=
  if c.state = .disconnected then c
  else
    { c with
      state := .reconnecting
      scheduled := c.scheduled + 1
      reconnectTimer := true }

def connect : CoinbaseClient :=
  if c.state = .connected ∨ c.state = .connecting then c else c.openSocket

def disconnect : CoinbaseClient :=
  { c with
    state := .disconnected
    ws := none
    scheduled := if c.reconnectTimer then c.scheduled - 1 else c.scheduled
    reconnectTimer := false }

def subscribeToSymbol (symbol : String) : CoinbaseClient :=
  let count := c.refCount symbol
  let c := { c with subscriptions := c.subscriptions.set (symbol, count + 1) }
  if count = 0 ∧ c.state = .connected then c.send [.subscribe [product symbol]] else c

def unsubscribeFromSymbol (symbol : String) : CoinbaseClient :=
  let count := c.refCount symbol
  if count ≤ 1 then
    let c := { c with subscriptions := c.subscriptions.filter fun r => r.1 ≠ symbol }
    if c.state = .connected then c.send [.unsubscribe [product symbol]] else c
  else { c with subscriptions := c.subscriptions.set (symbol, count - 1) }

end CoinbaseClient

/-- The products that are not covered yet; each is added as it is found. -/
def freshProducts (coverage : List String) : List String → List String
  | [] => []
  | p :: ps =>
      if p ∈ coverage then freshProducts coverage ps
      else p :: freshProducts (coverage ++ [p]) ps

def CoinbaseClient.subscribeForCoverage (toUpperCase : String → String) (c : CoinbaseClient)
    (symbols : List String) : CoinbaseClient :=
  let fresh := freshProducts c.coverageProducts (symbols.map fun sym => product (toUpperCase sym))
  let c := { c with coverageProducts := c.coverageProducts ++ fresh }
  if fresh ≠ [] ∧ c.state = .connected then c.send (batchSubscribe fresh) else c

/-! ## Steps -/

/-- The calls on the client, and what happens to its sockets and timers.  The watchdog and the
network drop a socket, which closes later. -/
inductive CoinbaseAct
  | connect
  | disconnect
  | opens
  | drops
  | closes
  | strayOpens
  | strayFails
  | strayCloses
  | timerFires
  | subscribeToSymbol (symbol : String)
  | unsubscribeFromSymbol (symbol : String)
  | subscribeForCoverage (symbols : List String)

/-- The calls that say which products are wanted. -/
def CoinbaseAct.isCall : CoinbaseAct → Bool
  | .subscribeToSymbol _ => true
  | .unsubscribeFromSymbol _ => true
  | .subscribeForCoverage _ => true
  | _ => false

def CoinbaseClient.step (toUpperCase : String → String) (c : CoinbaseClient) :
    CoinbaseAct → Option CoinbaseClient
  | .connect => some c.connect
  | .disconnect => some c.disconnect
  | .opens =>
      match c.ws with
      | some s =>
          if s.readyState = .connecting then
            some { c with ws := some { s with readyState := .opened } }.onOpen
          else none
      | none => none
  | .drops =>
      match c.ws with
      | some s =>
          if s.readyState = .connecting ∨ s.readyState = .opened then
            some { c with ws := some { s with readyState := .closing } }
          else none
      | none => none
  | .closes =>
      match c.ws with
      | some s =>
          if s.readyState = .closed then none
          else some { c with ws := some { s with readyState := .closed } }.onClose
      | none => none
  | .strayOpens =>
      if 0 < c.strayConnecting then
        some { c with
          strayConnecting := c.strayConnecting - 1
          strayOpen := c.strayOpen + 1 }.onOpen
      else none
  | .strayFails =>
      if 0 < c.strayConnecting then
        some { c with strayConnecting := c.strayConnecting - 1 }.onClose
      else none
  | .strayCloses =>
      if 0 < c.strayOpen then some { c with strayOpen := c.strayOpen - 1 }.onClose else none
  | .timerFires =>
      if 0 < c.scheduled then
        some { c with scheduled := c.scheduled - 1, reconnectTimer := false }.openSocket
      else none
  | .subscribeToSymbol symbol => some (c.subscribeToSymbol symbol)
  | .unsubscribeFromSymbol symbol => some (c.unsubscribeFromSymbol symbol)
  | .subscribeForCoverage symbols => some (c.subscribeForCoverage toUpperCase symbols)

def CoinbaseSteps (toUpperCase : String → String) (c : CoinbaseClient) (act : CoinbaseAct)
    (c' : CoinbaseClient) : Prop :=
  c.step toUpperCase act = some c'

/-! ## What the exchange keeps -/

section Frames

variable {F : Finset String} {x : String}

theorem mem_foldl_subscribe (groups : List (List String)) :
    x ∈ (groups.map CoinbaseFrame.subscribe).foldl CoinbaseFrame.process F ↔
      x ∈ F ∨ ∃ group ∈ groups, x ∈ group := by
  induction groups generalizing F with
  | nil => simp
  | cons group groups ih =>
      rw [List.map_cons, List.foldl_cons, ih]
      simp only [CoinbaseFrame.process, Finset.mem_union, List.mem_toFinset, List.mem_cons,
        exists_eq_or_imp]
      exact or_assoc

theorem mem_foldl_one {p : String} :
    x ∈ [CoinbaseFrame.subscribe [p]].foldl CoinbaseFrame.process F ↔ x ∈ F ∨ x = p := by
  change x ∈ F ∪ [p].toFinset ↔ _
  rw [Finset.mem_union, List.mem_toFinset, List.mem_singleton]

theorem mem_foldl_unsubscribe {p : String} :
    x ∈ [CoinbaseFrame.unsubscribe [p]].foldl CoinbaseFrame.process F ↔ x ∈ F ∧ x ≠ p := by
  change x ∈ F \ [p].toFinset ↔ _
  rw [Finset.mem_sdiff, List.mem_toFinset, List.mem_singleton]

/-- Together the frames of a batch hold all of its products. -/
theorem mem_foldl_batchSubscribe (productIds : List String) :
    x ∈ (batchSubscribe productIds).foldl CoinbaseFrame.process F ↔ x ∈ F ∨ x ∈ productIds := by
  have hframes : batchSubscribe productIds =
      ((List.range ((productIds.length + chunkSize - 1) / chunkSize)).map fun i =>
        (productIds.drop (i * chunkSize)).take chunkSize).map CoinbaseFrame.subscribe := by
    rw [List.map_map]
    rfl
  rw [hframes, mem_foldl_subscribe]
  apply or_congr_right
  constructor
  · rintro ⟨chunk, hchunk, hx⟩
    obtain ⟨i, -, rfl⟩ := List.mem_map.mp hchunk
    exact List.mem_of_mem_drop (List.mem_of_mem_take hx)
  · intro hx
    obtain ⟨n, hn, rfl⟩ := List.mem_iff_getElem.mp hx
    have hchunk : n / 100 * 100 + n % 100 = n := Nat.div_add_mod' n 100
    refine ⟨_, List.mem_map.mpr ⟨n / chunkSize, ?_, rfl⟩, ?_⟩
    · rw [List.mem_range]
      unfold chunkSize
      omega
    · unfold chunkSize
      refine List.mem_iff_getElem.mpr ⟨n % 100, ?_, ?_⟩
      · rw [List.length_take, List.length_drop]
        omega
      · rw [List.getElem_take, List.getElem_drop]
        simp only [hchunk]

theorem foldl_heartbeats (frames : List CoinbaseFrame) :
    (frames ++ [CoinbaseFrame.heartbeats]).foldl CoinbaseFrame.process F =
      frames.foldl CoinbaseFrame.process F := by
  rw [List.foldl_concat]
  rfl

end Frames

/-! ## Wanted products -/

namespace CoinbaseClient

/-- A coverage product, or the product of a symbol that somebody watches. -/
def Wanted (c : CoinbaseClient) (x : String) : Prop :=
  x ∈ c.coverageProducts ∨ ∃ symbol, 0 < c.refCount symbol ∧ x = product symbol

/-- The socket is open. -/
def Live (c : CoinbaseClient) : Prop := ∃ s, c.ws = some s ∧ s.readyState = .opened

/-- If the socket is open, the products on its ticker channel are the wanted ones. -/
def InSync (c : CoinbaseClient) : Prop :=
  ∀ s, c.ws = some s → s.readyState = .opened → ∀ x, x ∈ s.ticker ↔ c.Wanted x

/-- A symbol under no client has no entry, and nothing goes out over a connecting socket. -/
structure Sound (c : CoinbaseClient) : Prop where
  counted : ∀ r ∈ c.subscriptions.rows, 0 < r.2
  silent : ∀ s, c.ws = some s → s.readyState = .connecting → s.sent = []

/-- While the socket is open and the client connected, no unsubscribe that gives a symbol up names a
coverage product; while it is open and the client is not, no call changes what is wanted. -/
def Agrees (toUpperCase : String → String) (c : CoinbaseClient) : CoinbaseAct → Prop
  | .subscribeToSymbol symbol =>
      c.Live → c.state ≠ .connected → c.Wanted (product symbol)
  | .unsubscribeFromSymbol symbol =>
      c.Live → c.refCount symbol ≤ 1 →
        if c.state = .connected then product symbol ∉ c.coverageProducts
        else c.refCount symbol = 1 → product symbol ∈ c.coverageProducts
  | .subscribeForCoverage symbols =>
      c.Live → c.state ≠ .connected → ∀ sym ∈ symbols, c.Wanted (product (toUpperCase sym))
  | _ => True

section Sync

variable {c c' : CoinbaseClient} {symbol x : String} {frames : List CoinbaseFrame}

theorem sent_send {s : CoinbaseSocket} (h : s.readyState = .opened) :
    (s.send frames).ticker = frames.foldl CoinbaseFrame.process s.ticker := by
  unfold CoinbaseSocket.send CoinbaseSocket.ticker
  rw [if_pos h, List.foldl_append]

theorem readyState_send {s : CoinbaseSocket} : (s.send frames).readyState = s.readyState := by
  unfold CoinbaseSocket.send
  split <;> rfl

/-- A call that keeps the socket, its frames apart, keeps it in sync if its frames do to the
products what the call does to the wanted ones. -/
theorem inSync_call_iff (effect : Prop → String → Prop) (hsync : c.InSync)
    (hws : c'.ws = c.ws.map fun s => s.send frames)
    (heffect : ∀ F x, x ∈ frames.foldl CoinbaseFrame.process F ↔ effect (x ∈ F) x) :
    c'.InSync ↔ (c.Live → ∀ x, effect (c.Wanted x) x ↔ c'.Wanted x) := by
  constructor
  · rintro hsync' ⟨s, hs, hopened⟩ x
    rw [hs, Option.map_some] at hws
    rw [← hsync' _ hws (readyState_send.trans hopened) x, sent_send hopened, heffect,
      hsync s hs hopened x]
  · intro hwanted s' hs' hopened' x
    rw [hws] at hs'
    obtain ⟨s, hs, rfl⟩ := Option.map_eq_some_iff.mp hs'
    rw [readyState_send] at hopened'
    rw [← hwanted ⟨s, hs, hopened'⟩ x, sent_send hopened', heffect, hsync s hs hopened' x]

/-- A call without frames. -/
theorem inSync_quiet_iff (hsync : c.InSync) (hws : c'.ws = c.ws) :
    c'.InSync ↔ (c.Live → ∀ x, c.Wanted x ↔ c'.Wanted x) := by
  have hsend : c'.ws = c.ws.map fun s => s.send [] := by
    rw [hws]
    have hid : (fun s : CoinbaseSocket => s.send []) = id := by
      funext s
      unfold CoinbaseSocket.send
      rw [List.append_nil]
      exact ite_self s
    rw [hid, Option.map_id]
    rfl
  exact inSync_call_iff (fun P _ => P) hsync hsend fun _ _ => Iff.rfl

end Sync

/-! ## The calls -/

section Calls

variable {c : CoinbaseClient} {symbol other x : String} {toUpperCase : String → String}

theorem refCount_set {count : ℕ} :
    ({ c with subscriptions := c.subscriptions.set (symbol, count) } : CoinbaseClient).refCount
      other = if symbol = other then count else c.refCount other := by
  unfold refCount
  dsimp only
  rw [Table.find?_set]
  by_cases hsymbol : symbol = other
  · rw [if_pos hsymbol, if_pos hsymbol]
    rfl
  · rw [if_neg hsymbol, if_neg hsymbol]

theorem refCount_delete :
    ({ c with subscriptions := c.subscriptions.filter fun r => r.1 ≠ symbol } :
      CoinbaseClient).refCount other = if other = symbol then 0 else c.refCount other := by
  unfold refCount
  dsimp only
  by_cases hother : other = symbol
  · subst hother
    rw [if_pos rfl, Table.find?_eq_none_iff.mpr]
    · rfl
    · intro r hr
      exact of_decide_eq_true (List.mem_filter.mp hr).2
  · rw [if_neg hother, Table.find?_filter]
    rintro r rfl
    exact decide_eq_true hother

/-- A watched symbol adds its product. -/
theorem wanted_set {count : ℕ} (h : 0 < count) :
    ({ c with subscriptions := c.subscriptions.set (symbol, count) } : CoinbaseClient).Wanted x ↔
      c.Wanted x ∨ x = product symbol := by
  unfold Wanted
  simp only [refCount_set]
  constructor
  · rintro (hx | ⟨watched, hcount, rfl⟩)
    · exact .inl (.inl hx)
    · by_cases hsymbol : symbol = watched
      · exact .inr (congrArg product hsymbol.symm)
      · rw [if_neg hsymbol] at hcount
        exact .inl (.inr ⟨watched, hcount, rfl⟩)
  · rintro ((hx | ⟨watched, hcount, rfl⟩) | rfl)
    · exact .inl hx
    · refine .inr ⟨watched, ?_, rfl⟩
      split
      · exact h
      · exact hcount
    · exact .inr ⟨symbol, by rwa [if_pos rfl], rfl⟩

/-- A symbol given up leaves its product to the coverage. -/
theorem wanted_delete :
    ({ c with subscriptions := c.subscriptions.filter fun r => r.1 ≠ symbol } :
      CoinbaseClient).Wanted x ↔
        c.Wanted x ∧ (x = product symbol → x ∈ c.coverageProducts) := by
  unfold Wanted
  simp only [refCount_delete]
  constructor
  · rintro (hx | ⟨watched, hcount, rfl⟩)
    · exact ⟨.inl hx, fun _ => hx⟩
    · by_cases hsymbol : watched = symbol
      · rw [if_pos hsymbol] at hcount
        exact absurd hcount (lt_irrefl 0)
      · rw [if_neg hsymbol] at hcount
        exact ⟨.inr ⟨watched, hcount, rfl⟩, fun heq => absurd (product_injective heq) hsymbol⟩
  · rintro ⟨hx | ⟨watched, hcount, rfl⟩, hcovered⟩
    · exact .inl hx
    · by_cases hsymbol : watched = symbol
      · exact .inl (hcovered (congrArg product hsymbol))
      · exact .inr ⟨watched, by rwa [if_neg hsymbol], rfl⟩

theorem wanted_send {frames : List CoinbaseFrame} : (c.send frames).Wanted x ↔ c.Wanted x :=
  Iff.rfl

theorem wanted_of_refCount (h : 0 < c.refCount symbol) : c.Wanted (product symbol) :=
  .inr ⟨symbol, h, rfl⟩

theorem inSync_subscribeToSymbol_iff (hsync : c.InSync) :
    (c.subscribeToSymbol symbol).InSync ↔
      (c.Live → c.state ≠ .connected → c.Wanted (product symbol)) := by
  unfold subscribeToSymbol
  dsimp only
  split
  · next h =>
      rw [inSync_call_iff (fun P y => P ∨ y = product symbol) hsync rfl]
      · refine iff_of_true (fun _ x => (wanted_set (Nat.succ_pos _)).symm) ?_
        exact fun _ hstate => absurd h.2 hstate
      · exact fun F y => mem_foldl_one
  · next h =>
      refine Iff.trans (inSync_quiet_iff hsync rfl) ?_
      simp only [wanted_set (Nat.succ_pos (c.refCount symbol))]
      constructor
      · intro hwanted hlive _
        exact (hwanted hlive (product symbol)).mpr (.inr rfl)
      · intro hwanted hlive x
        have hproduct : c.Wanted (product symbol) := by
          by_cases hstate : c.state = .connected
          · apply wanted_of_refCount
            exact Nat.pos_of_ne_zero fun hzero => h ⟨hzero, hstate⟩
          · exact hwanted hlive hstate
        refine ⟨.inl, ?_⟩
        rintro (hx | rfl)
        · exact hx
        · exact hproduct

theorem inSync_unsubscribeFromSymbol_iff (hsync : c.InSync) :
    (c.unsubscribeFromSymbol symbol).InSync ↔
      (c.Live → c.refCount symbol ≤ 1 →
        if c.state = .connected then product symbol ∉ c.coverageProducts
        else c.refCount symbol = 1 → product symbol ∈ c.coverageProducts) := by
  unfold unsubscribeFromSymbol
  dsimp only
  by_cases hcount : c.refCount symbol ≤ 1
  · rw [if_pos hcount]
    by_cases hstate : c.state = .connected
    · -- the product is unsubscribed, whoever else wants it
      simp only [if_pos hstate]
      refine Iff.trans (inSync_call_iff (fun P y => P ∧ y ≠ product symbol) hsync rfl ?_) ?_
      · exact fun F y => mem_foldl_unsubscribe
      · simp only [wanted_send, wanted_delete]
        constructor
        · intro hwanted hlive _ hcovered
          have hx := (hwanted hlive (product symbol)).mpr ⟨.inl hcovered, fun _ => hcovered⟩
          exact hx.2 rfl
        · intro hfree hlive x
          refine and_congr_right fun _ => ⟨fun hne heq => absurd heq hne, ?_⟩
          rintro hcovered rfl
          exact hfree hlive hcount (hcovered rfl)
    · simp only [if_neg hstate]
      refine Iff.trans (inSync_quiet_iff hsync rfl) ?_
      simp only [wanted_delete]
      constructor
      · intro hwanted hlive _ hone
        have hproduct := wanted_of_refCount (Nat.lt_of_lt_of_eq Nat.one_pos hone.symm)
        exact ((hwanted hlive (product symbol)).mp hproduct).2 rfl
      · intro hcovered hlive x
        refine ⟨fun hx => ⟨hx, ?_⟩, And.left⟩
        rintro rfl
        rcases hx with hx | ⟨watched, hpos, hwatched⟩
        · exact hx
        · obtain rfl := product_injective hwatched
          exact hcovered hlive hcount (by omega)
  · rw [if_neg hcount]
    refine iff_of_true (Iff.mpr (inSync_quiet_iff hsync rfl) ?_) fun _ hle => absurd hle hcount
    have hproduct : c.Wanted (product symbol) := wanted_of_refCount (by omega)
    intro _ x
    rw [wanted_set (by omega)]
    refine ⟨.inl, ?_⟩
    rintro (hx | rfl)
    · exact hx
    · exact hproduct

theorem mem_freshProducts (coverage ps : List String) :
    x ∈ coverage ∨ x ∈ freshProducts coverage ps ↔ x ∈ coverage ∨ x ∈ ps := by
  induction ps generalizing coverage with
  | nil => rfl
  | cons p ps ih =>
      rw [freshProducts]
      split
      · next hmem =>
          rw [ih, List.mem_cons]
          refine ⟨Or.imp_right .inr, ?_⟩
          rintro (hx | rfl | hx)
          · exact .inl hx
          · exact .inl hmem
          · exact .inr hx
      · have hih := ih (coverage ++ [p])
        rw [List.mem_append, List.mem_singleton, or_assoc, or_assoc] at hih
        rw [List.mem_cons, List.mem_cons]
        exact hih

theorem wanted_append {ps : List String} :
    ({ c with coverageProducts := c.coverageProducts ++ ps } : CoinbaseClient).Wanted x ↔
      c.Wanted x ∨ x ∈ ps := by
  unfold Wanted
  dsimp only
  rw [List.mem_append]
  exact or_right_comm

/-- A product that is covered already adds nothing. -/
theorem wanted_or_mem_freshProducts {ps : List String} :
    c.Wanted x ∨ x ∈ freshProducts c.coverageProducts ps ↔ c.Wanted x ∨ x ∈ ps := by
  unfold Wanted
  rw [or_right_comm, mem_freshProducts, or_right_comm]

theorem inSync_subscribeForCoverage_iff {symbols : List String} (hsync : c.InSync) :
    (c.subscribeForCoverage toUpperCase symbols).InSync ↔
      (c.Live → c.state ≠ .connected → ∀ sym ∈ symbols, c.Wanted (product (toUpperCase sym))) := by
  unfold subscribeForCoverage
  dsimp only
  split
  · next h =>
      refine iff_of_true ?_ fun _ hstate => absurd h.2 hstate
      refine Iff.mpr (inSync_call_iff (fun P y => P ∨ y ∈ freshProducts c.coverageProducts
        (symbols.map fun sym => product (toUpperCase sym))) hsync rfl ?_) ?_
      · exact fun F y => mem_foldl_batchSubscribe _
      · intro _ x
        rw [wanted_send, wanted_append]
  · next h =>
      refine Iff.trans (inSync_quiet_iff hsync rfl) ?_
      simp only [wanted_append, wanted_or_mem_freshProducts]
      constructor
      · intro hwanted hlive _ sym hsym
        exact (hwanted hlive _).mpr (.inr (List.mem_map_of_mem hsym))
      · intro hwanted hlive x
        refine ⟨.inl, ?_⟩
        rintro (hx | hx)
        · exact hx
        · obtain ⟨sym, hsym, rfl⟩ := List.mem_map.mp hx
          by_cases hstate : c.state = .connected
          · have hnil : freshProducts c.coverageProducts
                (symbols.map fun sym => product (toUpperCase sym)) = [] := by
              by_contra hne
              exact h ⟨hne, hstate⟩
            have hfresh := (@wanted_or_mem_freshProducts c _ _).mpr (.inr hx)
            rw [hnil] at hfresh
            exact hfresh.resolve_right List.not_mem_nil
          · exact hwanted hlive hstate sym hsym

end Calls

/-! ## Sockets -/

section Sockets

variable {c c' : CoinbaseClient} {s : CoinbaseSocket} {x : String}
  {frames : List CoinbaseFrame} {toUpperCase : String → String}

theorem exists_row_iff (hcounted : ∀ r ∈ c.subscriptions.rows, 0 < r.2) :
    (∃ r ∈ c.subscriptions.rows, x = product r.1) ↔
      ∃ symbol, 0 < c.refCount symbol ∧ x = product symbol := by
  constructor
  · rintro ⟨r, hr, rfl⟩
    have hfind : c.subscriptions.find? r.1 = some r := Table.find?_eq_some_iff.mpr ⟨hr, rfl⟩
    refine ⟨r.1, ?_, rfl⟩
    unfold refCount
    rw [hfind]
    exact hcounted r hr
  · rintro ⟨symbol, hcount, rfl⟩
    unfold refCount at hcount
    cases hfind : c.subscriptions.find? symbol with
    | none =>
        rw [hfind] at hcount
        exact absurd hcount (lt_irrefl 0)
    | some r =>
        obtain ⟨hr, rfl⟩ := Table.find?_eq_some_iff.mp hfind
        exact ⟨r, hr, rfl⟩

/-- Opening sends every wanted product, and nothing else. -/
theorem inSync_onOpen (hcounted : ∀ r ∈ c.subscriptions.rows, 0 < r.2)
    (hticker : ∀ s, c.ws = some s → s.readyState = .opened → ∀ x ∈ s.ticker, c.Wanted x) :
    c.onOpen.InSync := by
  intro s' hs' hopened' x
  obtain ⟨s, hs, rfl⟩ := Option.map_eq_some_iff.mp hs'
  rw [readyState_send] at hopened'
  have hrows :
      (c.subscriptions.rows.map fun r : String × ℕ => CoinbaseFrame.subscribe [product r.1]) =
        (c.subscriptions.rows.map fun r : String × ℕ => [product r.1]).map
          CoinbaseFrame.subscribe := by
    rw [List.map_map]
    rfl
  have hresent : x ∈ s.ticker ∨ c.Wanted x ↔ c.Wanted x :=
    or_iff_right_of_imp (hticker s hs hopened' x)
  change _ ↔ c.Wanted x
  rw [sent_send hopened', foldl_heartbeats, List.foldl_append, hrows,
    mem_foldl_batchSubscribe, mem_foldl_subscribe, ← hresent, or_assoc]
  apply or_congr_right
  unfold Wanted
  rw [or_comm, ← exists_row_iff hcounted]
  simp

theorem Sound.of_eq (h : c.Sound) (hsubscriptions : c'.subscriptions = c.subscriptions)
    (hws : c'.ws = c.ws) : c'.Sound where
  counted := by
    rw [hsubscriptions]
    exact h.counted
  silent := by
    rw [hws]
    exact h.silent

theorem Sound.send (h : c.Sound) : (c.send frames).Sound where
  counted := h.counted
  silent := by
    intro s' hs' hconnecting
    obtain ⟨s, hs, rfl⟩ := Option.map_eq_some_iff.mp hs'
    rw [readyState_send] at hconnecting
    have hsend : s.send frames = s := by
      unfold CoinbaseSocket.send
      rw [if_neg]
      rw [hconnecting]
      decide
    rw [hsend]
    exact h.silent s hs hconnecting

/-- A socket that is not connecting may replace the one there was. -/
theorem Sound.replace (h : c.Sound) (hs : s.readyState ≠ .connecting) :
    ({ c with ws := some s } : CoinbaseClient).Sound where
  counted := h.counted
  silent := by
    rintro _ ⟨⟩ hconnecting
    exact absurd hconnecting hs

theorem Sound.openSocket (h : c.Sound) : c.openSocket.Sound where
  counted := h.counted
  silent := by
    rintro _ ⟨⟩ -
    rfl

theorem Sound.onOpen (h : c.Sound) : c.onOpen.Sound :=
  (h.of_eq rfl rfl : ({ c with state := .connected } : CoinbaseClient).Sound).send

theorem Sound.onClose (h : c.Sound) : c.onClose.Sound := by
  unfold CoinbaseClient.onClose
  split
  · exact h
  · exact h.of_eq rfl rfl

theorem Sound.set (h : c.Sound) {symbol : String} {count : ℕ} (hcount : 0 < count) :
    ({ c with subscriptions := c.subscriptions.set (symbol, count) } : CoinbaseClient).Sound where
  counted := by
    intro r hr
    rcases Table.mem_rows_set.mp hr with rfl | ⟨hr, -⟩
    · exact hcount
    · exact h.counted r hr
  silent := h.silent

theorem Sound.delete (h : c.Sound) {symbol : String} :
    ({ c with subscriptions := c.subscriptions.filter fun r => r.1 ≠ symbol } :
      CoinbaseClient).Sound where
  counted := fun r hr => h.counted r (List.mem_of_mem_filter hr)
  silent := h.silent

/-! ## Steps -/

/-- The same socket and the same two owners. -/
structure SameOwners (c c' : CoinbaseClient) : Prop where
  subscriptions : c'.subscriptions = c.subscriptions
  coverage : c'.coverageProducts = c.coverageProducts
  ws : c'.ws = c.ws

/-- What a step that is no call does to the socket. -/
inductive SocketStep (c : CoinbaseClient) : CoinbaseClient → Prop
  | stays : SocketStep c c
  | disconnects : SocketStep c c.disconnect
  | reopens {c' : CoinbaseClient} (h : c.SameOwners c') : SocketStep c c'.openSocket
  | opens {s : CoinbaseSocket} (hs : c.ws = some s) (h : s.readyState = .connecting) :
      SocketStep c { c with ws := some { s with readyState := .opened } }.onOpen
  | drops {s : CoinbaseSocket} (h : s.readyState = .closing) : SocketStep c { c with ws := some s }
  | closes {s : CoinbaseSocket} (h : s.readyState = .closed) :
      SocketStep c { c with ws := some s }.onClose
  | strayOpens {c' : CoinbaseClient} (h : c.SameOwners c') : SocketStep c c'.onOpen
  | strayCloses {c' : CoinbaseClient} (h : c.SameOwners c') : SocketStep c c'.onClose

variable {act : CoinbaseAct}

theorem SocketStep.of_step (hstep : CoinbaseSteps toUpperCase c act c')
    (hcall : act.isCall = false) : c.SocketStep c' := by
  unfold CoinbaseSteps CoinbaseClient.step at hstep
  cases act with
  | connect =>
      cases hstep
      unfold CoinbaseClient.connect
      split
      · exact .stays
      · exact .reopens ⟨rfl, rfl, rfl⟩
  | disconnect =>
      cases hstep
      exact .disconnects
  | opens =>
      dsimp only at hstep
      split at hstep
      · next s hs =>
          split at hstep
          · next hconnecting =>
              cases hstep
              exact .opens hs hconnecting
          · cases hstep
      · cases hstep
  | drops =>
      dsimp only at hstep
      split at hstep
      · split at hstep
        · cases hstep
          exact .drops rfl
        · cases hstep
      · cases hstep
  | closes =>
      dsimp only at hstep
      split at hstep
      · split at hstep
        · cases hstep
        · cases hstep
          exact .closes rfl
      · cases hstep
  | strayOpens =>
      dsimp only at hstep
      split at hstep
      · cases hstep
        exact .strayOpens ⟨rfl, rfl, rfl⟩
      · cases hstep
  | strayFails =>
      dsimp only at hstep
      split at hstep
      · cases hstep
        exact .strayCloses ⟨rfl, rfl, rfl⟩
      · cases hstep
  | strayCloses =>
      dsimp only at hstep
      split at hstep
      · cases hstep
        exact .strayCloses ⟨rfl, rfl, rfl⟩
      · cases hstep
  | timerFires =>
      dsimp only at hstep
      split at hstep
      · cases hstep
        exact .reopens ⟨rfl, rfl, rfl⟩
      · cases hstep
  | subscribeToSymbol symbol => cases hcall
  | unsubscribeFromSymbol symbol => cases hcall
  | subscribeForCoverage symbols => cases hcall

theorem Sound.socketStep (h : c.Sound) (hstep : c.SocketStep c') : c'.Sound := by
  cases hstep with
  | stays => exact h
  | disconnects => exact ⟨h.counted, nofun⟩
  | reopens hsame => exact (h.of_eq hsame.subscriptions hsame.ws).openSocket
  | opens _ _ => exact (h.replace (by rintro ⟨⟩)).onOpen
  | drops hclosing => exact h.replace (by simp [hclosing])
  | closes hclosed => exact (h.replace (by simp [hclosed])).onClose
  | strayOpens hsame => exact (h.of_eq hsame.subscriptions hsame.ws).onOpen
  | strayCloses hsame => exact (h.of_eq hsame.subscriptions hsame.ws).onClose

theorem Sound.step (h : c.Sound) (hstep : CoinbaseSteps toUpperCase c act c') : c'.Sound := by
  have hsocket : act.isCall = false → c'.Sound := fun hcall => h.socketStep (.of_step hstep hcall)
  cases act with
  | subscribeToSymbol symbol =>
      cases hstep
      unfold CoinbaseClient.subscribeToSymbol
      dsimp only
      split
      · exact (h.set (Nat.succ_pos _)).send
      · exact h.set (Nat.succ_pos _)
  | unsubscribeFromSymbol symbol =>
      cases hstep
      unfold CoinbaseClient.unsubscribeFromSymbol
      dsimp only
      split
      · split
        · exact h.delete.send
        · exact h.delete
      · exact h.set (by omega)
  | subscribeForCoverage symbols =>
      cases hstep
      unfold CoinbaseClient.subscribeForCoverage
      dsimp only
      split
      · exact Sound.send (h.of_eq rfl rfl)
      · exact h.of_eq rfl rfl
  | _ => exact hsocket rfl

theorem inSync_of_not_live (h : ¬ c.Live) : c.InSync :=
  fun s hs hopened => absurd ⟨s, hs, hopened⟩ h

theorem InSync.sameOwners (hsync : c.InSync) (h : c.SameOwners c') : c'.InSync := by
  refine (inSync_quiet_iff hsync h.ws).mpr fun _ x => ?_
  unfold Wanted refCount
  rw [h.subscriptions, h.coverage]

theorem InSync.onClose (hsync : c.InSync) : c.onClose.InSync := by
  unfold CoinbaseClient.onClose
  split
  · exact hsync
  · exact hsync.sameOwners ⟨rfl, rfl, rfl⟩

theorem inSync_openSocket : c.openSocket.InSync := by
  rintro _ ⟨⟩ hopened
  cases hopened

/-- Whatever else happens keeps an open socket in sync. -/
theorem InSync.socketStep (hsound : c.Sound) (hsync : c.InSync) (hstep : c.SocketStep c') :
    c'.InSync := by
  cases hstep with
  | stays => exact hsync
  | disconnects => exact inSync_of_not_live nofun
  | reopens _ => exact inSync_openSocket
  | opens hs hconnecting =>
      refine inSync_onOpen hsound.counted ?_
      rintro _ ⟨⟩ _ x hx
      unfold CoinbaseSocket.ticker at hx
      rw [hsound.silent _ hs hconnecting] at hx
      cases hx
  | drops hclosing =>
      rintro _ ⟨⟩ hopened
      rw [hclosing] at hopened
      cases hopened
  | closes hclosed =>
      apply InSync.onClose
      rintro _ ⟨⟩ hopened
      rw [hclosed] at hopened
      cases hopened
  | strayOpens hsame =>
      have hsync' := hsync.sameOwners hsame
      refine inSync_onOpen (hsound.of_eq hsame.subscriptions hsame.ws).counted ?_
      exact fun s hs hopened x hx => (hsync' s hs hopened x).mp hx
  | strayCloses hsame => exact (hsync.sameOwners hsame).onClose

/-- A step keeps an open socket in sync exactly when the call agrees with both owners. -/
theorem inSync_step_iff (hsound : c.Sound) (hsync : c.InSync)
    (hstep : CoinbaseSteps toUpperCase c act c') : c'.InSync ↔ Agrees toUpperCase c act := by
  have hsocket : act.isCall = false → c'.InSync :=
    fun hcall => hsync.socketStep hsound (.of_step hstep hcall)
  cases act with
  | subscribeToSymbol symbol =>
      cases hstep
      exact inSync_subscribeToSymbol_iff hsync
  | unsubscribeFromSymbol symbol =>
      cases hstep
      exact inSync_unsubscribeFromSymbol_iff hsync
  | subscribeForCoverage symbols =>
      cases hstep
      exact inSync_subscribeForCoverage_iff hsync
  | _ => exact iff_of_true (hsocket rfl) trivial

theorem sound_start : ({} : CoinbaseClient).Sound := ⟨nofun, nofun⟩

theorem inSync_start : ({} : CoinbaseClient).InSync := nofun

end Sockets

end CoinbaseClient

/-! ## Runs -/

/-- All along a run the ticker channel of an open socket has the wanted products, exactly when every
call of the run agrees with both owners. -/
theorem tickerChannel_iff (toUpperCase : String → String) (acts : List CoinbaseAct)
    (c : CoinbaseClient) :
    Run (fun c act c' => CoinbaseSteps toUpperCase c act c' ∧ c'.InSync) {} acts c ↔
      Run (Guarded (CoinbaseSteps toUpperCase) (CoinbaseClient.Agrees toUpperCase)) {} acts c :=
  @Run.keeping_iff _ _ (CoinbaseSteps toUpperCase) CoinbaseClient.Sound CoinbaseClient.InSync
    (CoinbaseClient.Agrees toUpperCase) (fun _ _ _ hsound hstep => hsound.step hstep)
    (fun _ _ _ hsound hsync hstep => CoinbaseClient.inSync_step_iff hsound hsync hstep) _ _ _
    CoinbaseClient.sound_start CoinbaseClient.inSync_start

/-! ## A coverage product is unsubscribed -/

def openClient : CoinbaseClient :=
  { ({} : CoinbaseClient).connect with ws := some { readyState := .opened } }.onOpen

/-- BTC is covered, watched once and given up. -/
def coveredClient : CoinbaseClient :=
  ((openClient.subscribeForCoverage String.toUpper ["btc"]).subscribeToSymbol
    "BTC").unsubscribeFromSymbol "BTC"

theorem coverage_unsubscribed :
    Run (CoinbaseSteps String.toUpper) {}
        [.connect, .opens, .subscribeForCoverage ["btc"], .subscribeToSymbol "BTC",
          .unsubscribeFromSymbol "BTC"] coveredClient ∧
      coveredClient.Wanted "BTC-USD" ∧ coveredClient.ws.map CoinbaseSocket.ticker = some ∅ ∧
      ¬ coveredClient.InSync := by
  have hopen : coveredClient.ws.map CoinbaseSocket.readyState = some .opened := by decide +kernel
  have hticker : coveredClient.ws.map CoinbaseSocket.ticker = some ∅ := by decide +kernel
  have hcovered : "BTC-USD" ∈ coveredClient.coverageProducts := by decide +kernel
  refine ⟨.cons rfl (.cons rfl (.cons rfl (.cons rfl (.cons rfl (.nil _))))), .inl hcovered,
    hticker, fun hsync => ?_⟩
  obtain ⟨s, hs, hopened⟩ := Option.map_eq_some_iff.mp hopen
  rw [hs, Option.map_some] at hticker
  have hmem := (hsync s hs hopened "BTC-USD").mpr (.inl hcovered)
  rw [Option.some.inj hticker] at hmem
  cases hmem

end Neonfi.Prices

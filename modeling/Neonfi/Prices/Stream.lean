import Neonfi.Lib.Run
import Neonfi.Prices.Consensus

/-!
# The price stream

Ticks run concurrently: the read pipeline of one tick, its resolution in the process and the
execution of its write pipeline are steps of their own, and `refreshPrices` writes the canonical
key in between.  The process compares each price with the one of the pipeline it issued last.
-/

namespace Neonfi.Prices

open Lib
open Ledger (Millis)

/-! ## Redis -/

structure Expiring (α : Type) where
  value : α
  expiresAt : Millis

/-- The value under a canonical key, by its writer. -/
inductive Cached
  | resolved (payload : Canonical)
  | refreshed (price change24h : ℚ) (timestamp : Millis)

def Cached.price : Cached → ℚ
  | .resolved payload => payload.price
  | .refreshed price _ _ => price

/-- The keys of the symbols, and the messages of the price channels in their order. -/
structure Redis where
  now : Millis := 0
  ticks : String → Exchange → Option (Expiring Raw) := fun _ _ => none
  canonical : String → Option (Expiring Cached) := fun _ => none
  hist : String → List (Millis × ℚ) := fun _ => []
  histExpiresAt : String → Option Millis := fun _ => none
  channel : List (String × Canonical) := []

namespace Redis

variable (r : Redis)

def get {α : Type} (key : Option (Expiring α)) : Option α :=
  (key.filter fun e => r.now < e.expiresAt).map Expiring.value

def history (sym : String) : List (Millis × ℚ) :=
  if (r.histExpiresAt sym).any (· ≤ r.now) then [] else r.hist sym

def apply : Write → Redis
  | .set sym payload ttlS =>
      { r with
        canonical := Function.update r.canonical sym
          (some ⟨.resolved payload, r.now + 1000 * ttlS⟩) }
  | .publish sym payload => { r with channel := r.channel ++ [(sym, payload)] }
  | .lpush sym ts price =>
      { r with
        hist := Function.update r.hist sym ((ts, price) :: r.history sym)
        histExpiresAt := Function.update r.histExpiresAt sym
          ((r.histExpiresAt sym).filter (r.now < ·)) }
  | .ltrim sym start stop =>
      { r with hist := Function.update r.hist sym ((r.history sym).extract start (stop + 1)) }
  | .expire sym ttlS =>
      { r with
        histExpiresAt := Function.update r.histExpiresAt sym (some (r.now + 1000 * ttlS)) }

def setTick (sym : String) (exchange : Exchange) (tick : Raw) : Redis :=
  { r with
    ticks := Function.update r.ticks sym
      (Function.update (r.ticks sym) exchange (some ⟨tick, r.now + 1000 * priceTtlS⟩)) }

/-- The answer of `MGET`. -/
def mget (sym : String) (exchange : Exchange) : Option Raw := r.get (r.ticks sym exchange)

/-- The price under the canonical key. -/
def canonicalPrice (sym : String) : Option ℚ := (r.get (r.canonical sym)).map Cached.price

end Redis

/-! ## Steps -/

/-- A write pipeline, and the symbol it is about. -/
structure Pipeline where
  symbol : String
  writes : List Write

/-- A tick whose read pipeline is answered. -/
structure Reading where
  symbol : String
  now : Millis
  raws : Exchange → Option Raw

/-- Redis, the bookkeeping of the process, the ticks between their two pipelines, and the write
pipelines that are issued. -/
structure Feed where
  redis : Redis := {}
  book : Bookkeeping := {}
  reading : ℕ → Option Reading := fun _ => none
  queue : List Pipeline := []

/-- Time passes; the read pipeline of a tick runs; the tick is resolved and its write pipeline
issued; the next write pipeline runs; a refresh writes a canonical key. -/
inductive Act
  | elapse (ms : ℕ)
  | read (id : ℕ) (symbol : String) (exchange : Exchange) (price change24h : Option ℚ)
      (quote : String) (now : Millis)
  | resolve (id : ℕ)
  | exec
  | refresh (symbol : String) (price change24h : ℚ) (timestamp : Millis)

/-- The tick that is stored, if the price is one. -/
def tickOf (price change24h : Option ℚ) (quote : String) (now : Millis) : Option Raw :=
  (price.filter fun price => 0 < price).map fun price =>
    .tick (some price) (change24h.getD 0) quote now

/-- The write of `refreshPrices` for one symbol. -/
def refreshPrice (symbol : String) (price change24h : ℚ) (timestamp : Millis) (r : Redis) : Redis :=
  { r with
    canonical := Function.update r.canonical symbol
      (some ⟨.refreshed price change24h timestamp, r.now + 1000 * priceTtlS⟩) }

namespace Feed

variable (ratio : ℚ) (toUpperCase : String → String) (s : Feed)

def read (id : ℕ) (symbol : String) (exchange : Exchange) (price change24h : Option ℚ)
    (quote : String) (now : Millis) : Feed :=
  match tickOf price change24h quote now with
  | none => s
  | some tick =>
      let sym := toUpperCase symbol
      let redis := s.redis.setTick sym exchange tick
      { s with
        redis
        reading := Function.update s.reading id (some ⟨sym, now, redis.mget sym⟩) }

/-- Without a fresh source no pipeline is issued. -/
def issue (symbol : String) (writes : List Write) (book : Bookkeeping) : Feed :=
  { s with
    book
    queue := if writes = [] then s.queue else s.queue ++ [⟨symbol, writes⟩] }

def resolve (id : ℕ) (reading : Reading) : Feed :=
  let (writes, book) :=
    resolveCanonical ratio reading.symbol reading.now reading.raws s.book
  { s with reading := Function.update s.reading id none }.issue reading.symbol writes book

def step : Act → Option Feed
  | .elapse ms => some { s with redis := { s.redis with now := s.redis.now + ms } }
  | .read id symbol exchange price change24h quote now =>
      if s.reading id = none then
        some (s.read toUpperCase id symbol exchange price change24h quote now)
      else none
  | .resolve id => (s.reading id).map (s.resolve ratio id)
  | .exec =>
      match s.queue with
      | [] => none
      | p :: queue => some { s with redis := p.writes.foldl Redis.apply s.redis, queue }
  | .refresh symbol price change24h timestamp =>
      some { s with redis := refreshPrice symbol price change24h timestamp s.redis }

end Feed

def Steps (ratio : ℚ) (toUpperCase : String → String) (s : Feed) (act : Act) (s' : Feed) : Prop :=
  s.step ratio toUpperCase act = some s'

/-- A tick alone, from its read to its resolution, is `recordTick`. -/
theorem recordTick_eq (ratio : ℚ) (toUpperCase : String → String) (symbol : String)
    (exchange : Exchange) (price change24h : Option ℚ) (quote : String) (now : Millis)
    (stored : Exchange → Option Raw) (book : Bookkeeping) :
    recordTick ratio toUpperCase symbol exchange price change24h quote now stored book =
      match tickOf price change24h quote now with
      | none => (stored, [], book)
      | some tick =>
          (Function.update stored exchange (some tick),
            resolveCanonical ratio (toUpperCase symbol) now
              (Function.update stored exchange (some tick)) book) := by
  unfold recordTick tickOf
  cases price with
  | none => rfl
  | some price =>
      dsimp only
      by_cases hpos : 0 < price
      · rw [if_neg (not_le_of_gt hpos), Option.filter_some, if_pos (decide_eq_true hpos)]
        rfl
      · rw [if_pos (not_lt.mp hpos), Option.filter_some, if_neg (by simpa using hpos)]
        rfl

/-! ## What is published -/

/-- The prices published for a symbol, in order. -/
def pricesOn (channel : List (String × Canonical)) (sym : String) : List ℚ :=
  (channel.filter fun m => m.1 = sym).map fun m => m.2.price

def lastPublished (channel : List (String × Canonical)) (sym : String) : Option ℚ :=
  (pricesOn channel sym).getLast?

/-- No price is published twice in a row. -/
def NoRepeats (s : Feed) : Prop := ∀ sym, (pricesOn s.redis.channel sym).IsChain (· ≠ ·)

/-- The last price published for the symbol is the one under its canonical key. -/
def InStep (s : Feed) (sym : String) : Prop :=
  ∃ price, lastPublished s.redis.channel sym = some price ∧ s.redis.canonicalPrice sym = some price

/-- The resolution of a tick evicts nothing from the prices the process keeps. -/
def NoEviction (ratio : ℚ) (s : Feed) (act : Act) : Prop :=
  ∀ id reading source, act = .resolve id → s.reading id = some reading →
    winner ratio reading.now reading.raws = some source →
      (s.book.lastPublishedPrice.set (reading.symbol, source.2.price)).rows.length ≤
        maxTrackedSymbols

/-! ## One resolution -/

/-- The command is about the sampled history. -/
def Write.isHistory : Write → Bool
  | .lpush _ _ _ => true
  | .ltrim _ _ _ => true
  | .expire _ _ => true
  | _ => false

/-- The pipeline refreshes the key of its symbol, and publishes the price unless it is the last
one. -/
def Pipeline.Sound (last : Option ℚ) (price : ℚ) (p : Pipeline) : Prop :=
  ∃ payload sampled, payload.price = price ∧
    p.writes = .set p.symbol payload priceTtlS ::
      ((if last = some price then [] else [.publish p.symbol payload]) ++ sampled) ∧
    ∀ w ∈ sampled, w.isHistory

/-- The price that the process has noted for a symbol. -/
def Bookkeeping.lastPrice (book : Bookkeeping) (sym : String) : Option ℚ :=
  (book.lastPublishedPrice.find? sym).map Prod.snd

section Resolve

variable {ratio : ℚ} {sym : String} {now : Millis} {raws : Exchange → Option Raw}
  {book : Bookkeeping} {source : Source}

theorem capMap_of_length_le {α : Type} {map : Table (String × α) String Prod.fst}
    (h : map.rows.length ≤ maxTrackedSymbols) : capMap map = map := by
  have hevicted : map.rows.length - maxTrackedSymbols = 0 := Nat.sub_eq_zero_of_le h
  apply Table.ext
  unfold capMap
  dsimp only
  rw [hevicted, List.drop_zero]

theorem lastPrice_publish {payload : Canonical}
    (h : (book.lastPublishedPrice.set (sym, payload.price)).rows.length ≤ maxTrackedSymbols)
    (other : String) :
    (book.publish sym payload).2.lastPrice other =
      if other = sym then some payload.price else book.lastPrice other := by
  unfold Bookkeeping.publish
  split
  · next hsame =>
      by_cases hother : other = sym
      · rw [if_pos hother, hother]
        exact hsame
      · rw [if_neg hother]
  · unfold Bookkeeping.lastPrice
    dsimp only
    rw [capMap_of_length_le h, Table.find?_set]
    by_cases hother : other = sym
    · rw [if_pos hother.symm, if_pos hother]
      rfl
    · rw [if_neg (Ne.symm hother), if_neg hother]

theorem publish_fst {payload : Canonical} :
    (book.publish sym payload).1 =
      if book.lastPrice sym = some payload.price then [] else [.publish sym payload] := by
  unfold Bookkeeping.publish Bookkeeping.lastPrice
  rw [apply_ite Prod.fst]

theorem sample_spec (price : ℚ) :
    (∀ w ∈ (book.sample sym now price).1, w.isHistory) ∧
      ∃ sampledAt, (book.sample sym now price).2 =
        { book with lastHistSampleAt := sampledAt } := by
  unfold Bookkeeping.sample
  dsimp only
  split
  · exact ⟨by simp [Write.isHistory], _, rfl⟩
  · exact ⟨by simp, book.lastHistSampleAt, rfl⟩

/-- A resolution with a winner issues a sound pipeline and notes its price. -/
theorem resolveCanonical_spec (hwinner : winner ratio now raws = some source)
    (h : (book.lastPublishedPrice.set (sym, source.2.price)).rows.length ≤ maxTrackedSymbols) :
    Pipeline.Sound (book.lastPrice sym) source.2.price
        ⟨sym, (resolveCanonical ratio sym now raws book).1⟩ ∧
      ∀ other, (resolveCanonical ratio sym now raws book).2.lastPrice other =
        if other = sym then some source.2.price else book.lastPrice other := by
  unfold resolveCanonical
  rw [hwinner]
  dsimp only
  constructor
  · refine ⟨canonicalOf now (mergeKraken (freshSources now raws)).2 source,
      ((book.publish sym (canonicalOf now (mergeKraken (freshSources now raws)).2 source)).2.sample
        sym now source.2.price).1, rfl, ?_, (sample_spec source.2.price).1⟩
    rw [publish_fst]
    rfl
  · intro other
    obtain ⟨sampledAt, hsampled⟩ := (@sample_spec sym now
      (book.publish sym (canonicalOf now (mergeKraken (freshSources now raws)).2 source)).2
        source.2.price).2
    rw [hsampled]
    exact lastPrice_publish h other

theorem resolveCanonical_of_none (hwinner : winner ratio now raws = none) :
    resolveCanonical ratio sym now raws book = ([], book) := by
  unfold resolveCanonical
  rw [hwinner]

end Resolve

/-! ## One pipeline -/

section Execute

variable {r : Redis} {p : Pipeline} {last : Option ℚ} {price : ℚ}

theorem pricesOn_append (channel channel' : List (String × Canonical)) (sym : String) :
    pricesOn (channel ++ channel') sym = pricesOn channel sym ++ pricesOn channel' sym := by
  unfold pricesOn
  rw [List.filter_append, List.map_append]

/-- Samples leave the channel and the canonical keys alone. -/
theorem foldl_history {ws : List Write} (h : ∀ w ∈ ws, w.isHistory) (r : Redis) :
    (ws.foldl Redis.apply r).channel = r.channel ∧
      (ws.foldl Redis.apply r).canonical = r.canonical ∧
        (ws.foldl Redis.apply r).now = r.now := by
  induction ws generalizing r with
  | nil => exact ⟨rfl, rfl, rfl⟩
  | cons w ws ih =>
      have hrest := ih (fun w hw => h w (List.mem_cons_of_mem _ hw)) (r.apply w)
      have hfirst := h w List.mem_cons_self
      rw [List.foldl_cons]
      cases w with
      | set _ _ _ => cases hfirst
      | publish _ _ => cases hfirst
      | lpush _ _ _ => exact hrest
      | ltrim _ _ _ => exact hrest
      | expire _ _ => exact hrest

/-- What a sound pipeline leaves behind. -/
theorem execute_sound (h : p.Sound last price) :
    (p.writes.foldl Redis.apply r).canonicalPrice p.symbol = some price ∧
      (∀ sym, pricesOn (p.writes.foldl Redis.apply r).channel sym =
        pricesOn r.channel sym ++
          if sym = p.symbol ∧ last ≠ some price then [price] else []) := by
  obtain ⟨payload, sampled, rfl, hwrites, hsampled⟩ := h
  rw [hwrites, List.foldl_cons, List.foldl_append]
  obtain ⟨hchannel, hcanonical, hnow⟩ := foldl_history hsampled
    ((if last = some payload.price then [] else [Write.publish p.symbol payload]).foldl Redis.apply
      (r.apply (.set p.symbol payload priceTtlS)))
  constructor
  · unfold Redis.canonicalPrice Redis.get
    rw [hcanonical, hnow]
    have hkey : ∀ ws : List Write, ws = [] ∨ ws = [.publish p.symbol payload] →
        (ws.foldl Redis.apply (r.apply (.set p.symbol payload priceTtlS))).canonical p.symbol =
            some ⟨.resolved payload, r.now + 1000 * priceTtlS⟩ ∧
          (ws.foldl Redis.apply (r.apply (.set p.symbol payload priceTtlS))).now = r.now := by
      rintro ws (rfl | rfl) <;> exact ⟨Function.update_self _ _ _, rfl⟩
    obtain ⟨hvalue, hnow'⟩ := hkey (if last = some payload.price then []
      else [Write.publish p.symbol payload]) (by split <;> simp)
    rw [hvalue, hnow', Option.filter_some, if_pos]
    · rfl
    · rw [decide_eq_true_eq]
      exact Int.lt_add_of_pos_right _ (by decide)
  · intro sym
    rw [hchannel]
    by_cases hlast : last = some payload.price
    · rw [if_pos hlast, if_neg (fun h => h.2 hlast), List.append_nil]
      rfl
    · rw [if_neg hlast]
      change pricesOn (r.channel ++ [(p.symbol, payload)]) sym = _
      rw [pricesOn_append]
      congr 1
      unfold pricesOn
      by_cases hsym : sym = p.symbol
      · rw [if_pos ⟨hsym, hlast⟩, hsym]
        simp
      · rw [if_neg fun h => hsym h.1]
        simp [Ne.symm hsym]

end Execute

/-! ## Runs -/

/-- From the last published price, the issued pipelines lead to the price the process has noted;
the pipelines of other symbols do not matter. -/
inductive Flows (sym : String) : Option ℚ → List Pipeline → Option ℚ → Prop
  | nil (last : Option ℚ) : Flows sym last [] last
  | own {last noted : Option ℚ} {price : ℚ} {p : Pipeline} {queue : List Pipeline} :
      p.symbol = sym → p.Sound last price → Flows sym (some price) queue noted →
        Flows sym last (p :: queue) noted
  | other {last noted : Option ℚ} {p : Pipeline} {queue : List Pipeline} :
      p.symbol ≠ sym → Flows sym last queue noted → Flows sym last (p :: queue) noted

theorem Flows.append {sym : String} {last mid noted : Option ℚ} {queue queue' : List Pipeline}
    (h : Flows sym last queue mid) (h' : Flows sym mid queue' noted) :
    Flows sym last (queue ++ queue') noted := by
  induction h with
  | nil => exact h'
  | own hsym hsound _ ih => exact .own hsym hsound (ih h')
  | other hsym _ ih => exact .other hsym (ih h')

/-- The stream of every symbol is on its way to the noted price, without a repetition. -/
structure Streaming (s : Feed) : Prop where
  flows : ∀ sym, Flows sym (lastPublished s.redis.channel sym) s.queue (s.book.lastPrice sym)
  noRepeats : NoRepeats s

section Run

variable {ratio : ℚ} {toUpperCase : String → String} {s s' : Feed} {act : Act} {acts : List Act}

theorem streaming_start : Streaming {} where
  flows := fun _ => .nil none
  noRepeats := fun _ => .nil

theorem Streaming.of_redis (h : Streaming s) (hchannel : s'.redis.channel = s.redis.channel)
    (hqueue : s'.queue = s.queue) (hbook : s'.book = s.book) : Streaming s' where
  flows := by
    rw [hchannel, hqueue, hbook]
    exact h.flows
  noRepeats := by
    unfold NoRepeats
    rw [hchannel]
    exact h.noRepeats

/-- A resolution appends a sound pipeline, or nothing. -/
theorem Streaming.resolve (h : Streaming s) {id : ℕ} {reading : Reading}
    (hroom : ∀ source, winner ratio reading.now reading.raws = some source →
      (s.book.lastPublishedPrice.set (reading.symbol, source.2.price)).rows.length ≤
        maxTrackedSymbols) : Streaming (s.resolve ratio id reading) := by
  unfold Feed.resolve
  cases hwinner : winner ratio reading.now reading.raws with
  | none =>
      rw [resolveCanonical_of_none hwinner]
      exact h.of_redis rfl rfl rfl
  | some source =>
      obtain ⟨hsound, hnoted⟩ := resolveCanonical_spec hwinner (hroom source hwinner)
      have hne :
          (resolveCanonical ratio reading.symbol reading.now reading.raws s.book).1 ≠ [] := by
        obtain ⟨payload, sampled, -, hwrites, -⟩ := hsound
        intro hnil
        change (resolveCanonical ratio reading.symbol reading.now reading.raws s.book).1 = _
          at hwrites
        rw [hnil] at hwrites
        cases hwrites
      refine ⟨fun sym => ?_, h.noRepeats⟩
      unfold Feed.issue
      dsimp only
      rw [if_neg hne, hnoted]
      refine (h.flows sym).append ?_
      by_cases hsym : sym = reading.symbol
      · subst hsym
        rw [if_pos rfl]
        exact .own rfl hsound (.nil _)
      · rw [if_neg hsym]
        exact .other (Ne.symm hsym) (.nil _)

/-- The next pipeline of the queue is sound where it is executed. -/
theorem Streaming.sound_head (h : Streaming s) {p : Pipeline} {queue : List Pipeline}
    (hqueue : s.queue = p :: queue) :
    ∃ price, p.Sound (lastPublished s.redis.channel p.symbol) price := by
  have hflows := h.flows p.symbol
  rw [hqueue] at hflows
  cases hflows with
  | own _ hsound _ => exact ⟨_, hsound⟩
  | other hsym _ => exact absurd rfl hsym

theorem Streaming.exec (h : Streaming s) {p : Pipeline} {queue : List Pipeline}
    (hqueue : s.queue = p :: queue) :
    Streaming { s with redis := p.writes.foldl Redis.apply s.redis, queue } ∧
      InStep { s with redis := p.writes.foldl Redis.apply s.redis, queue } p.symbol := by
  obtain ⟨price, hsound⟩ := h.sound_head hqueue
  obtain ⟨hcanonical, hprices⟩ := @execute_sound s.redis p _ price hsound
  have hlast : ∀ sym, lastPublished (p.writes.foldl Redis.apply s.redis).channel sym =
      if sym = p.symbol then some price else lastPublished s.redis.channel sym := by
    intro sym
    unfold lastPublished
    rw [hprices]
    by_cases hsym : sym = p.symbol
    · subst hsym
      rw [if_pos rfl]
      by_cases hsame : lastPublished s.redis.channel p.symbol = some price
      · rw [if_neg fun h => h.2 hsame, List.append_nil]
        exact hsame
      · rw [if_pos ⟨rfl, hsame⟩, List.getLast?_concat]
    · rw [if_neg hsym, if_neg fun h => hsym h.1, List.append_nil]
  refine ⟨⟨fun sym => ?_, fun sym => ?_⟩, price, ?_, hcanonical⟩
  · have hflows := h.flows sym
    rw [hqueue] at hflows
    dsimp only
    rw [hlast]
    cases hflows with
    | own hsym hown hrest =>
        -- both pipelines are the same, and so are their prices
        have hprice : ∀ {price'}, p.Sound (lastPublished s.redis.channel sym) price' →
            price' = price := by
          rintro price' ⟨payload, _, hpayload, hwrites, _⟩
          obtain ⟨payload', _, hpayload', hwrites', _⟩ := hsound
          rw [hwrites] at hwrites'
          have hsame := (List.cons.inj hwrites').1
          cases hsame
          rw [← hpayload, hpayload']
        rw [if_pos hsym.symm, ← hprice hown]
        exact hrest
    | other hsym hrest =>
        rw [if_neg (Ne.symm hsym)]
        exact hrest
  · dsimp only
    rw [hprices]
    split
    · next hnew =>
        obtain ⟨rfl, hne⟩ := hnew
        refine List.isChain_append.mpr ⟨h.noRepeats _, .singleton _, ?_⟩
        intro x hx y hy hxy
        cases hy
        exact hne (hxy ▸ hx)
    · rw [List.append_nil]
      exact h.noRepeats sym
  · exact (hlast p.symbol).trans (if_pos rfl)

/-- Every step keeps the streams. -/
theorem Streaming.step (h : Streaming s) (hstep : Steps ratio toUpperCase s act s')
    (hroom : NoEviction ratio s act) : Streaming s' := by
  unfold Steps Feed.step at hstep
  cases act with
  | elapse ms =>
      cases hstep
      exact h.of_redis rfl rfl rfl
  | read id symbol exchange price change24h quote now =>
      dsimp only at hstep
      split at hstep
      · cases hstep
        unfold Feed.read
        split
        · exact h
        · exact h.of_redis rfl rfl rfl
      · cases hstep
  | resolve id =>
      obtain ⟨reading, hreading, rfl⟩ := Option.map_eq_some_iff.mp hstep
      exact h.resolve fun source hsource => hroom id reading source rfl hreading hsource
  | exec =>
      dsimp only at hstep
      split at hstep
      · cases hstep
      · next p queue hqueue =>
          cases hstep
          exact (h.exec hqueue).1
  | refresh symbol price change24h timestamp =>
      cases hstep
      exact h.of_redis rfl rfl rfl

/-- A tick with a fresh source issues a pipeline for its symbol. -/
theorem exists_issued {id : ℕ} {reading : Reading} (hreading : s.reading id = some reading)
    (hfresh : (candidates reading.now reading.raws).rows ≠ [])
    (hstep : Steps ratio toUpperCase s (.resolve id) s') :
    ∃ p, p.symbol = reading.symbol ∧ s'.queue = s.queue ++ [p] := by
  obtain ⟨source, hwinner⟩ := @exists_winner ratio _ _ (dropOutliers_ne_nil hfresh)
  obtain ⟨reading', hreading', rfl⟩ := Option.map_eq_some_iff.mp hstep
  obtain rfl := Option.some.inj (hreading.symm.trans hreading')
  refine ⟨⟨reading.symbol,
    (resolveCanonical ratio reading.symbol reading.now reading.raws s.book).1⟩, rfl, ?_⟩
  unfold Feed.resolve Feed.issue
  dsimp only
  rw [if_neg]
  unfold resolveCanonical
  rw [hwinner]
  exact List.cons_ne_nil _ _

/-- In every state of every run no price was published twice in a row.  A tick with a fresh source
issues a pipeline, and after each pipeline the last price published for its symbol is the one under
the canonical key. -/
theorem priceStream_inStep
    (h : Run (Guarded (Steps ratio toUpperCase) (NoEviction ratio)) {} acts s) :
    NoRepeats s ∧
      (∀ id reading s', s.reading id = some reading →
        (candidates reading.now reading.raws).rows ≠ [] →
          Steps ratio toUpperCase s (.resolve id) s' →
            ∃ p, p.symbol = reading.symbol ∧ s'.queue = s.queue ++ [p]) ∧
      ∀ s' p, Steps ratio toUpperCase s .exec s' → s.queue.head? = some p →
        InStep s' p.symbol := by
  have hstreaming : Streaming s :=
    h.invariant (fun _ _ _ hs hstep => hs.step hstep.1 hstep.2) streaming_start
  refine ⟨hstreaming.noRepeats, fun _ _ _ hreading hfresh hstep =>
    exists_issued hreading hfresh hstep, fun s' p hstep hhead => ?_⟩
  obtain ⟨queue, hqueue⟩ := List.head?_eq_some_iff.mp hhead
  unfold Steps Feed.step at hstep
  rw [hqueue] at hstep
  cases hstep
  exact (hstreaming.exec hqueue).2

end Run

/-! ## A tick and a refresh -/

def btcFeed : Feed :=
  ({} : Feed).read String.toUpper 0 "BTC" .binance (some 100) (some 1) "USD" 1000

/-- The user refreshes the price while the tick is on its way. -/
def refreshedFeed : Feed := { btcFeed with redis := refreshPrice "BTC" 90 0 1001 btcFeed.redis }

def btcReading : Reading :=
  ⟨"BTC".toUpper, 1000, (({} : Redis).setTick "BTC".toUpper .binance
    (.tick (some 100) 1 "USD" 1000)).mget "BTC".toUpper⟩

/-- The write pipeline of the tick is issued. -/
def resolvedFeed : Feed := refreshedFeed.resolve 5 0 btcReading

theorem priceStream_resolvedFeed :
    NoRepeats resolvedFeed ∧
      (∀ id reading s', resolvedFeed.reading id = some reading →
        (candidates reading.now reading.raws).rows ≠ [] →
          Steps 5 String.toUpper resolvedFeed (.resolve id) s' →
            ∃ p, p.symbol = reading.symbol ∧ s'.queue = resolvedFeed.queue ++ [p]) ∧
      ∀ s' p, Steps 5 String.toUpper resolvedFeed .exec s' →
        resolvedFeed.queue.head? = some p → InStep s' p.symbol := by
  have hread : Steps 5 String.toUpper {}
      (.read 0 "BTC" .binance (some 100) (some 1) "USD" 1000) btcFeed := rfl
  have hrefresh : Steps 5 String.toUpper btcFeed (.refresh "BTC" 90 0 1001) refreshedFeed := rfl
  have hreading : refreshedFeed.reading 0 = some btcReading := rfl
  have hresolve : Steps 5 String.toUpper refreshedFeed (.resolve 0) resolvedFeed := by
    change (refreshedFeed.reading 0).map (refreshedFeed.resolve 5 0) = some resolvedFeed
    rw [hreading]
    rfl
  refine priceStream_inStep
    (.cons ⟨hread, ?_⟩ (.cons ⟨hrefresh, ?_⟩ (.cons ⟨hresolve, ?_⟩ (.nil _))))
  · intro _ _ _ hact
    cases hact
  · intro _ _ _ hact
    cases hact
  · intro _ reading source _ _ _
    change ([(reading.symbol, source.2.price)] : List (String × ℚ)).length ≤ maxTrackedSymbols
    unfold maxTrackedSymbols
    rw [List.length_singleton]
    norm_num

end Neonfi.Prices

import Mathlib.Data.List.DropRight
import Neonfi.Lib.Casing
import Neonfi.Lib.FirstLeast
import Neonfi.Prices.Stream

/-!
# The Binance ticker stream

`handleMessage` turns one frame of the all-market stream into ticks.  A base trades against
several stable coins: of its pairs in one frame the one in the most preferred quote is recorded.
What a later frame records replaces the tick of an earlier one, whatever the quotes of the two.
-/

namespace Neonfi.Prices

open Lib
open Ledger (Millis)

/-! ## Symbols -/

inductive PreferredBinanceQuote
  | usdt
  | usdc
  | fdusd
  deriving DecidableEq, Repr

/-- In preference order. -/
def preferredBinanceQuotes : List PreferredBinanceQuote := [.usdt, .usdc, .fdusd]

namespace PreferredBinanceQuote

def text : PreferredBinanceQuote → String
  | .usdt => "USDT"
  | .usdc => "USDC"
  | .fdusd => "FDUSD"

/-- `PREFERRED_BINANCE_QUOTES.indexOf(quote)`; the smaller number wins. -/
def rank (quote : PreferredBinanceQuote) : ℕ := preferredBinanceQuotes.idxOf quote

theorem text_injective : Function.Injective text := by
  intro q q' h
  cases q <;> cases q' <;> first | rfl | exact absurd h (by decide)

end PreferredBinanceQuote

/-- The runtime's case mapping and number parser, whose `none` is a number that is not finite, and
the working set of the catalog. -/
structure BinanceEnv where
  casing : UpperCase
  parseFloat : String → Option ℚ
  catalogSymbols : List String

variable (env : BinanceEnv)

/-- The base and the quote of a symbol, if the quote is a preferred one. -/
def fromBinanceSymbol (symbol : String) : Option (String × PreferredBinanceQuote) :=
  let s := env.casing.toUpperCase symbol
  preferredBinanceQuotes.findSome? fun quote =>
    if quote.text.length < s.length ∧ quote.text.toList <:+ s.toList then
      some (String.ofList (s.toList.rdrop quote.text.length), quote)
    else none

def isCatalogSymbol (sym : String) : Bool := env.casing.toUpperCase sym ∈ env.catalogSymbols

/-! ## Frames -/

/-- An element of a frame: the symbol, the last price and the change in percent. -/
structure Ticker where
  s : Option String
  c : Option String
  P : Option String

/-- A message as `JSON.parse` reads it.  An element that is no object is `none`; the
acknowledgement of a subscription is no array. -/
inductive BinanceMessage
  | unreadable
  | other
  | frame (elements : List (Option Ticker))

/-- The last price of a base in one of its quotes. -/
structure Pair where
  base : String
  quote : PreferredBinanceQuote
  price : ℚ
  change24h : Option ℚ
  deriving DecidableEq

/-- What an element says, if it is about a symbol of the catalog in a preferred quote; the empty
text counts as absent. -/
def pairOf (element : Option Ticker) : Option Pair := do
  let t ← element
  let symbol ← t.s.filter (· ≠ "")
  let lastPrice ← t.c.filter (· ≠ "")
  let (base, quote) ← fromBinanceSymbol env symbol
  if isCatalogSymbol env base then
    let price ← env.parseFloat lastPrice
    let change24h :=
      match t.P.filter (· ≠ "") with
      | some rawChange => env.parseFloat rawChange
      | none => some 0
    some { base, quote, price, change24h }
  else none

def BinanceMessage.pairs : BinanceMessage → List Pair
  | .frame elements => elements.filterMap (pairOf env)
  | _ => []

/-- The loop over the elements: a pair replaces that of its base only if its quote is more
preferred. -/
def bestPairs (m : BinanceMessage) : Table Pair String Pair.base :=
  (m.pairs env).foldl (keepLeast fun p => p.quote.rank) .empty

/-- The calls of `recordTick`, in their order. -/
def handleMessage (m : BinanceMessage) : List Pair := (bestPairs env m).rows

/-! ## Steps -/

/-- The ticks of a message are recorded at once, each with its own reading of the clock.
Everything else in the feed goes on in between. -/
inductive BinanceAct
  | message (m : BinanceMessage) (ids : String → ℕ) (clock : String → Millis)
  | other (act : Act)

def recordPair (ids : String → ℕ) (clock : String → Millis) (p : Pair) : Act :=
  .read (ids p.base) p.base .binance (some p.price) p.change24h p.quote.text (clock p.base)

def Act.isBinance : Act → Bool
  | .read _ _ .binance _ _ _ _ => true
  | _ => false

def BinanceSteps (ratio : ℚ) (s : Feed) : BinanceAct → Feed → Prop
  | .message m ids clock, t =>
      Run (Steps ratio env.casing.toUpperCase) s ((handleMessage env m).map (recordPair ids clock)) t
  | .other act, t => act.isBinance = false ∧ Steps ratio env.casing.toUpperCase s act t

/-- The stored Binance tick of a symbol came from this quote at this time. -/
def Feed.HoldsQuote (s : Feed) (sym : String) (quote : PreferredBinanceQuote) (ts : Millis) : Prop :=
  ∃ price change24h, s.redis.mget sym .binance = some (.tick price change24h quote.text ts)

/-- Where a tick replaces a still fresh one, its quote is not less preferred. -/
def KeepsPreferred (s t : Feed) : Prop :=
  ∀ sym quote quote' ts ts', s.HoldsQuote sym quote ts → t.HoldsQuote sym quote' ts' →
    ts' - ts ≤ stalenessWindowMs → quote'.rank ≤ quote.rank

/-- A message that has a symbol only in quotes less preferred than that of its still fresh tick
records nothing for it: the pair that leads has no positive price. -/
def CarriesPreferred (s : Feed) : BinanceAct → Prop
  | .message m _ clock =>
      ∀ sym quote ts, s.HoldsQuote sym quote ts → clock sym - ts ≤ stalenessWindowMs →
        (∀ p ∈ m.pairs env, p.base = sym → quote.rank < p.quote.rank) →
          ∀ p ∈ ((m.pairs env).filter fun p => p.base = sym).argmin fun p => p.quote.rank,
            p.price ≤ 0
  | .other _ => True

/-! ## What one step records -/

section Step

variable {env : BinanceEnv} {ratio : ℚ} {s t : Feed}

/-- A base is upper-case already, so `recordTick` files its tick under the base itself. -/
theorem toUpperCase_base {symbol base : String} {quote : PreferredBinanceQuote}
    (h : fromBinanceSymbol env symbol = some (base, quote)) :
    env.casing.toUpperCase base = base := by
  unfold fromBinanceSymbol at h
  obtain ⟨q, -, hq⟩ := List.exists_of_findSome?_eq_some h
  split at hq
  · cases hq
    apply env.casing.toUpperCase_of_subset
    rw [String.toList_ofList, List.rdrop]
    exact List.take_subset _ _
  · cases hq

theorem toUpperCase_of_pairOf {element : Option Ticker} {p : Pair}
    (h : pairOf env element = some p) : env.casing.toUpperCase p.base = p.base := by
  unfold pairOf at h
  obtain ⟨t, -, h⟩ := Option.bind_eq_some_iff.mp h
  obtain ⟨symbol, -, h⟩ := Option.bind_eq_some_iff.mp h
  obtain ⟨lastPrice, -, h⟩ := Option.bind_eq_some_iff.mp h
  obtain ⟨⟨base, quote⟩, hsymbol, h⟩ := Option.bind_eq_some_iff.mp h
  dsimp only at h
  split at h
  · obtain ⟨price, -, h⟩ := Option.bind_eq_some_iff.mp h
    cases h
    exact toUpperCase_base hsymbol
  · cases h

theorem find?_bestPairs (m : BinanceMessage) (sym : String) :
    (bestPairs env m).find? sym =
      ((m.pairs env).filter fun p => p.base = sym).argmin fun p => p.quote.rank :=
  find?_foldl_keepLeast _ _

/-- Every recorded pair is one of the message. -/
theorem mem_pairs_of_mem {m : BinanceMessage} {p : Pair} (h : p ∈ handleMessage env m) :
    p ∈ m.pairs env := by
  have hfind : (bestPairs env m).find? p.base = some p := Table.find?_eq_some_iff.mpr ⟨h, rfl⟩
  rw [find?_bestPairs] at hfind
  exact List.mem_of_mem_filter (List.argmin_mem hfind)

theorem toUpperCase_of_mem {m : BinanceMessage} {p : Pair} (h : p ∈ handleMessage env m) :
    env.casing.toUpperCase p.base = p.base := by
  have hmem := mem_pairs_of_mem h
  unfold BinanceMessage.pairs at hmem
  cases m with
  | unreadable => cases hmem
  | other => cases hmem
  | frame elements =>
      obtain ⟨element, -, hpair⟩ := List.mem_filterMap.mp hmem
      exact toUpperCase_of_pairOf hpair

/-- The read pipeline of a tick writes its own key, if the price is one, and no other. -/
theorem mget_read {toUpperCase : String → String} {id : ℕ} {symbol quote : String}
    {exchange : Exchange} {price change24h : Option ℚ} {now : Millis}
    (h : Steps ratio toUpperCase s (.read id symbol exchange price change24h quote now) t)
    (sym : String) (e : Exchange) :
    t.redis.mget sym e =
      if sym = toUpperCase symbol ∧ e = exchange then
        (tickOf price change24h quote now).or (s.redis.mget sym e)
      else s.redis.mget sym e := by
  unfold Steps Feed.step at h
  dsimp only at h
  split at h
  · cases h
    unfold Feed.read
    cases tickOf price change24h quote now with
    | none =>
        rw [Option.none_or, ite_self]
    | some tick =>
        dsimp only [Redis.mget, Redis.setTick, Redis.get]
        by_cases hsym : sym = toUpperCase symbol
        · subst hsym
          rw [Function.update_self]
          by_cases he : e = exchange
          · rw [if_pos ⟨rfl, he⟩, he, Function.update_self, Option.some_or, Option.filter_some,
              if_pos]
            · rfl
            · exact decide_eq_true (Int.lt_add_of_pos_right _ (by decide))
          · rw [if_neg fun h => he h.2, Function.update_of_ne he]
        · rw [if_neg fun h => hsym h.1, Function.update_of_ne hsym]
  · cases h

/-- What the calls of `recordTick` leave under the Binance key of a symbol. -/
def Pair.recorded (now : Millis) (p : Pair) : Option Raw :=
  tickOf (some p.price) p.change24h p.quote.text now

theorem Pair.recorded_eq_none_iff {now : Millis} {p : Pair} :
    p.recorded now = none ↔ p.price ≤ 0 := by
  unfold Pair.recorded tickOf
  rw [Option.map_eq_none_iff, Option.filter_some]
  simp

/-- Calls for different symbols, one after the other: each symbol keeps what its own call wrote. -/
theorem mget_recordPairs {ids : String → ℕ} {clock : String → Millis} {ps : List Pair}
    (hnodup : (ps.map Pair.base).Nodup)
    (hupper : ∀ p ∈ ps, env.casing.toUpperCase p.base = p.base)
    (h : Run (Steps ratio env.casing.toUpperCase) s (ps.map (recordPair ids clock)) t)
    (sym : String) :
    t.redis.mget sym .binance =
      ((ps.find? fun p => p.base = sym).bind (Pair.recorded (clock sym))).or
        (s.redis.mget sym .binance) := by
  induction ps generalizing s with
  | nil =>
      cases h
      rfl
  | cons p ps ih =>
      obtain ⟨hfresh, hnodup⟩ := List.nodup_cons.mp hnodup
      cases h with
      | cons hfirst hrest =>
          rw [ih hnodup (fun q hq => hupper q (List.mem_cons_of_mem p hq)) hrest, mget_read hfirst,
            hupper p List.mem_cons_self]
          by_cases hsym : p.base = sym
          · subst hsym
            have hnone : ps.find? (fun q => q.base = p.base) = none := by
              rw [List.find?_eq_none]
              intro q hq hbase
              apply hfresh
              rw [← of_decide_eq_true hbase]
              exact List.mem_map_of_mem hq
            have hown : (p :: ps).find? (fun q => q.base = p.base) = some p := by simp
            rw [hnone, if_pos ⟨rfl, rfl⟩, hown]
            rfl
          · rw [if_neg fun h => hsym h.1.symm, List.find?_cons_of_neg (by simpa using hsym)]

/-- After a message the key of a symbol holds the tick of the pair that leads it. -/
theorem mget_message {m : BinanceMessage} {ids : String → ℕ} {clock : String → Millis}
    (h : BinanceSteps env ratio s (.message m ids clock) t) (sym : String) :
    t.redis.mget sym .binance =
      ((((m.pairs env).filter fun p => p.base = sym).argmin fun p => p.quote.rank).bind
        (Pair.recorded (clock sym))).or (s.redis.mget sym .binance) := by
  rw [← find?_bestPairs]
  exact mget_recordPairs (bestPairs env m).nodup (fun p hp => toUpperCase_of_mem hp) h sym

/-- A write pipeline leaves the ticks of the exchanges alone. -/
theorem foldl_ticks (ws : List Write) (r : Redis) :
    (ws.foldl Redis.apply r).ticks = r.ticks ∧ (ws.foldl Redis.apply r).now = r.now := by
  induction ws generalizing r with
  | nil => exact ⟨rfl, rfl⟩
  | cons w ws ih =>
      obtain ⟨hticks, hnow⟩ := ih (r.apply w)
      rw [List.foldl_cons, hticks, hnow]
      cases w <;> exact ⟨rfl, rfl⟩

/-- What else happens in the feed writes no Binance key; an entry may expire. -/
theorem mget_other {act : Act} (h : BinanceSteps env ratio s (.other act) t) (sym : String) :
    t.redis.mget sym .binance = none ∨ t.redis.mget sym .binance = s.redis.mget sym .binance := by
  obtain ⟨hother, hstep⟩ := h
  cases act with
  | elapse ms =>
      cases hstep
      unfold Redis.mget Redis.get
      cases hentry : s.redis.ticks sym .binance with
      | none => exact .inl rfl
      | some entry =>
          by_cases hlive : s.redis.now + ms < entry.expiresAt
          · right
            have hbefore : s.redis.now < entry.expiresAt :=
              (Int.le_add_of_nonneg_right (Int.natCast_nonneg ms)).trans_lt hlive
            simp [Option.filter_some, hlive, hbefore]
          · left
            simp [Option.filter_some, hlive]
  | read id symbol exchange price change24h quote now =>
      right
      rw [mget_read hstep, if_neg]
      rintro ⟨-, rfl⟩
      cases hother
  | resolve id =>
      right
      obtain ⟨reading, -, rfl⟩ := Option.map_eq_some_iff.mp hstep
      rfl
  | exec =>
      right
      unfold Steps Feed.step at hstep
      dsimp only at hstep
      split at hstep
      · cases hstep
      · next p queue hqueue =>
          cases hstep
          obtain ⟨hticks, hnow⟩ := foldl_ticks p.writes s.redis
          unfold Redis.mget Redis.get
          rw [hticks, hnow]
  | refresh symbol price change24h timestamp =>
      right
      cases hstep
      rfl

/-! ## Which steps keep the preferred quote -/

theorem Feed.HoldsQuote.quote_unique {sym : String} {quote quote' : PreferredBinanceQuote}
    {ts ts' : Millis} (h : s.HoldsQuote sym quote ts) (h' : t.HoldsQuote sym quote' ts')
    (hsame : t.redis.mget sym .binance = s.redis.mget sym .binance) : quote = quote' := by
  obtain ⟨price, change24h, hholds⟩ := h
  obtain ⟨price', change24h', hholds'⟩ := h'
  rw [hsame, hholds] at hholds'
  have htext := (Raw.tick.inj (Option.some.inj hholds')).2.2.1
  exact PreferredBinanceQuote.text_injective htext

theorem holdsQuote_of_recorded {sym : String} {p : Pair} {now : Millis} (hpos : 0 < p.price)
    (h : t.redis.mget sym .binance = (p.recorded now).or (s.redis.mget sym .binance)) :
    t.HoldsQuote sym p.quote now := by
  refine ⟨some p.price, p.change24h.getD 0, ?_⟩
  rw [h]
  unfold Pair.recorded tickOf
  rw [Option.filter_some, if_pos (decide_eq_true hpos)]
  rfl

/-- A message replaces no still fresh tick by one in a less preferred quote exactly when it carries
a preferred quote wherever it records something. -/
theorem keepsPreferred_message_iff {m : BinanceMessage} {ids : String → ℕ}
    {clock : String → Millis} (h : BinanceSteps env ratio s (.message m ids clock) t) :
    KeepsPreferred s t ↔ CarriesPreferred env s (.message m ids clock) := by
  constructor
  · intro hkeeps sym quote ts hholds hfresh hworse p hleads
    by_contra hpos
    have hmem := List.mem_filter.mp (List.argmin_mem hleads)
    have hmget := mget_message h sym
    rw [Option.mem_def.mp hleads, Option.bind_some] at hmget
    have hnew := holdsQuote_of_recorded (not_le.mp hpos) hmget
    have hle := hkeeps sym quote p.quote ts (clock sym) hholds hnew hfresh
    exact absurd hle (not_le.mpr (hworse p hmem.1 (of_decide_eq_true hmem.2)))
  · intro hcarries sym quote quote' ts ts' hholds hholds' hfresh
    have hmget := mget_message h sym
    cases hleads : ((m.pairs env).filter fun p => p.base = sym).argmin fun p => p.quote.rank with
    | none =>
        rw [hleads] at hmget
        rw [hholds.quote_unique hholds' hmget]
    | some p =>
        rw [hleads, Option.bind_some] at hmget
        by_cases hpos : 0 < p.price
        · -- the tick of the leading pair is the new one
          obtain ⟨price, change24h, hnew⟩ := holdsQuote_of_recorded hpos hmget
          obtain ⟨price', change24h', hnew'⟩ := hholds'
          rw [hnew] at hnew'
          obtain ⟨-, -, htext, hts⟩ := Raw.tick.inj (Option.some.inj hnew')
          obtain rfl := PreferredBinanceQuote.text_injective htext
          by_contra hworse
          rw [← hts] at hfresh
          refine absurd (hcarries sym quote ts hholds hfresh (fun q hq hbase => ?_) p hleads)
            (not_le.mpr hpos)
          have hmem : q ∈ (m.pairs env).filter fun p => p.base = sym :=
            List.mem_filter.mpr ⟨hq, decide_eq_true hbase⟩
          have hleast : p.quote.rank ≤ q.quote.rank :=
            @List.le_of_mem_argmin _ _ _ (fun p => p.quote.rank) _ _ _ hmem hleads
          exact (not_le.mp hworse).trans_le hleast
        · rw [Pair.recorded_eq_none_iff.mpr (not_lt.mp hpos), Option.none_or] at hmget
          rw [hholds.quote_unique hholds' hmget]

theorem keepsPreferred_other {act : Act} (h : BinanceSteps env ratio s (.other act) t) :
    KeepsPreferred s t := by
  intro sym quote quote' ts ts' hholds hholds' _
  rcases mget_other h sym with hexpired | hsame
  · obtain ⟨price, change24h, hnew⟩ := hholds'
    rw [hexpired] at hnew
    cases hnew
  · rw [hholds.quote_unique hholds' hsame]

theorem keepsPreferred_iff {act : BinanceAct} (h : BinanceSteps env ratio s act t) :
    KeepsPreferred s t ↔ CarriesPreferred env s act := by
  cases act with
  | message m ids clock => exact keepsPreferred_message_iff h
  | other act => exact iff_of_true (keepsPreferred_other h) trivial

end Step

/-! ## Runs -/

/-- All along a run no quote replaces a still fresh tick in a more preferred one, exactly when no
message of the run has a symbol only in quotes less preferred than that of its still fresh tick. -/
theorem preferredQuote_iff (ratio : ℚ) (acts : List BinanceAct) (s : Feed) :
    Run (fun s act t => BinanceSteps env ratio s act t ∧ KeepsPreferred s t) {} acts s ↔
      Run (Guarded (BinanceSteps env ratio) (CarriesPreferred env)) {} acts s := by
  constructor
  · exact fun h => h.mono fun _ _ _ hstep => ⟨hstep.1, (keepsPreferred_iff hstep.1).mp hstep.2⟩
  · exact fun h => h.mono fun _ _ _ hstep => ⟨hstep.1, (keepsPreferred_iff hstep.1).mpr hstep.2⟩

/-! ## Two frames within a second -/

/-- One coin, and prices that are whole numbers. -/
def btcEnv : BinanceEnv where
  casing := .ascii
  parseFloat text := some (Nat.ofDigitChars 10 text.toList 0)
  catalogSymbols := ["BTC"]

def pairFrame (symbol price : String) : BinanceMessage :=
  .frame [some { s := some symbol, c := some price, P := none }]

/-- The USDT pair traded last. -/
def usdtFeed : Feed :=
  ({} : Feed).read btcEnv.casing.toUpperCase 0 "BTC" .binance (some 50000) (some 0) "USDT" 1000

/-- Then the USDC pair did. -/
def usdcFeed : Feed :=
  usdtFeed.read btcEnv.casing.toUpperCase 1 "BTC" .binance (some 49000) (some 0) "USDC" 2000

theorem usdc_replaces_usdt :
    Run (BinanceSteps btcEnv 5) {}
        [.message (pairFrame "BTCUSDT" "50000") (fun _ => 0) fun _ => 1000] usdtFeed ∧
      BinanceSteps btcEnv 5 usdtFeed
        (.message (pairFrame "BTCUSDC" "49000") (fun _ => 1) fun _ => 2000) usdcFeed ∧
      usdtFeed.HoldsQuote "BTC" .usdt 1000 ∧ usdcFeed.HoldsQuote "BTC" .usdc 2000 ∧
      ¬ KeepsPreferred usdtFeed usdcFeed := by
  have hupper : btcEnv.casing.toUpperCase "BTC" = "BTC" := by decide +kernel
  have hfirst : handleMessage btcEnv (pairFrame "BTCUSDT" "50000") =
      [⟨"BTC", .usdt, 50000, some 0⟩] := by decide +kernel
  have hsecond : handleMessage btcEnv (pairFrame "BTCUSDC" "49000") =
      [⟨"BTC", .usdc, 49000, some 0⟩] := by decide +kernel
  have husdt : Steps 5 btcEnv.casing.toUpperCase {}
      (.read 0 "BTC" .binance (some 50000) (some 0) "USDT" 1000) usdtFeed := rfl
  have husdc : Steps 5 btcEnv.casing.toUpperCase usdtFeed
      (.read 1 "BTC" .binance (some 49000) (some 0) "USDC" 2000) usdcFeed := rfl
  have hholds : usdtFeed.HoldsQuote "BTC" .usdt 1000 := by
    refine ⟨some 50000, 0, ?_⟩
    rw [mget_read husdt, hupper]
    rfl
  have hholds' : usdcFeed.HoldsQuote "BTC" .usdc 2000 := by
    refine ⟨some 49000, 0, ?_⟩
    rw [mget_read husdc, hupper]
    rfl
  refine ⟨.cons ?_ (.nil _), ?_, hholds, hholds', fun hkeeps => ?_⟩
  · dsimp only [BinanceSteps]
    rw [hfirst]
    exact .cons husdt (.nil _)
  · dsimp only [BinanceSteps]
    rw [hsecond]
    exact .cons husdc (.nil _)
  · have hle := hkeeps "BTC" .usdt .usdc 1000 2000 hholds hholds' (by decide)
    exact absurd hle (by decide)

end Neonfi.Prices

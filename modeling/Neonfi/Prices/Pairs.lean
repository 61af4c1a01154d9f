import Neonfi.Prices.Binance

/-!
# Pair names and ticker frames

What the Gate.io, KuCoin, OKX, Bybit and Kraken clients make of a frame: a row names a pair in the
exchange's own way, and becomes a tick when the base is in the catalog, the quote is the one the
feed is read for and the price is a number.
-/

namespace Neonfi.Prices

open Lib

/-! ## Pair names -/

section Names

variable (U : UpperCase)

/-- `s.toUpperCase().split(sep)` -/
def pieces (sep : Char) (s : String) : List String :=
  ((U.toUpperCase s).toList.splitOn sep).map String.ofList

/-- The first two pieces, when neither is missing or empty. -/
def fromDelimited (sep : Char) (s : String) : Option (String × String) :=
  match pieces U sep s with
  | base :: quote :: _ => if base ≠ "" ∧ quote ≠ "" then some (base, quote) else none
  | _ => none

def fromGatePair (pair : String) : Option (String × String) := fromDelimited U '_' pair

def toGatePair (sym : String) : String := U.toUpperCase sym ++ "_USDT"

def fromKucoinSymbol (symbol : String) : Option (String × String) := fromDelimited U '-' symbol

/-- The OKX client splits an `instId` itself. -/
def fromOkxInstId (instId : String) : Option (String × String) := fromDelimited U '-' instId

def toOkxInstId (sym : String) : String := sym ++ "-USDT"

def toBybitSymbol (sym : String) : String := sym ++ "USDT"

/-- The codes Kraken has a name of its own for. -/
def krakenToStandard (code : String) : String :=
  if code = "XBT" then "BTC" else if code = "XDG" then "DOGE" else code

/-- Exactly two pieces. -/
def fromKrakenName (name : String) : Option (String × String) :=
  match pieces U '/' name with
  | [rawBase, quote] =>
      if rawBase ≠ "" ∧ quote ≠ "" then some (krakenToStandard rawBase, quote) else none
  | _ => none

def toKrakenPair (sym : String) : String := U.toUpperCase sym ++ "/USD"

end Names

/-! ## Frames -/

structure FeedTick where
  symbol : String
  price : ℚ
  change24h : ℚ
  quote : String
  deriving DecidableEq

variable (env : BinanceEnv)

/-- The tick of a row in the wanted quote.  A change that is no number counts as none. -/
def feedTick (wanted : String) (pair : Option (String × String)) (price change24h : Option ℚ) :
    Option FeedTick :=
  match pair, price with
  | some (base, quote), some price =>
      if quote = wanted ∧ isCatalogSymbol env base then
        some { symbol := base, price, change24h := change24h.getD 0, quote }
      else none
  | _, _ => none

/-- `(x - open) / open * 100`, if there was an opening price. -/
def percentSince (opening : Option ℚ) (price : Option ℚ) : Option ℚ :=
  (opening.filter fun o => 0 < o).bind fun o => price.map fun x => (x - o) / o * 100

structure GateRow where
  currencyPair : Option String
  last : String
  changePercentage : String

/-- A message as `JSON.parse` reads it; an element of the result that is no object is `none`. -/
inductive GateMessage
  | unreadable
  | parsed (channel event : String) (rows : List (Option GateRow))

def gateTick (row : GateRow) : Option FeedTick := do
  let pair ← row.currencyPair.filter (· ≠ "")
  feedTick env "USDT" (fromGatePair env.casing pair) (env.parseFloat row.last)
    (env.parseFloat row.changePercentage)

def handleGate : GateMessage → List FeedTick
  | .unreadable => []
  | .parsed channel event rows =>
      if channel = "spot.tickers" ∧ event = "update" then
        (rows.filterMap id).filterMap (gateTick env)
      else []

structure KucoinRow where
  symbol : Option String
  lastTradedPrice : String
  changeRate : Option String

inductive KucoinMessage
  | unreadable
  | parsed (type topic : String) (subject : Option String) (row : Option KucoinRow)

def kucoinTick (subject : Option String) (row : KucoinRow) : Option FeedTick := do
  let symbol ← (row.symbol.or subject).filter (· ≠ "")
  feedTick env "USDT" (fromKucoinSymbol env.casing symbol) (env.parseFloat row.lastTradedPrice)
    ((row.changeRate.bind env.parseFloat).map (· * 100))

def handleKucoin : KucoinMessage → List FeedTick
  | .unreadable => []
  | .parsed type topic subject row =>
      if type = "message" ∧ topic = "/market/snapshot:all" then
        (row.bind (kucoinTick env subject)).toList
      else []

structure OkxRow where
  instId : Option String
  last : String
  open24h : String

inductive OkxMessage
  | unreadable
  | parsed (channel : Option String) (data : Option (List (Option OkxRow)))

def okxTick (row : OkxRow) : Option FeedTick :=
  let price := env.parseFloat row.last
  feedTick env "USDT" (fromOkxInstId env.casing (row.instId.getD "")) price
    (percentSince (env.parseFloat row.open24h) price)

def handleOkx : OkxMessage → List FeedTick
  | .parsed channel (some rows) =>
      if channel = some "tickers" then (rows.filterMap id).filterMap (okxTick env) else []
  | _ => []

structure BybitRow where
  symbol : Option String
  lastPrice : String
  price24hPcnt : Option String

inductive BybitMessage
  | unreadable
  | parsed (topic : Option String) (row : Option BybitRow)

/-- Bybit writes a pair as Binance does. -/
def bybitTick (row : BybitRow) : Option FeedTick :=
  feedTick env "USDT"
    ((fromBinanceSymbol env (row.symbol.getD "")).map fun pair => (pair.1, pair.2.text))
    (env.parseFloat row.lastPrice) ((row.price24hPcnt.bind env.parseFloat).map (· * 100))

def handleBybit : BybitMessage → List FeedTick
  | .parsed (some topic) row =>
      if "tickers.".toList <+: topic.toList then (row.bind (bybitTick env)).toList else []
  | _ => []

inductive EventTrigger
  | trades
  | bbo
  deriving DecidableEq

/-- The numbers as they are after parsing. -/
structure KrakenRow where
  symbol : Option String
  bid : Option ℚ
  ask : Option ℚ
  last : Option ℚ
  changePct : Option ℚ

inductive KrakenMessage
  | unreadable
  | parsed (channel : String) (data : Option (List (Option KrakenRow)))

/-- The last trade, or the middle of a bid and an ask that are both positive. -/
def KrakenRow.price (row : KrakenRow) : EventTrigger → Option ℚ
  | .trades => row.last
  | .bbo =>
      (row.bid.filter fun b => 0 < b).bind fun b =>
        (row.ask.filter fun a => 0 < a).map fun a => (b + a) / 2

def krakenTick (eventTrigger : EventTrigger) (row : KrakenRow) : Option FeedTick := do
  let symbol ← row.symbol.filter (· ≠ "")
  feedTick env "USD" (fromKrakenName env.casing symbol) (row.price eventTrigger) row.changePct

def handleKraken (eventTrigger : EventTrigger) : KrakenMessage → List FeedTick
  | .parsed channel (some rows) =>
      if channel = "ticker" then (rows.filterMap id).filterMap (krakenTick env eventTrigger)
      else []
  | _ => []

/-! ## What a tick is -/

/-- Upper-casing an ASCII character is what it always is. -/
def AsciiUpper (U : UpperCase) : Prop := ∀ c, c.toNat < 128 → U.upper c = [c.toUpper]

section Ticks

variable {env : BinanceEnv} {wanted : String} {pair : Option (String × String)}
  {price change24h : Option ℚ} {tick : FeedTick}

theorem feedTick_eq_some_iff :
    feedTick env wanted pair price change24h = some tick ↔
      pair = some (tick.symbol, wanted) ∧ tick.quote = wanted ∧ price = some tick.price ∧
        tick.change24h = change24h.getD 0 ∧ isCatalogSymbol env tick.symbol = true := by
  unfold feedTick
  constructor
  · intro h
    split at h
    · split at h
      · next hwanted =>
          obtain ⟨rfl, hcatalog⟩ := hwanted
          cases h
          exact ⟨rfl, rfl, rfl, rfl, hcatalog⟩
      · cases h
    · cases h
  · rintro ⟨rfl, hquote, rfl, hchange, hcatalog⟩
    dsimp only
    rw [if_pos ⟨rfl, hcatalog⟩]
    obtain ⟨symbol, x, y, quote⟩ := tick
    dsimp only at hquote hchange
    rw [hquote, hchange]

/-! ### Splitting a pair -/

theorem toUpperCase_append (U : UpperCase) (s t : String) :
    U.toUpperCase (s ++ t) = U.toUpperCase s ++ U.toUpperCase t := by
  unfold UpperCase.toUpperCase
  rw [String.toList_append, List.flatMap_append, String.ofList_append]

theorem toUpperCase_ascii {U : UpperCase} (hU : AsciiUpper U) {s : String}
    (h : (s.toList.all fun c => decide (c.toNat < 128 ∧ c.toUpper = c)) = true) :
    U.toUpperCase s = s := by
  have hflat : ∀ cs : List Char, (∀ c ∈ cs, c.toNat < 128 ∧ c.toUpper = c) →
      cs.flatMap U.upper = cs := by
    intro cs hcs
    induction cs with
    | nil => rfl
    | cons c cs ih =>
        obtain ⟨hascii, hupper⟩ := hcs c List.mem_cons_self
        rw [List.flatMap_cons, hU c hascii, hupper,
          ih fun d hd => hcs d (List.mem_cons_of_mem c hd)]
        rfl
  unfold UpperCase.toUpperCase
  rw [hflat s.toList fun c hc => of_decide_eq_true (List.all_eq_true.mp h c hc),
    String.ofList_toList]

/-- The base is all that stands before the first delimiter. -/
theorem notMem_of_fromDelimited {U : UpperCase} {sep : Char} {s base quote : String}
    (h : fromDelimited U sep s = some (base, quote)) : sep ∉ base.toList := by
  unfold fromDelimited pieces at h
  by_cases hmem : sep ∈ (U.toUpperCase s).toList
  · obtain ⟨xs, ys, hsplit, hfree⟩ := List.eq_append_cons_of_mem hmem
    rw [hsplit, List.splitOn_append_cons_self_of_not_mem hfree, List.map_cons] at h
    split at h
    · next b q rest heq =>
        obtain ⟨rfl, -⟩ := List.cons_eq_cons.mp heq
        split at h
        · cases h
          rwa [String.toList_ofList]
        · cases h
    · cases h
  · rw [List.splitOn_eq_singleton hmem] at h
    cases h

/-- A pair splits into its base and its quote exactly when the base has no delimiter. -/
theorem fromDelimited_pair_iff {U : UpperCase} (hU : AsciiUpper U) {sep : Char} {base quote : String}
    (hbase : U.toUpperCase base = base) (hsep : sep.toNat < 128 ∧ sep.toUpper = sep)
    (hquote : (quote.toList.all fun c => decide (c.toNat < 128 ∧ c.toUpper = c)) = true)
    (hfree : sep ∉ quote.toList) (hne : quote ≠ "") :
    fromDelimited U sep (base ++ String.singleton sep ++ quote) = some (base, quote) ↔
      base ≠ "" ∧ sep ∉ base.toList := by
  have hupper : U.toUpperCase (base ++ String.singleton sep ++ quote) =
      base ++ String.singleton sep ++ quote := by
    rw [toUpperCase_append, toUpperCase_append, hbase, toUpperCase_ascii hU hquote,
      toUpperCase_ascii hU]
    rw [String.toList_singleton, List.all_cons, List.all_nil, Bool.and_true]
    exact decide_eq_true hsep
  have hchars : (base ++ String.singleton sep ++ quote).toList =
      base.toList ++ sep :: quote.toList := by
    rw [String.toList_append, String.toList_append, String.toList_singleton, List.append_assoc]
    rfl
  have hrest : quote.toList.splitOn sep = [quote.toList] :=
    List.splitOn_eq_singleton hfree
  unfold fromDelimited pieces
  rw [hupper, hchars, List.splitOn_append_cons_self, hrest]
  constructor
  · intro h
    have hfree : sep ∉ base.toList := by
      apply notMem_of_fromDelimited (U := U) (s := base ++ String.singleton sep ++ quote)
      unfold fromDelimited pieces
      rw [hupper, hchars, List.splitOn_append_cons_self, hrest]
      exact h
    refine ⟨?_, hfree⟩
    rintro rfl
    simp at h
  · rintro ⟨hnonempty, hfree⟩
    rw [List.splitOn_eq_singleton hfree]
    simp [hnonempty, hne]

/-- A Kraken pair has one delimiter, and a code of Kraken's own stands for another symbol. -/
theorem fromKrakenName_pair_iff {U : UpperCase} (hU : AsciiUpper U) {base : String}
    (hbase : U.toUpperCase base = base) (hne : base ≠ "") :
    fromKrakenName U (toKrakenPair U base) = some (base, "USD") ↔
      '/' ∉ base.toList ∧ base ≠ "XBT" ∧ base ≠ "XDG" := by
  have hupper : U.toUpperCase (toKrakenPair U base) = base ++ "/USD" := by
    unfold toKrakenPair
    rw [toUpperCase_append, hbase, hbase, toUpperCase_ascii hU (by decide)]
  have hchars : (base ++ "/USD").toList = base.toList ++ '/' :: "USD".toList := by
    rw [String.toList_append]
    rfl
  unfold fromKrakenName pieces
  rw [hupper, hchars, List.splitOn_append_cons_self,
    List.splitOn_eq_singleton (by decide : '/' ∉ "USD".toList)]
  by_cases hslash : '/' ∈ base.toList
  · obtain ⟨xs, ys, hsplit, hfree⟩ := List.eq_append_cons_of_mem hslash
    obtain ⟨z, zs, hzs⟩ := List.exists_cons_of_ne_nil (List.splitOn_ne_nil '/' ys)
    rw [hsplit, List.splitOn_append_cons_self_of_not_mem hfree, hzs]
    constructor
    · intro h
      split at h
      · next heq =>
          have hlen := congrArg List.length heq
          simp at hlen
      · cases h
    · exact fun h => absurd (List.mem_append_right xs List.mem_cons_self) h.1
  · rw [List.splitOn_eq_singleton hslash]
    simp only [List.singleton_append, List.map_cons, List.map_nil, String.ofList_toList]
    rw [if_pos ⟨hne, by decide⟩]
    unfold krakenToStandard
    constructor
    · intro h
      refine ⟨hslash, ?_, ?_⟩
      · rintro rfl
        exact absurd h (by decide)
      · rintro rfl
        exact absurd h (by decide)
    · rintro ⟨-, hxbt, hxdg⟩
      rw [if_neg hxbt, if_neg hxdg]

/-- Bybit has no delimiter: what stands before the quote is the base. -/
theorem fromBinanceSymbol_usdt (hU : AsciiUpper env.casing) {base : String}
    (hbase : env.casing.toUpperCase base = base) (hne : base ≠ "") :
    fromBinanceSymbol env (toBybitSymbol base) = some (base, .usdt) := by
  have hupper : env.casing.toUpperCase (toBybitSymbol base) = base ++ "USDT" := by
    unfold toBybitSymbol
    rw [toUpperCase_append, hbase, toUpperCase_ascii hU (by decide)]
  have hlen : PreferredBinanceQuote.usdt.text.length < (base ++ "USDT").length := by
    rw [String.length_append]
    have hpos : 0 < base.length := by
      rw [Nat.pos_iff_ne_zero]
      exact fun hzero => hne (String.length_eq_zero_iff.mp hzero)
    have htext : PreferredBinanceQuote.usdt.text.length = "USDT".length := rfl
    omega
  have hsuffix : PreferredBinanceQuote.usdt.text.toList <:+ (base ++ "USDT").toList := by
    rw [String.toList_append]
    exact List.suffix_append _ _
  have hdrop : (base ++ "USDT").toList.rdrop PreferredBinanceQuote.usdt.text.length =
      base.toList := by
    rw [String.toList_append]
    have htext : PreferredBinanceQuote.usdt.text.length = "USDT".toList.length := rfl
    rw [htext, List.rdrop_append_length]
  unfold fromBinanceSymbol preferredBinanceQuotes
  dsimp only
  rw [hupper, List.findSome?_cons, if_pos ⟨hlen, hsuffix⟩, hdrop, String.ofList_toList]

/-! ## Covered symbols -/

theorem isCatalogSymbol_of_mem {base : String} (hbase : env.casing.toUpperCase base = base)
    (hcatalog : base ∈ env.catalogSymbols) : isCatalogSymbol env base = true := by
  unfold isCatalogSymbol
  rw [hbase]
  exact decide_eq_true hcatalog

/-- A row is recorded under a symbol of the catalog exactly when its pair reads as the symbol. -/
theorem recorded_iff {base : String} {x : ℚ} (hcatalog : isCatalogSymbol env base = true) :
    (∃ tick, feedTick env wanted pair (some x) change24h = some tick ∧ tick.symbol = base ∧
      tick.price = x) ↔ pair = some (base, wanted) := by
  constructor
  · rintro ⟨tick, htick, rfl, -⟩
    exact (feedTick_eq_some_iff.mp htick).1
  · intro hpair
    exact ⟨⟨base, x, change24h.getD 0, wanted⟩,
      feedTick_eq_some_iff.mpr ⟨hpair, rfl, rfl, rfl, hcatalog⟩, rfl, rfl⟩

theorem exists_mem_rows {ρ : Type} {f : ρ → Option FeedTick} {row : ρ} {P : FeedTick → Prop} :
    (∃ tick ∈ ([some row].filterMap id).filterMap f, P tick) ↔
      ∃ tick, f row = some tick ∧ P tick := by
  simp

theorem fromDelimited_usdt_iff {U : UpperCase} (hU : AsciiUpper U) {sep : Char} {base : String}
    (hbase : U.toUpperCase base = base) (hne : base ≠ "") (hsep : sep = '_' ∨ sep = '-') :
    fromDelimited U sep (base ++ (String.singleton sep ++ "USDT")) = some (base, "USDT") ↔
      sep ∉ base.toList := by
  rw [← String.append_assoc, fromDelimited_pair_iff hU hbase]
  · exact and_iff_right hne
  · rcases hsep with rfl | rfl <;> decide
  · decide
  · rcases hsep with rfl | rfl <;> decide
  · decide

section Covered

variable {base : String} {x : ℚ} (hU : AsciiUpper env.casing)
  (hbase : env.casing.toUpperCase base = base) (hne : base ≠ "")
  (hknown : isCatalogSymbol env base = true)

include hU hbase hne hknown

theorem gate_recorded_iff {row : GateRow}
    (hpair : row.currencyPair = some (toGatePair env.casing base))
    (hlast : env.parseFloat row.last = some x) :
    (∃ tick ∈ handleGate env (.parsed "spot.tickers" "update" [some row]),
      tick.symbol = base ∧ tick.price = x) ↔ '_' ∉ base.toList := by
  have htext : toGatePair env.casing base = base ++ (String.singleton '_' ++ "USDT") := by
    unfold toGatePair
    rw [hbase]
    rfl
  have hnonempty : toGatePair env.casing base ≠ "" := by
    unfold toGatePair
    rw [hbase]
    exact fun hempty => hne (String.append_eq_empty_iff.mp hempty).1
  have htick : gateTick env row = feedTick env "USDT"
      (fromDelimited env.casing '_' (toGatePair env.casing base)) (some x)
        (env.parseFloat row.changePercentage) := by
    unfold gateTick fromGatePair
    rw [hpair, Option.filter_some, if_pos (decide_eq_true hnonempty), Option.bind_eq_bind,
      Option.bind_some, hlast]
  unfold handleGate
  dsimp only
  rw [if_pos ⟨rfl, rfl⟩, exists_mem_rows, htick, recorded_iff hknown, htext]
  exact fromDelimited_usdt_iff hU hbase hne (.inl rfl)

theorem okx_recorded_iff {row : OkxRow} (hpair : row.instId = some (toOkxInstId base))
    (hlast : env.parseFloat row.last = some x) :
    (∃ tick ∈ handleOkx env (.parsed (some "tickers") (some [some row])),
      tick.symbol = base ∧ tick.price = x) ↔ '-' ∉ base.toList := by
  have htext : toOkxInstId base = base ++ (String.singleton '-' ++ "USDT") := rfl
  have htick : okxTick env row = feedTick env "USDT"
      (fromDelimited env.casing '-' (toOkxInstId base)) (some x)
        (percentSince (env.parseFloat row.open24h) (some x)) := by
    unfold okxTick
    rw [hpair, hlast]
    rfl
  unfold handleOkx
  dsimp only
  rw [if_pos rfl, exists_mem_rows, htick, recorded_iff hknown, htext]
  exact fromDelimited_usdt_iff hU hbase hne (.inr rfl)

theorem bybit_recorded {row : BybitRow} (hpair : row.symbol = some (toBybitSymbol base))
    (hlast : env.parseFloat row.lastPrice = some x) :
    ∃ tick ∈ handleBybit env (.parsed (some ("tickers." ++ toBybitSymbol base)) (some row)),
      tick.symbol = base ∧ tick.price = x := by
  have hprefix : "tickers.".toList <+: ("tickers." ++ toBybitSymbol base).toList := by
    rw [String.toList_append]
    exact List.prefix_append _ _
  have htick : bybitTick env row = feedTick env "USDT" (some (base, "USDT")) (some x)
      ((row.price24hPcnt.bind env.parseFloat).map (· * 100)) := by
    unfold bybitTick
    rw [hpair, hlast, Option.getD_some, fromBinanceSymbol_usdt hU hbase hne]
    rfl
  obtain ⟨tick, hrecorded, hsymbol, hprice⟩ := (@recorded_iff env "USDT" (some (base, "USDT"))
    ((row.price24hPcnt.bind env.parseFloat).map (· * 100)) base x hknown).mpr rfl
  refine ⟨tick, ?_, hsymbol, hprice⟩
  unfold handleBybit
  dsimp only
  rw [if_pos hprefix, Option.bind_some, htick, hrecorded]
  exact List.mem_singleton_self tick

theorem kraken_recorded_iff {eventTrigger : EventTrigger} {row : KrakenRow}
    (hpair : row.symbol = some (toKrakenPair env.casing base))
    (hprice : row.price eventTrigger = some x) :
    (∃ tick ∈ handleKraken env eventTrigger (.parsed "ticker" (some [some row])),
      tick.symbol = base ∧ tick.price = x) ↔
        '/' ∉ base.toList ∧ base ≠ "XBT" ∧ base ≠ "XDG" := by
  have hnonempty : toKrakenPair env.casing base ≠ "" := by
    unfold toKrakenPair
    rw [hbase]
    exact fun hempty => hne (String.append_eq_empty_iff.mp hempty).1
  have htick : krakenTick env eventTrigger row = feedTick env "USD"
      (fromKrakenName env.casing (toKrakenPair env.casing base)) (some x) row.changePct := by
    unfold krakenTick
    rw [hpair, Option.filter_some, if_pos (decide_eq_true hnonempty), Option.bind_eq_bind,
      Option.bind_some, hprice]
  unfold handleKraken
  dsimp only
  rw [if_pos rfl, exists_mem_rows, htick, recorded_iff hknown]
  exact fromKrakenName_pair_iff hU hbase hne

end Covered

end Ticks

variable {env}

/-- What a feed subscribes for a symbol of the catalog and what it reads from a row about that
pair: the row is recorded under the symbol on Gate.io and OKX exactly when the symbol has no
delimiter of theirs, on Kraken when besides it is no code of Kraken's own, and on Bybit always. -/
theorem covered_update_recorded_iff (hU : AsciiUpper env.casing) {base : String} {x : ℚ}
    (hbase : env.casing.toUpperCase base = base) (hne : base ≠ "")
    (hcatalog : base ∈ env.catalogSymbols) :
    (∀ row, row.currencyPair = some (toGatePair env.casing base) →
      env.parseFloat row.last = some x →
      ((∃ tick ∈ handleGate env (.parsed "spot.tickers" "update" [some row]),
        tick.symbol = base ∧ tick.price = x) ↔ '_' ∉ base.toList)) ∧
    (∀ row, row.instId = some (toOkxInstId base) → env.parseFloat row.last = some x →
      ((∃ tick ∈ handleOkx env (.parsed (some "tickers") (some [some row])),
        tick.symbol = base ∧ tick.price = x) ↔ '-' ∉ base.toList)) ∧
    (∀ row, row.symbol = some (toBybitSymbol base) → env.parseFloat row.lastPrice = some x →
      ∃ tick ∈ handleBybit env (.parsed (some ("tickers." ++ toBybitSymbol base)) (some row)),
        tick.symbol = base ∧ tick.price = x) ∧
    (∀ eventTrigger row, row.symbol = some (toKrakenPair env.casing base) →
      row.price eventTrigger = some x →
      ((∃ tick ∈ handleKraken env eventTrigger (.parsed "ticker" (some [some row])),
        tick.symbol = base ∧ tick.price = x) ↔
          '/' ∉ base.toList ∧ base ≠ "XBT" ∧ base ≠ "XDG")) := by
  have hknown := isCatalogSymbol_of_mem hbase hcatalog
  exact ⟨fun _ => gate_recorded_iff hU hbase hne hknown,
    fun _ => okx_recorded_iff hU hbase hne hknown,
    fun _ => bybit_recorded hU hbase hne hknown,
    fun _ _ => kraken_recorded_iff hU hbase hne hknown⟩

/-- The coin of the sample catalog is read back from every feed. -/
theorem covered_update_recorded_btc :
    ∃ tick ∈ handleGate btcEnv (.parsed "spot.tickers" "update"
      [some ⟨some (toGatePair btcEnv.casing "BTC"), "50000", "1"⟩]),
      tick.symbol = "BTC" ∧ tick.price = 50000 := by
  have hU : AsciiUpper btcEnv.casing := fun c _ => rfl
  have hrow := (covered_update_recorded_iff hU (x := 50000) (by decide : _ = "BTC") (by decide)
    (by decide)).1
  exact (hrow _ rfl (by decide)).mpr (by decide)

end Neonfi.Prices

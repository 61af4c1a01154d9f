import Neonfi.Ledger.Model
import Neonfi.Lib.Median

/-!
# Canonical prices

`recordTick` and `resolveCanonical`: every exchange writes its ticks under its own key, and
each tick recomputes the one canonical price of the symbol from the fresh ticks of all
exchanges.  A resolution answers with the commands of its write pipeline, in their order.
-/

namespace Neonfi.Prices

open Lib
open Ledger (Millis)

/-! ## Exchanges -/

inductive Exchange
  | binance
  | coinbase
  | okx
  | bybit
  | gate
  | kucoin
  | kraken
  | krakenBbo
  deriving DecidableEq, Repr

/-- `SOURCE_PRIORITY[exchange] ?? 99`; the smaller number wins. -/
def sourcePriority : Exchange → ℕ
  | .binance => 0
  | .coinbase => 1
  | .okx => 2
  | .bybit => 3
  | .gate => 4
  | .kucoin => 5
  | .kraken => 6
  | .krakenBbo => 99

theorem sourcePriority_injective : Function.Injective sourcePriority := by
  intro e e' h
  cases e <;> cases e' <;> first | rfl | cases h

/-- Every per-exchange key that is read back. -/
def exchanges : List Exchange :=
  [.binance, .coinbase, .okx, .bybit, .gate, .kucoin, .kraken, .krakenBbo]

theorem nodup_exchanges : exchanges.Nodup := by decide

/-! ## Ticks -/

def priceTtlS : ℕ := 60

def stalenessWindowMs : Millis := 15000

structure ExchangeTick where
  price : ℚ
  change24h : ℚ
  quote : String
  ts : Millis
  deriving DecidableEq, Repr

/-- The text under a per-exchange key, as `JSON.parse` reads it; a price is `none` when it is
not a finite number. -/
inductive Raw
  | unreadable
  | tick (price : Option ℚ) (change24h : ℚ) (quote : String) (ts : Millis)
  deriving DecidableEq, Repr

/-- The entry of one key, if it is readable and fresh. -/
def readFresh (now : Millis) : Option Raw → Option ExchangeTick
  | some (.tick (some price) change24h quote ts) =>
      if stalenessWindowMs < now - ts then none else some { price, change24h, quote, ts }
  | _ => none

abbrev Source := Exchange × ExchangeTick

/-- A `Map` from exchanges to ticks. -/
abbrev Sources := Table Source Exchange Prod.fst

def freshSources (now : Millis) (raws : Exchange → Option Raw) : Sources :=
  .collect exchanges nodup_exchanges fun e => readFresh now (raws e)

/-- Kraken's two feeds become one candidate, the more recent of the two; the trade feed wins
a tie.  The label is the feed that was taken. -/
def mergeKraken (fresh : Sources) : Sources × Exchange :=
  let kt := (fresh.find? .kraken).map Prod.snd
  let kb := (fresh.find? .krakenBbo).map Prod.snd
  let (fresh, krakenLabel) :=
    match kt, kb with
    | none, none => (fresh, Exchange.kraken)
    | some kt, none => (fresh.set (.kraken, kt), .kraken)
    | none, some kb => (fresh.set (.kraken, kb), .krakenBbo)
    | some kt, some kb =>
        if kt.ts < kb.ts then (fresh.set (.kraken, kb), .krakenBbo)
        else (fresh.set (.kraken, kt), .kraken)
  (fresh.filter fun s => s.1 ≠ .krakenBbo, krakenLabel)

/-- The candidates of a resolution. -/
def candidates (now : Millis) (raws : Exchange → Option Raw) : Sources :=
  (mergeKraken (freshSources now raws)).1

/-! ## The outlier guard -/

/-- `PRICE_OUTLIER_RATIO`, which the configuration keeps at 1 or more. -/
abbrev OutlierRatio := { q : ℚ // 1 ≤ q }

/-- `price` is neither over `ratio` times `reference` nor under its `ratio`-th part. -/
def Within (ratio reference price : ℚ) : Prop :=
  reference / ratio ≤ price ∧ price ≤ reference * ratio

instance (ratio reference price : ℚ) : Decidable (Within ratio reference price) :=
  inferInstanceAs (Decidable (_ ∧ _))

def medianPrice (fresh : Sources) : ℚ := median (fresh.rows.map fun s => s.2.price)

/-- The sources that agree with the median. -/
def keptSources (ratio : ℚ) (fresh : Sources) : Sources :=
  fresh.filter fun s => decide (Within ratio (medianPrice fresh) s.2.price)

/-- The loop that looks for the source of the highest priority. -/
def bestSource (fresh : List Source) : Option Source :=
  fresh.foldl
    (fun best entry =>
      match best with
      | none => some entry
      | some b => if sourcePriority entry.1 < sourcePriority b.1 then some entry else some b)
    none

/-- With two or more sources those that agree with the median stay, if they are two or more;
else only the one of the highest priority does. -/
def dropOutliers (ratio : ℚ) (fresh : Sources) : Sources :=
  if 2 ≤ fresh.rows.length then
    let kept := keptSources ratio fresh
    if 2 ≤ kept.rows.length then kept
    else fresh.filter fun s => bestSource fresh.rows = some s
  else fresh

/-! ## Resolution -/

/-- Priority first, then the fresher tick. -/
def byPriority (a b : Source) : Prop :=
  sourcePriority a.1 < sourcePriority b.1 ∨
    sourcePriority a.1 = sourcePriority b.1 ∧ b.2.ts ≤ a.2.ts

instance : DecidableRel byPriority := fun a b =>
  inferInstanceAs (Decidable (_ ∨ _ ∧ _))

/-- The value under a canonical key. -/
structure Canonical where
  price : ℚ
  change24h : ℚ
  source : Exchange
  ts : Millis
  deriving DecidableEq, Repr

/-- The source that wins a resolution. -/
def winner (ratio : ℚ) (now : Millis) (raws : Exchange → Option Raw) : Option Source :=
  ((dropOutliers ratio (candidates now raws)).rows.insertionSort byPriority).head?

/-- The winner as it is written, under its real feed. -/
def canonicalOf (now : Millis) (krakenLabel : Exchange) (s : Source) : Canonical where
  price := s.2.price
  change24h := s.2.change24h
  source := if s.1 = .kraken then krakenLabel else s.1
  ts := now

/-- A command of the write pipeline; the keys carry the symbol. -/
inductive Write
  | set (symbol : String) (payload : Canonical) (ttlS : ℕ)
  | publish (symbol : String) (payload : Canonical)
  | lpush (symbol : String) (ts : Millis) (price : ℚ)
  | ltrim (symbol : String) (start stop : ℕ)
  | expire (symbol : String) (ttlS : ℕ)
  deriving DecidableEq, Repr

def histSampleMs : Millis := 3 * 60000

def histMaxPoints : ℕ := 480

def histTtlS : ℕ := 86400

def maxTrackedSymbols : ℕ := 10000

/-- Evicts the oldest entries of a map that has grown too large. -/
def capMap {α : Type} (map : Table (String × α) String Prod.fst) :
    Table (String × α) String Prod.fst where
  rows := map.rows.drop (map.rows.length - maxTrackedSymbols)
  nodup := map.nodup.sublist ((List.drop_sublist _ _).map Prod.fst)

/-- What the process keeps between ticks. -/
structure Bookkeeping where
  lastPublishedPrice : Table (String × ℚ) String Prod.fst := .empty
  lastHistSampleAt : Table (String × Millis) String Prod.fst := .empty

namespace Bookkeeping

variable (book : Bookkeeping)

/-- The price goes out only when it moved. -/
def publish (sym : String) (payload : Canonical) : List Write × Bookkeeping :=
  if (book.lastPublishedPrice.find? sym).map Prod.snd = some payload.price then ([], book)
  else
    ([.publish sym payload],
      { book with
        lastPublishedPrice := capMap (book.lastPublishedPrice.set (sym, payload.price)) })

/-- One history point every three minutes. -/
def sample (sym : String) (now : Millis) (price : ℚ) : List Write × Bookkeeping :=
  let lastHist := ((book.lastHistSampleAt.find? sym).map Prod.snd).getD 0
  if histSampleMs ≤ now - lastHist then
    ([.lpush sym now price, .ltrim sym 0 (histMaxPoints - 1), .expire sym histTtlS],
      { book with lastHistSampleAt := capMap (book.lastHistSampleAt.set (sym, now)) })
  else ([], book)

end Bookkeeping

def resolveCanonical (ratio : ℚ) (sym : String) (now : Millis) (raws : Exchange → Option Raw)
    (book : Bookkeeping) : List Write × Bookkeeping :=
  match winner ratio now raws with
  | none => ([], book)
  | some s =>
      let payload := canonicalOf now (mergeKraken (freshSources now raws)).2 s
      let (published, book) := book.publish sym payload
      let (sampled, book) := book.sample sym now s.2.price
      (.set sym payload priceTtlS :: published ++ sampled, book)

/-- A tick of one exchange.  `stored` is what the keys of the symbol hold; `none` is a price or
a change that is not a finite number. -/
def recordTick (ratio : ℚ) (toUpperCase : String → String) (symbol : String)
    (exchange : Exchange) (price change24h : Option ℚ) (quote : String) (now : Millis)
    (stored : Exchange → Option Raw) (book : Bookkeeping) :
    (Exchange → Option Raw) × List Write × Bookkeeping :=
  match price with
  | none => (stored, [], book)
  | some price =>
      if price ≤ 0 then (stored, [], book)
      else
        let tick := Raw.tick (some price) (change24h.getD 0) quote now
        let raws := Function.update stored exchange (some tick)
        (raws, resolveCanonical ratio (toUpperCase symbol) now raws book)

end Neonfi.Prices

import Mathlib.Data.Prod.Lex
import Mathlib.Algebra.Order.Ring.Rat
import Neonfi.Lib.FirstLeast
import Neonfi.Lib.Table

/-!
# Coins that share a ticker

CoinMarketCap reuses tickers.  The quotes of a symbol are asked for prices and for metadata, and
both take the most prominent coin and skip it if it has no price.  The listing leaves out the coins
without a price first, and keeps the most prominent of the others.  What the maps have for a ticker
is a least entry in both, by rank and market cap.
-/

namespace Neonfi.Tokens

open Lib

/-! ## The provider -/

structure CmcQuoteUsd where
  price : Option ℚ
  percentChange24h : Option ℚ
  marketCap : Option ℚ
  deriving DecidableEq, Repr

structure CmcEntry where
  id : ℕ
  cmcRank : Option ℚ
  usd : CmcQuoteUsd
  deriving DecidableEq, Repr

structure CmcListing extends CmcEntry where
  name : String
  symbol : String
  deriving DecidableEq, Repr

/-- `Number.MAX_SAFE_INTEGER` -/
def MAX_SAFE_INTEGER : ℚ := 2 ^ 53 - 1

def CmcEntry.rank (e : CmcEntry) : ℚ := e.cmcRank.getD MAX_SAFE_INTEGER

def CmcEntry.cap (e : CmcEntry) : ℚ := e.usd.marketCap.getD 0

def CmcEntry.logoUrl (e : CmcEntry) : String :=
  "https://s2.coinmarketcap.com/static/img/coins/64x64/" ++ toString e.id ++ ".png"

/-- The lower rank wins; the market cap is only a tiebreak. -/
def keepBest (best cur : CmcEntry) : CmcEntry :=
  if cur.rank ≠ best.rank then if cur.rank < best.rank then cur else best
  else if best.cap < cur.cap then cur else best

/-- `reduce` throws on an empty list. -/
def pickBestEntry : List CmcEntry → Option CmcEntry
  | [] => none
  | e :: entries => some (entries.foldl keepBest e)

structure PriceData where
  price : ℚ
  change24h : Option ℚ
  deriving DecidableEq, Repr

structure TokenMetadata where
  symbol : String
  currentPrice : String
  marketCap : Option String
  rank : Option ℚ
  change24h : Option ℚ
  logoUrl : String
  deriving DecidableEq, Repr

structure TopToken where
  symbol : String
  name : String
  rank : Option ℚ
  currentPrice : String
  marketCap : Option String
  logoUrl : String
  change24h : Option ℚ
  deriving DecidableEq, Repr

/-- A row of the listing with the values it is compared by. -/
structure TopRow extends TopToken where
  mc : ℚ
  rankKey : ℚ
  deriving DecidableEq, Repr

/-- `data` of the quotes, by symbol. -/
abbrev CmcData := String → Option (List CmcEntry)

def MAX_SYMBOLS_PER_CALL : ℕ := 50

section Provider

variable (toFixed : ℕ → ℚ → String) (apiKey : Option String)
  (quotes : List String → Except String CmcData)
  (listings : ℕ → Except String (Option (List CmcListing)))

/-- The key is missing or empty. -/
def keyless : Bool := (apiKey.filter (· ≠ "")).isNone

/-- `_fetch`: the batches of symbols, merged; without a key there is no answer. -/
def fetchQuotes (symbols : List String) : Except String (Option CmcData) :=
  if keyless apiKey then .ok none
  else
    ((symbols.toChunks MAX_SYMBOLS_PER_CALL).foldlM (fun (aggregated : CmcData) batch =>
      (quotes batch).map fun (data : CmcData) symbol => (data symbol).or (aggregated symbol))
        fun _ => none).map some

/-- An entry without a price gives none. -/
def CmcEntry.priceData (e : CmcEntry) : Option PriceData :=
  e.usd.price.map fun price => ⟨price, e.usd.percentChange24h⟩

def CmcEntry.priceRow (symbol : String) (e : CmcEntry) : Option (String × PriceData) :=
  e.priceData.map fun price => (symbol, price)

def CmcEntry.metadata (symbol : String) (e : CmcEntry) : Option TokenMetadata :=
  e.usd.price.map fun price =>
    { symbol
      currentPrice := toFixed 8 price
      marketCap := e.usd.marketCap.map (toFixed 2)
      rank := e.cmcRank
      change24h := e.usd.percentChange24h
      logoUrl := e.logoUrl }

/-- What the best entry of every symbol gives, in a `Map`. -/
def collectBest {ρ : Type} {key : ρ → String} (row : String → CmcEntry → Option ρ) (data : CmcData)
    (symbols : List String) : Table ρ String key :=
  symbols.foldl (fun out symbol =>
    match ((data symbol).bind pickBestEntry).bind (row symbol) with
    | none => out
    | some r => out.set r) Table.empty

/-- An error is logged, and gives an empty `Map`. -/
def fetchMetadata (symbols : List String) : Table TokenMetadata String TokenMetadata.symbol :=
  match fetchQuotes apiKey quotes symbols with
  | .ok (some data) => collectBest (CmcEntry.metadata toFixed) data symbols
  | _ => Table.empty

/-- An error is thrown on. -/
def fetchPrices (symbols : List String) :
    Except String (Table (String × PriceData) String Prod.fst) :=
  (fetchQuotes apiKey quotes symbols).map fun body =>
    match body with
    | none => Table.empty
    | some data => collectBest CmcEntry.priceRow data symbols

def CmcListing.topRow (c : CmcListing) : Option TopRow :=
  c.usd.price.map fun price =>
    { symbol := c.symbol
      name := c.name
      rank := c.cmcRank
      currentPrice := toFixed 8 price
      marketCap := c.usd.marketCap.map (toFixed 2)
      logoUrl := c.logoUrl
      change24h := c.usd.percentChange24h
      mc := c.cap
      rankKey := c.rank }

/-- One row of the listing: the more prominent coin of a ticker stays. -/
def keepListing (best : Table TopRow String fun r => r.symbol) (c : CmcListing) :
    Table TopRow String fun r => r.symbol :=
  match c.topRow toFixed with
  | none => best
  | some row =>
      if (best.find? c.symbol).any fun prev =>
          decide (prev.rankKey < row.rankKey ∨ prev.rankKey = row.rankKey ∧ row.mc ≤ prev.mc) then
        best
      else best.set row

def fetchTopTokens (limit : ℕ) : Except String (List TopToken) :=
  if keyless apiKey then .ok []
  else
    (listings limit).map fun data =>
      ((data.getD []).foldl (keepListing toFixed) Table.empty).rows.map TopRow.toTopToken

end Provider

/-! ## The most prominent entry -/

/-- Less is more prominent: the lower rank, then the higher market cap. -/
def prominence (e : CmcEntry) : ℚ ×ₗ ℚᵒᵈ := toLex (e.rank, OrderDual.toDual e.cap)

theorem prominence_lt_iff {a b : CmcEntry} :
    prominence a < prominence b ↔ a.rank < b.rank ∨ a.rank = b.rank ∧ b.cap < a.cap := by
  unfold prominence
  rw [Prod.Lex.toLex_lt_toLex]
  rfl

theorem prominence_le_iff {a b : CmcEntry} :
    prominence a ≤ prominence b ↔ a.rank < b.rank ∨ a.rank = b.rank ∧ b.cap ≤ a.cap := by
  unfold prominence
  rw [Prod.Lex.toLex_le_toLex]
  rfl

theorem keepBest_eq (best cur : CmcEntry) :
    keepBest best cur = if prominence cur < prominence best then cur else best := by
  unfold keepBest
  by_cases hrank : cur.rank = best.rank
  · rw [if_neg (not_not.mpr hrank)]
    simp only [prominence_lt_iff, hrank, lt_irrefl, false_or, true_and]
  · rw [if_pos hrank]
    simp only [prominence_lt_iff, hrank, false_and, or_false]

/-- The first of the most prominent entries. -/
theorem pickBestEntry_eq (entries : List CmcEntry) :
    pickBestEntry entries = entries.argmin prominence := by
  cases entries with
  | nil => rfl
  | cons e entries =>
      show some (entries.foldl keepBest e) = _
      induction entries using List.reverseRecOn with
      | nil => rfl
      | append_singleton entries cur ih =>
          rw [← List.cons_append, List.argmin_concat, ← ih, List.foldl_append, List.foldl_cons,
            List.foldl_nil, keepBest_eq]
          dsimp only
          split <;> rfl

/-! ## What the maps have for a ticker -/

section Lookup

variable {ρ : Type} {key : ρ → String} {row : String → CmcEntry → Option ρ} {data : CmcData}
  {ticker : String}

theorem find?_collectBest_foldl (hkey : ∀ symbol e r, row symbol e = some r → key r = symbol)
    (symbols : List String) (out : Table ρ String key) :
    (symbols.foldl (fun out symbol =>
      match ((data symbol).bind pickBestEntry).bind (row symbol) with
      | none => out
      | some r => out.set r) out).find? ticker =
        (if ticker ∈ symbols then ((data ticker).bind pickBestEntry).bind (row ticker)
          else none).or (out.find? ticker) := by
  induction symbols generalizing out with
  | nil => rfl
  | cons symbol symbols ih =>
      rw [List.foldl_cons, ih]
      by_cases hsymbol : symbol = ticker
      · subst hsymbol
        rw [if_pos List.mem_cons_self]
        cases hvalue : ((data symbol).bind pickBestEntry).bind (row symbol) with
        | none =>
            dsimp only
            rw [ite_self]
        | some r =>
            obtain ⟨e, -, hrow⟩ := Option.bind_eq_some_iff.mp hvalue
            dsimp only
            rw [Table.find?_set, if_pos (hkey _ _ _ hrow)]
            split <;> rfl
      · have hmem : ticker ∈ symbol :: symbols ↔ ticker ∈ symbols := by
          simp [Ne.symm hsymbol]
        simp only [hmem]
        congr 1
        cases hvalue : ((data symbol).bind pickBestEntry).bind (row symbol) with
        | none => rfl
        | some r =>
            obtain ⟨e, -, hrow⟩ := Option.bind_eq_some_iff.mp hvalue
            have hother : key r ≠ ticker := by
              rw [hkey _ _ _ hrow]
              exact hsymbol
            dsimp only
            rw [Table.find?_set, if_neg hother]

theorem find?_collectBest (hkey : ∀ symbol e r, row symbol e = some r → key r = symbol)
    {symbols : List String} (h : ticker ∈ symbols) :
    (collectBest row data symbols : Table ρ String key).find? ticker =
      ((data ticker).bind pickBestEntry).bind (row ticker) := by
  unfold collectBest
  rw [find?_collectBest_foldl hkey, if_pos h]
  exact Option.or_none

end Lookup

section Listing

variable {toFixed : ℕ → ℚ → String} {ticker : String}

/-- A coin of the ticker that has a price. -/
def listed (ticker : String) (c : CmcListing) : Bool :=
  decide (c.symbol = ticker) && c.usd.price.isSome

theorem topRow_spec {c : CmcListing} {r : TopRow} (h : c.topRow toFixed = some r) :
    r.symbol = c.symbol ∧ r.mc = c.cap ∧ r.rankKey = c.rank ∧ c.usd.price.isSome := by
  obtain ⟨price, hprice, rfl⟩ := Option.map_eq_some_iff.mp h
  exact ⟨rfl, rfl, rfl, by rw [hprice]; rfl⟩

theorem topRow_eq_none_iff {c : CmcListing} :
    c.topRow toFixed = none ↔ c.usd.price.isSome = false := by
  unfold CmcListing.topRow
  rw [Option.map_eq_none_iff, Option.isSome_eq_false_iff, Option.isNone_iff_eq_none]

theorem exists_topRow {c : CmcListing} (h : listed ticker c = true) :
    ∃ r, c.topRow toFixed = some r := by
  unfold listed at h
  rw [Bool.and_eq_true] at h
  apply Option.ne_none_iff_exists'.mp
  intro hnone
  rw [topRow_eq_none_iff.mp hnone] at h
  cases h.2

/-- The listing keeps the most prominent of the coins with a price. -/
theorem find?_keepListing (listings : List CmcListing) :
    (listings.foldl (keepListing toFixed) Table.empty).find? ticker =
      ((listings.filter (listed ticker)).argmin fun c => prominence c.toCmcEntry).bind
        (CmcListing.topRow toFixed) := by
  induction listings using List.reverseRecOn with
  | nil => rfl
  | append_singleton listings c ih =>
      rw [List.foldl_append, List.foldl_cons, List.foldl_nil, List.filter_append]
      generalize listings.foldl (keepListing toFixed) Table.empty = best at ih
      unfold keepListing
      cases hrow : c.topRow toFixed with
      | none =>
          have hpriced := topRow_eq_none_iff.mp hrow
          rw [List.filter_cons_of_neg (by unfold listed; simp [hpriced]), List.filter_nil,
            List.append_nil]
          exact ih
      | some row =>
          obtain ⟨hsymbol, hmc, hrank, hpriced⟩ := topRow_spec hrow
          dsimp only
          by_cases hticker : c.symbol = ticker
          · rw [List.filter_cons_of_pos (by unfold listed; simp [hticker, hpriced]),
              List.filter_nil, List.argmin_concat, hticker, ih]
            cases hleast : (listings.filter (listed ticker)).argmin
                fun c => prominence c.toCmcEntry with
            | none =>
                dsimp only [Option.bind_none, Option.any_none]
                rw [if_neg Bool.false_ne_true, Table.find?_set, if_pos (hsymbol.trans hticker),
                  Option.bind_some, hrow]
            | some m =>
                obtain ⟨prev, hprev⟩ := exists_topRow (List.mem_filter.mp (List.argmin_mem hleast)).2
                obtain ⟨-, hprevmc, hprevrank, -⟩ := topRow_spec hprev
                rw [hleast, Option.bind_some, hprev] at ih
                dsimp only
                have hstays : decide (prev.rankKey < row.rankKey ∨
                    prev.rankKey = row.rankKey ∧ row.mc ≤ prev.mc) = true ↔
                      prominence m.toCmcEntry ≤ prominence c.toCmcEntry := by
                  rw [decide_eq_true_iff, hprevmc, hprevrank, hmc, hrank, prominence_le_iff]
                rw [Option.bind_some, hprev, Option.any_some]
                by_cases hle : prominence m.toCmcEntry ≤ prominence c.toCmcEntry
                · rw [if_pos (hstays.mpr hle), if_neg (not_lt.mpr hle), Option.bind_some, hprev]
                  exact ih
                · rw [if_neg (mt hstays.mp hle), if_pos (not_le.mp hle), Option.bind_some, hrow,
                    Table.find?_set, if_pos (hsymbol.trans hticker)]
          · rw [List.filter_cons_of_neg (by unfold listed; simp [hticker]), List.filter_nil,
              List.append_nil, ← ih]
            split
            · rfl
            · rw [Table.find?_set, if_neg (by rw [hsymbol]; exact hticker)]

end Listing

end Neonfi.Tokens

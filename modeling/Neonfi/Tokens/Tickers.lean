import Mathlib.Data.Rat.Floor
import Mathlib.Tactic.NormNum
import Neonfi.Lib.DecimalText
import Neonfi.Tokens.CoinMarketCap

/-!
# One coin for a ticker

The catalog row of a ticker is ingested from the listing, synced from the metadata, and its price is
refreshed from the quotes.  The three are those of one coin, or none of them is there, exactly when
no coin of the ticker has a price or every coin without one is beaten by a coin that has one.
-/

namespace Neonfi.Tokens

open Lib

/-! ## One coin for a ticker -/

section Ticker

variable (toFixed : ℕ → ℚ → String) (apiKey : Option String)
  (quotes : List String → Except String CmcData)
  (listings : ℕ → Except String (Option (List CmcListing))) (symbols : List String) (limit : ℕ)
  (ticker : String)

/-- The endpoints answer with the same coins of a ticker, in the same order. -/
structure Answered (coins : List CmcListing) : Prop where
  requested : ticker ∈ symbols
  quoted : ∃ data, fetchQuotes apiKey quotes symbols = .ok (some data) ∧
    data ticker = some (coins.map CmcListing.toCmcEntry)
  listed : ∃ rows, listings limit = .ok (some rows) ∧
    rows.filter (fun c => c.symbol = ticker) = coins

/-- The refreshed price of the ticker. -/
def refreshedPrice : Option PriceData :=
  ((fetchPrices apiKey quotes symbols).toOption.bind fun prices => prices.find? ticker).map Prod.snd

/-- What the sync writes into the catalog row of the ticker. -/
def syncedRow : Option TokenMetadata := (fetchMetadata toFixed apiKey quotes symbols).find? ticker

/-- The catalog row that the ingest creates for the ticker. -/
def ingestedRow : Option TopToken :=
  (fetchTopTokens toFixed apiKey listings limit).toOption.bind fun top =>
    top.find? fun t => t.symbol = ticker

/-- The three are those of one coin, or none of them is there. -/
def SameCoin (coins : List CmcListing) : Prop :=
  ∃ coin : Option CmcListing, (∀ c ∈ coin, c ∈ coins) ∧
    refreshedPrice apiKey quotes symbols ticker = coin.bind (fun c => c.priceData) ∧
    syncedRow toFixed apiKey quotes symbols ticker = coin.bind (fun c => c.metadata toFixed ticker) ∧
    ingestedRow toFixed apiKey listings limit ticker =
      coin.bind fun c => (c.topRow toFixed).map TopRow.toTopToken

variable {toFixed apiKey quotes listings symbols limit ticker} {coins : List CmcListing}
  {m : CmcListing}

/-- The most prominent of the coins, with a price or without. -/
def foremost (coins : List CmcListing) : Option CmcListing :=
  coins.argmin fun c => prominence c.toCmcEntry

def priced (c : CmcListing) : Bool := c.usd.price.isSome

theorem pickBestEntry_map : pickBestEntry (coins.map CmcListing.toCmcEntry) =
    (foremost coins).map CmcListing.toCmcEntry := by
  rw [pickBestEntry_eq, argmin_map]
  rfl

/-- A coin without a price has no row anywhere. -/
theorem eq_none_of_not_priced (toFixed : ℕ → ℚ → String) (ticker : String) {c : CmcListing}
    (hc : priced c = false) :
    c.priceData = none ∧ c.metadata toFixed ticker = none ∧ c.topRow toFixed = none := by
  have hprice : c.usd.price = none := Option.isNone_iff_eq_none.mp (by simpa [priced] using hc)
  unfold CmcEntry.priceData CmcEntry.metadata CmcListing.topRow
  rw [hprice]
  exact ⟨rfl, rfl, rfl⟩

section Rows

variable (h : Answered apiKey quotes listings symbols limit ticker coins)
include h

theorem keyless_eq_false : keyless apiKey = false := by
  obtain ⟨data, hdata, -⟩ := h.quoted
  unfold fetchQuotes at hdata
  split at hdata
  · cases hdata
  · exact Bool.eq_false_iff.mpr ‹_›

theorem refreshedPrice_eq : refreshedPrice apiKey quotes symbols ticker =
    (foremost coins).bind fun c => c.priceData := by
  obtain ⟨data, hdata, hcoins⟩ := h.quoted
  have hkey : ∀ symbol e r, CmcEntry.priceRow symbol e = some r → r.1 = symbol := by
    intro symbol e r hr
    obtain ⟨price, -, rfl⟩ := Option.map_eq_some_iff.mp hr
    rfl
  have hlookup : (collectBest CmcEntry.priceRow data symbols : Table _ _ Prod.fst).find? ticker =
      ((foremost coins).map CmcListing.toCmcEntry).bind (CmcEntry.priceRow ticker) := by
    rw [find?_collectBest hkey h.requested, hcoins, Option.bind_some, pickBestEntry_map]
  unfold refreshedPrice fetchPrices
  rw [hdata]
  dsimp only [Except.map, Except.toOption, Option.bind_some]
  rw [hlookup]
  cases foremost coins with
  | none => rfl
  | some c =>
      unfold CmcEntry.priceRow
      rw [Option.map_some, Option.bind_some, Option.bind_some, Option.map_map]
      exact Option.map_id'

theorem syncedRow_eq : syncedRow toFixed apiKey quotes symbols ticker =
    (foremost coins).bind fun c => c.metadata toFixed ticker := by
  obtain ⟨data, hdata, hcoins⟩ := h.quoted
  have hkey : ∀ symbol e r, CmcEntry.metadata toFixed symbol e = some r → r.symbol = symbol := by
    intro symbol e r hr
    obtain ⟨price, -, rfl⟩ := Option.map_eq_some_iff.mp hr
    rfl
  unfold syncedRow fetchMetadata
  rw [hdata]
  dsimp only
  rw [find?_collectBest hkey h.requested, hcoins, Option.bind_some, pickBestEntry_map]
  cases foremost coins with
  | none => rfl
  | some c => rfl

theorem ingestedRow_eq : ingestedRow toFixed apiKey listings limit ticker =
    (foremost (coins.filter priced)).bind fun c => (c.topRow toFixed).map TopRow.toTopToken := by
  obtain ⟨rows, hrows, rfl⟩ := h.listed
  have hlisted : rows.filter (listed ticker) =
      (rows.filter fun c => c.symbol = ticker).filter priced := by
    rw [List.filter_filter]
    apply List.filter_congr
    intro c _
    exact Bool.and_comm _ _
  have hlookup := @find?_keepListing toFixed ticker rows
  rw [hlisted] at hlookup
  unfold ingestedRow fetchTopTokens
  rw [keyless_eq_false h, if_neg Bool.false_ne_true, hrows]
  dsimp only [Except.map, Except.toOption, Option.bind_some, Option.getD_some]
  rw [List.find?_map]
  show (Table.find? _ ticker).map TopRow.toTopToken = _
  rw [hlookup]
  exact Option.map_bind

/-- Where the foremost coin has no price but another one has, only the listing has a row. -/
theorem not_sameCoin (hforemost : foremost coins = some m) (hm : priced m = false)
    (hpriced : ∃ c ∈ coins, priced c = true) :
    ¬ SameCoin toFixed apiKey quotes listings symbols limit ticker coins := by
  rintro ⟨coin, -, hprices, -, htop⟩
  rw [refreshedPrice_eq h, hforemost, Option.bind_some,
    (eq_none_of_not_priced toFixed ticker hm).1] at hprices
  obtain ⟨c, hc, hcpriced⟩ := hpriced
  have hmem : c ∈ coins.filter priced := List.mem_filter.mpr ⟨hc, hcpriced⟩
  obtain ⟨best, hbest⟩ : ∃ best, foremost (coins.filter priced) = some best := by
    apply Option.ne_none_iff_exists'.mp
    intro hempty
    exact List.ne_nil_of_mem hmem (List.argmin_eq_none.mp hempty)
  obtain ⟨price, hprice⟩ : ∃ price, best.usd.price = some price :=
    Option.isSome_iff_exists.mp (List.mem_filter.mp (List.argmin_mem hbest)).2
  rw [ingestedRow_eq h, hbest, Option.bind_some] at htop
  unfold CmcListing.topRow at htop
  rw [hprice] at htop
  -- A coin whose row is there has a price, and then its price is refreshed.
  cases coin with
  | none => cases htop
  | some k =>
      rw [Option.bind_some] at hprices htop
      have hk : k.usd.price = none := Option.map_eq_none_iff.mp hprices.symm
      rw [hk] at htop
      cases htop

end Rows

/-- The three choose one coin exactly when no coin has a price, or every coin without one is beaten
by a coin that has one. -/
theorem sameCoin_iff (h : Answered apiKey quotes listings symbols limit ticker coins) :
    SameCoin toFixed apiKey quotes listings symbols limit ticker coins ↔
      (∀ c ∈ coins, priced c = false) ∨
        Beaten (fun c : CmcListing => prominence c.toCmcEntry) priced coins := by
  cases hforemost : foremost coins with
  | none =>
      have hempty : coins = [] := List.argmin_eq_none.mp hforemost
      subst hempty
      have hnone : SameCoin toFixed apiKey quotes listings symbols limit ticker [] := by
        refine ⟨none, nofun, ?_, ?_, ?_⟩
        · rw [refreshedPrice_eq h, hforemost]
        · rw [syncedRow_eq h, hforemost]
        · exact ingestedRow_eq h
      exact ⟨fun _ => .inl nofun, fun _ => hnone⟩
  | some m =>
      rw [beaten_iff hforemost]
      cases hm : priced m with
      | true =>
          have hfilter : foremost (coins.filter priced) = some m := argmin_filter hforemost hm
          have hsame : SameCoin toFixed apiKey quotes listings symbols limit ticker coins := by
            refine ⟨some m, ?_, ?_, ?_, ?_⟩
            · rintro c ⟨⟩
              exact List.argmin_mem hforemost
            · rw [refreshedPrice_eq h, hforemost]
            · rw [syncedRow_eq h, hforemost]
            · rw [ingestedRow_eq h, hfilter]
          exact ⟨fun _ => .inr rfl, fun _ => hsame⟩
      | false =>
          obtain ⟨hprice, hmetadata, -⟩ := eq_none_of_not_priced toFixed ticker hm
          constructor
          · intro hsame
            left
            by_contra hsome
            push Not at hsome
            obtain ⟨c, hc, hpriced⟩ := hsome
            exact not_sameCoin h hforemost hm ⟨c, hc, by simpa using hpriced⟩ hsame
          · rintro (hall | htrue)
            · have hfilter : coins.filter priced = [] :=
                List.filter_eq_nil_iff.mpr fun c hc => by simp [hall c hc]
              refine ⟨none, nofun, ?_, ?_, ?_⟩
              · rw [refreshedPrice_eq h, hforemost, Option.bind_some, hprice]
                rfl
              · rw [syncedRow_eq h, hforemost, Option.bind_some, hmetadata]
                rfl
              · rw [ingestedRow_eq h, hfilter]
                rfl
            · cases htrue

end Ticker

/-! ## A coin without a price -/

def toncoin (price : Option ℚ) : CmcListing where
  id := 11419
  cmcRank := some 8
  usd := ⟨price, none, none⟩
  name := "Toncoin"
  symbol := "TON"

/-- Another coin of the ticker. -/
def junkTon : CmcListing where
  id := 1
  cmcRank := some 3538
  usd := ⟨some (1 / 4), none, some 9000⟩
  name := "TON"
  symbol := "TON"

/-- `toFixed` of a number that is not negative. -/
def fixedPlaces (places : ℕ) (x : ℚ) : String :=
  String.ofList (fixedText places ⌊x * 10 ^ places + 1 / 2⌋.toNat)

def tonQuotes (coins : List CmcListing) (_ : List String) : Except String CmcData :=
  .ok fun symbol => if symbol = "TON" then some (coins.map CmcListing.toCmcEntry) else none

def tonListings (coins : List CmcListing) (_ : ℕ) : Except String (Option (List CmcListing)) :=
  .ok (some coins)

theorem answered_ton (price : Option ℚ) :
    Answered (some "key") (tonQuotes [toncoin price, junkTon]) (tonListings [toncoin price, junkTon])
      ["TON"] 5000 "TON" [toncoin price, junkTon] where
  requested := List.mem_cons_self
  quoted := ⟨_, rfl, rfl⟩
  listed := ⟨_, rfl, rfl⟩

/-- The refreshed price and both rows are Toncoin's. -/
theorem sameCoin_toncoin : SameCoin fixedPlaces (some "key")
    (tonQuotes [toncoin (some 3), junkTon]) (tonListings [toncoin (some 3), junkTon]) ["TON"] 5000
    "TON" [toncoin (some 3), junkTon] := by
  refine (sameCoin_iff (answered_ton (some 3))).mpr (.inr ?_)
  intro before c after hsplit hc
  have hmem : c ∈ [toncoin (some 3), junkTon] := by
    rw [hsplit]
    exact List.mem_append_right _ List.mem_cons_self
  rcases List.mem_pair.mp hmem with rfl | rfl
  · cases hc
  · cases hc

/-- The claim about all answers of the endpoints. -/
def AlwaysSameCoin : Prop :=
  ∀ (toFixed : ℕ → ℚ → String) (apiKey : Option String)
    (quotes : List String → Except String CmcData)
    (listings : ℕ → Except String (Option (List CmcListing))) (symbols : List String) (limit : ℕ)
    (ticker : String) (coins : List CmcListing),
      Answered apiKey quotes listings symbols limit ticker coins →
        SameCoin toFixed apiKey quotes listings symbols limit ticker coins

/-- Without a price for Toncoin the listing ingests the other coin, and nobody refreshes it. -/
theorem not_alwaysSameCoin : ¬ AlwaysSameCoin := by
  intro halways
  have hforemost : foremost [toncoin none, junkTon] = some (toncoin none) := by
    refine argmin_eq_some_iff_split.mpr ⟨[], [junkTon], rfl, nofun, fun c hc => ?_⟩
    rw [List.mem_singleton.mp hc, prominence_le_iff]
    left
    show (8 : ℚ) < 3538
    norm_num
  have hjunk : junkTon ∈ [toncoin none, junkTon] := List.mem_cons_of_mem _ List.mem_cons_self
  exact not_sameCoin (answered_ton none) hforemost rfl ⟨junkTon, hjunk, rfl⟩
    (halways fixedPlaces _ _ _ _ _ _ _ (answered_ton none))

end Neonfi.Tokens

import Neonfi.Lib.LastWrite
import Neonfi.Wallet.CostMap
import Neonfi.Wallet.Holdings

/-!
# The tiers of the cost map

`buildConnectedCostMap` resolves a contract through the held tokens, else through the rows of the
portfolio, else through the catalog.  Two contracts may resolve to one token through different
tiers, when the contract the catalog has for it is not the one that is held.  The entries of the
catalog are set after all others, and every `set` replaces what was there.
-/

namespace Neonfi.Wallet

open Lib
open Ledger (Db Token)

/-! ## What a record resolves to -/

inductive CostTier
  | held
  | existing
  | catalog
  deriving DecidableEq, Repr

def CostTier.rank : CostTier → ℕ
  | held => 1
  | existing => 2
  | catalog => 3

/-- A record that resolves to a token, through a tier. -/
structure TieredCost where
  tier : CostTier
  tokenId : ℕ
  cost : TokenCost
  deriving DecidableEq, Repr

namespace TieredCost

/-- The entries of the catalog lookup are set late. -/
def late (r : TieredCost) : Bool := decide (r.tier = .catalog)

def entry (r : TieredCost) : ℕ × TokenCost := (r.tokenId, r.cost)

end TieredCost

def tieredCost (found : CostTier × ℕ) (cost : TokenCost) : TieredCost := ⟨found.1, found.2, cost⟩

section Tiers

variable (text : Text) (portfolioId : ℕ) (held : List HeldToken) (pnl : List PnlToken) (db : Db)

/-- The token of the last row of the portfolio whose catalog row has the contract. -/
def existingContract (contract : String) : Option ℕ :=
  lastSet
    (db.assets.rows.filterMap fun a =>
      if a.portfolioId = portfolioId then
        ((db.findTokenById a.tokenId).bind Token.contractAddress).map fun contract =>
          (text.toLowerCase contract, a.tokenId)
      else none)
    contract

/-- The first tier that resolves a contract, and its token. -/
def resolveTier (contract : String) : Option (CostTier × ℕ) :=
  ((heldContract held contract).map fun tokenId => (.held, tokenId)).or
    (((existingContract text portfolioId db contract).map fun tokenId => (.existing, tokenId)).or
      ((catalogContract text db contract).map fun tokenId => (.catalog, tokenId)))

/-- The informative records that resolve to a token, in the order of the list. -/
def tieredCosts : List TieredCost :=
  (informative pnl).filterMap fun item =>
    (resolveTier text portfolioId held db item.1).map fun found => tieredCost found item.2

end Tiers

/-- No record that resolves to the token does so through a better tier. -/
structure IsBest (records : List TieredCost) (tokenId : ℕ) (r : TieredCost) : Prop where
  mem : r ∈ records
  tokenId_eq : r.tokenId = tokenId
  best : ∀ r' ∈ records, r'.tokenId = tokenId → r.tier.rank ≤ r'.tier.rank

/-- Every entry of the map is that of a record of the best tier that resolves to its token. -/
def KeepsBestTier (text : Text) (portfolioId : ℕ) (held : List HeldToken) (pnl : List PnlToken)
    (db : Db) : Prop :=
  ∀ tokenId cost,
    lastSet ((buildConnectedCostMap text portfolioId held pnl db).getD []) tokenId = some cost →
      ∃ r, IsBest (tieredCosts text portfolioId held pnl db) tokenId r ∧ r.cost = cost

/-- A better tier has a record for the token, but no record for it is set after this one, which
says something else than those of the best tier. -/
structure Displaces (records : List TieredCost) (r : TieredCost) : Prop where
  outranked : ∃ better ∈ records, better.tokenId = r.tokenId ∧ better.tier.rank < r.tier.rank
  last : EndsTwoPass TieredCost.tokenId TieredCost.late records r
  differs : ∀ best, IsBest records r.tokenId best → best.cost ≠ r.cost

/-! ## The map in two passes -/

section Passes

variable {text : Text} {portfolioId : ℕ} {held : List HeldToken} {pnl : List PnlToken} {db : Db}

theorem knownContract_eq (contract : String) :
    knownContract text portfolioId held db contract =
      (heldContract held contract).or (existingContract text portfolioId db contract) := rfl

/-- The catalog is asked where the first two tiers have nothing. -/
theorem resolveTier_cases (contract : String) :
    (∃ tier tokenId, tier ≠ CostTier.catalog ∧
      knownContract text portfolioId held db contract = some tokenId ∧
        resolveTier text portfolioId held db contract = some (tier, tokenId)) ∨
    (knownContract text portfolioId held db contract = none ∧
      resolveTier text portfolioId held db contract =
        (catalogContract text db contract).map fun tokenId => (.catalog, tokenId)) := by
  rw [knownContract_eq]
  unfold resolveTier
  cases heldContract held contract with
  | some tokenId => exact .inl ⟨.held, tokenId, by decide, rfl, rfl⟩
  | none =>
      cases existingContract text portfolioId db contract with
      | some tokenId => exact .inl ⟨.existing, tokenId, by decide, rfl, rfl⟩
      | none => exact .inr ⟨rfl, rfl⟩

theorem early_entry (contract : String) (cost : TokenCost) :
    (((resolveTier text portfolioId held db contract).map fun found =>
      tieredCost found cost).filter fun r => !r.late).map TieredCost.entry =
        (knownContract text portfolioId held db contract).map fun tokenId => (tokenId, cost) := by
  rcases @resolveTier_cases text portfolioId held db contract with
    ⟨tier, tokenId, htier, hknown, hresolve⟩ | ⟨hknown, hresolve⟩
  · have hlate : (tieredCost (tier, tokenId) cost).late = false := decide_eq_false htier
    rw [hknown, hresolve, Option.map_some, Option.filter_some, hlate]
    rfl
  · rw [hknown, hresolve]
    cases catalogContract text db contract <;> rfl

theorem late_entry (contract : String) (cost : TokenCost) :
    (((resolveTier text portfolioId held db contract).map fun found =>
      tieredCost found cost).filter fun r => r.late).map TieredCost.entry =
        if knownContract text portfolioId held db contract = none then
          (catalogContract text db contract).map fun tokenId => (tokenId, cost)
        else none := by
  rcases @resolveTier_cases text portfolioId held db contract with
    ⟨tier, tokenId, htier, hknown, hresolve⟩ | ⟨hknown, hresolve⟩
  · have hlate : (tieredCost (tier, tokenId) cost).late = false := decide_eq_false htier
    rw [hknown, hresolve, Option.map_some, Option.filter_some, hlate]
    rfl
  · rw [hknown, hresolve]
    cases catalogContract text db contract <;> rfl

/-- The catalog's entries are set after all others. -/
theorem buildConnectedCostMap_eq_twoPass :
    (buildConnectedCostMap text portfolioId held pnl db).getD [] =
      (twoPass TieredCost.late (tieredCosts text portfolioId held pnl db)).map
        TieredCost.entry := by
  rw [getD_buildConnectedCostMap]
  unfold twoPass tieredCosts
  rw [List.map_append, List.filterMap_filter, List.filter_filterMap, List.filter_filterMap,
    List.map_filterMap, List.map_filterMap]
  congr 1
  · apply List.filterMap_congr
    intro item _
    exact (early_entry item.1 item.2).symm
  · apply List.filterMap_congr
    intro item _
    rw [late_entry item.1 item.2]
    simp only [decide_eq_true_eq]

theorem lastSet_map_entry (records : List TieredCost) (tokenId : ℕ) :
    lastSet (records.map TieredCost.entry) tokenId =
      (lastOn TieredCost.tokenId records tokenId).map TieredCost.cost := by
  rw [lastSet_eq_getLast?]
  unfold lastOn
  rw [List.filter_map, List.getLast?_map, Option.map_map]
  rfl

/-- What the map has for a token is what the record says that is set last. -/
theorem lastSet_eq_some_iff {tokenId : ℕ} {cost : TokenCost} :
    lastSet ((buildConnectedCostMap text portfolioId held pnl db).getD []) tokenId = some cost ↔
      ∃ r, r.tokenId = tokenId ∧ r.cost = cost ∧
        EndsTwoPass TieredCost.tokenId TieredCost.late
          (tieredCosts text portfolioId held pnl db) r := by
  rw [buildConnectedCostMap_eq_twoPass, lastSet_map_entry, Option.map_eq_some_iff]
  constructor
  · rintro ⟨r, hlast, hcost⟩
    obtain ⟨htoken, hends⟩ := lastOn_twoPass_eq_some_iff.mp hlast
    exact ⟨r, htoken, hcost, hends⟩
  · rintro ⟨r, htoken, hcost, hends⟩
    exact ⟨r, lastOn_twoPass_eq_some_iff.mpr ⟨htoken, hends⟩, hcost⟩

/-- A record that no better one stands above is of the best tier. -/
theorem isBest_of_not_outranked {records : List TieredCost} {r : TieredCost} (hr : r ∈ records)
    (hnone : ¬ ∃ better ∈ records, better.tokenId = r.tokenId ∧
      better.tier.rank < r.tier.rank) : IsBest records r.tokenId r where
  mem := hr
  tokenId_eq := rfl
  best r' hr' htoken := by
    by_contra hlt
    exact hnone ⟨r', hr', htoken, not_le.mp hlt⟩

/-- No better tier is overridden exactly when no record displaces one. -/
theorem keepsBestTier_iff (text : Text) (portfolioId : ℕ) (held : List HeldToken)
    (pnl : List PnlToken) (db : Db) :
    KeepsBestTier text portfolioId held pnl db ↔
      ∀ r, ¬ Displaces (tieredCosts text portfolioId held pnl db) r := by
  constructor
  · rintro hkeeps r ⟨-, hlast, hdiffers⟩
    obtain ⟨best, hbest, hcost⟩ :=
      hkeeps r.tokenId r.cost (lastSet_eq_some_iff.mpr ⟨r, rfl, rfl, hlast⟩)
    exact hdiffers best hbest hcost
  · intro hnone tokenId cost hentry
    obtain ⟨r, rfl, rfl, hlast⟩ := lastSet_eq_some_iff.mp hentry
    by_contra hbest
    refine hnone r ⟨?_, hlast, fun best h hcost => hbest ⟨best, h, hcost⟩⟩
    by_contra houtranked
    exact hbest ⟨r, isBest_of_not_outranked hlast.mem houtranked, rfl⟩

end Passes

/-! ## A drifted contract -/

/-- The held token goes by a contract that the catalog has not. -/
def driftedHeld : List HeldToken := [⟨1, "USDT", 5, none, some "0xbb"⟩]

/-- The record of the held contract, then the one of the contract in the catalog. -/
def driftedPnl : List PnlToken := [⟨some "0xbb", some 10, none⟩, ⟨some "0xaa", some 20, none⟩]

/-- The claim about every portfolio, holdings, records and catalog. -/
def AlwaysKeepsBestTier : Prop :=
  ∀ (text : Text) (portfolioId : ℕ) (held : List HeldToken) (pnl : List PnlToken) (db : Db),
    KeepsBestTier text portfolioId held pnl db

/-- The catalog's record for the token replaces the one of the contract that is held. -/
theorem not_alwaysKeepsBestTier : ¬ AlwaysKeepsBestTier := by
  intro hkeeps
  have hrecords : tieredCosts sampleText 1 driftedHeld driftedPnl walletDb =
      [⟨.held, 1, ⟨some 10, 0⟩⟩, ⟨.catalog, 1, ⟨some 20, 0⟩⟩] := by
    decide +kernel
  have hset : lastSet ((buildConnectedCostMap sampleText 1 driftedHeld driftedPnl walletDb).getD
      []) 1 = some ⟨some 20, 0⟩ := by
    decide +kernel
  obtain ⟨r, hbest, hcost⟩ := hkeeps sampleText 1 driftedHeld driftedPnl walletDb 1 _ hset
  rw [hrecords] at hbest
  have hheld := hbest.best ⟨.held, 1, ⟨some 10, 0⟩⟩ List.mem_cons_self rfl
  rcases List.mem_pair.mp hbest.mem with rfl | rfl
  · exact absurd hcost (by decide)
  · exact absurd hheld (by decide)

end Neonfi.Wallet

import Neonfi.Lib.Fallback
import Neonfi.Wallet.CostBasis
import Neonfi.Wallet.CostMap

/-!
# Empty wallets and unknown ones

`fetchWalletSummaryForSync` asks the configured providers of a chain in order.  Its answer
"empty" lets a resync set every balance to zero, so it must come from providers that report
balances.  The two providers that only serve value history answer every summary request with
an error, which the loop cannot tell from an outage.
-/

namespace Neonfi.Wallet

open Lib
open Ledger (Db Token Portfolio Asset Env)

/-! ## The providers -/

inductive ProviderKind
  | moralis
  | zerion
  | mobula
  | goldrush
  | alchemy
  | ankr
  deriving DecidableEq, Repr

namespace ProviderKind

/-- The chains that Zerion and Mobula serve. -/
def historySlugs : List String :=
  ["eth", "polygon", "bnb", "arbitrum", "optimism", "base", "avalanche", "fantom", "linea",
    "zksync", "gnosis", "cronos", "mantle"]

def chainSlugs : ProviderKind → List String
  | moralis =>
      ["eth", "polygon", "bnb", "arbitrum", "optimism", "base", "avalanche", "solana", "fantom",
        "linea", "zksync", "polygon-zkevm", "cronos", "gnosis", "mantle"]
  | zerion => historySlugs
  | mobula => historySlugs
  | goldrush =>
      ["eth", "polygon", "bnb", "arbitrum", "optimism", "base", "avalanche", "fantom", "linea",
        "zksync", "gnosis", "cronos", "mantle", "solana"]
  | alchemy =>
      ["eth", "polygon", "arbitrum", "optimism", "base", "avalanche", "bnb", "fantom", "linea",
        "gnosis", "solana"]
  | ankr =>
      ["eth", "polygon", "bnb", "arbitrum", "optimism", "base", "avalanche", "fantom", "linea",
        "gnosis"]

/-- Zerion and Mobula only serve value history. -/
def reportsBalances : ProviderKind → Bool
  | zerion => false
  | mobula => false
  | _ => true

end ProviderKind

inductive ProviderResult
  | ok (summary : Option WalletSummary)
  | empty
  | error

def ProviderResult.answer : ProviderResult → Answer WalletSummary
  | ok (some summary) => .data summary
  | ok none => .failed
  | empty => .empty
  | error => .failed

/-- The summary side of a `WalletDataProvider`.  `balances` is what its balance endpoint makes
of an address on a chain it supports. -/
structure SummaryProvider where
  kind : ProviderKind
  apiKey : Option String
  balances : (address chainSlug : String) → ProviderResult

namespace SummaryProvider

variable (p : SummaryProvider)

def isConfigured : Bool := (p.apiKey.filter (· ≠ "")).isSome

def supportsChain (chainSlug : String) : Bool := p.kind.chainSlugs.contains chainSlug

/-- The loop asks the provider about the chain. -/
def isAsked (chainSlug : String) (p : SummaryProvider) : Bool :=
  p.isConfigured && p.supportsChain chainSlug

/-- The providers of value history never produce a summary. -/
def getSummary (address chainSlug : String) : ProviderResult :=
  if p.kind.reportsBalances && p.supportsChain chainSlug then p.balances address chainSlug
  else .error

end SummaryProvider

/-! ## The loop -/

section Chain

variable (address chainSlug : String)

def fetchSummaryAfter (sawEmpty sawError : Bool) : List SummaryProvider → SummaryResult
  | [] => if sawEmpty && !sawError then .empty else .error
  | p :: providers =>
      if !p.isConfigured || !p.supportsChain chainSlug then
        fetchSummaryAfter sawEmpty sawError providers
      else
        match p.getSummary address chainSlug with
        | .ok (some summary) => .ok summary
        | .empty => fetchSummaryAfter true sawError providers
        | _ => fetchSummaryAfter sawEmpty true providers

def fetchWalletSummaryForSync (providers : List SummaryProvider) : SummaryResult :=
  fetchSummaryAfter address chainSlug false false providers

/-- The configured providers of the chain. -/
def asked (providers : List SummaryProvider) : List SummaryProvider :=
  providers.filter (SummaryProvider.isAsked chainSlug)

def providerAnswers (providers : List SummaryProvider) : List (Answer WalletSummary) :=
  (asked chainSlug providers).map fun p => (p.getSummary address chainSlug).answer

end Chain

def SummaryResult.ofAnswer : Answer WalletSummary → SummaryResult
  | .data summary => .ok summary
  | .empty => .empty
  | .failed => .error

section Verdict

variable {address chainSlug : String}

/-- The loop is the fallback over the providers it asks. -/
theorem fetchSummaryAfter_eq (sawEmpty sawError : Bool) (providers : List SummaryProvider) :
    fetchSummaryAfter address chainSlug sawEmpty sawError providers =
      .ofAnswer (verdictAfter sawEmpty sawError (providerAnswers address chainSlug providers)) := by
  induction providers generalizing sawEmpty sawError with
  | nil =>
      unfold providerAnswers asked fetchSummaryAfter
      rw [List.filter_nil, List.map_nil, verdictAfter]
      split <;> rfl
  | cons p providers ih =>
      unfold fetchSummaryAfter
      unfold providerAnswers asked at ih ⊢
      have hguard : (!p.isConfigured || !p.supportsChain chainSlug) = !p.isAsked chainSlug :=
        (Bool.not_and _ _).symm
      rw [hguard]
      cases hasked : p.isAsked chainSlug with
      | false =>
          rw [if_pos (Bool.not_false), List.filter_cons_of_neg (by simp [hasked]), ih]
      | true =>
          rw [if_neg (by decide), List.filter_cons_of_pos hasked, List.map_cons]
          cases hresult : p.getSummary address chainSlug with
          | empty => exact ih true sawError
          | error => exact ih sawEmpty true
          | ok summary =>
              cases summary with
              | some summary => rfl
              | none => exact ih sawEmpty true

theorem fetch_eq_verdict (providers : List SummaryProvider) :
    fetchWalletSummaryForSync address chainSlug providers =
      .ofAnswer (verdict (providerAnswers address chainSlug providers)) :=
  fetchSummaryAfter_eq false false providers

end Verdict

/-! ## When a wallet is verified to be empty -/

/-- No provider has data, one that reports balances says empty and none of those fails. -/
structure VerifiedEmpty (address chainSlug : String) (providers : List SummaryProvider) :
    Prop where
  noData : ∀ p ∈ asked chainSlug providers, (p.getSummary address chainSlug).answer.data? = none
  saysEmpty : ∃ p ∈ asked chainSlug providers, p.kind.reportsBalances ∧
    (p.getSummary address chainSlug).answer.isEmpty
  noFailure : ∀ p ∈ asked chainSlug providers, p.kind.reportsBalances →
    (p.getSummary address chainSlug).answer.isFailed = false

/-- A provider that reports balances fails, and no provider has data. -/
structure Outage (address chainSlug : String) (providers : List SummaryProvider) : Prop where
  noData : ∀ p ∈ asked chainSlug providers, (p.getSummary address chainSlug).answer.data? = none
  fails : ∃ p ∈ asked chainSlug providers, p.kind.reportsBalances ∧
    (p.getSummary address chainSlug).answer.isFailed

/-- The chain asks no provider that only serves value history. -/
def AsksBalancesOnly (chainSlug : String) (providers : List SummaryProvider) : Prop :=
  ∀ p ∈ asked chainSlug providers, p.kind.reportsBalances

section Empty

variable {address chainSlug : String} {providers : List SummaryProvider}

theorem getSummary_of_historyOnly {p : SummaryProvider} (h : p.kind.reportsBalances = false) :
    p.getSummary address chainSlug = .error := by
  unfold SummaryProvider.getSummary
  rw [h, Bool.false_and]
  rfl

theorem mem_providerAnswers {x : Answer WalletSummary} :
    x ∈ providerAnswers address chainSlug providers ↔
      ∃ p ∈ asked chainSlug providers, (p.getSummary address chainSlug).answer = x :=
  List.mem_map

theorem fetch_eq_empty_iff :
    fetchWalletSummaryForSync address chainSlug providers = .empty ↔
      verdict (providerAnswers address chainSlug providers) = .empty := by
  rw [fetch_eq_verdict]
  cases verdict (providerAnswers address chainSlug providers) with
  | data summary => exact ⟨nofun, nofun⟩
  | empty => exact ⟨fun _ => rfl, fun _ => rfl⟩
  | failed => exact ⟨nofun, nofun⟩

/-- The code's answer: all providers count, whatever they serve. -/
theorem fetch_empty_iff :
    fetchWalletSummaryForSync address chainSlug providers = .empty ↔
      VerifiedEmpty address chainSlug providers ∧ AsksBalancesOnly chainSlug providers := by
  rw [fetch_eq_empty_iff, verdict_eq_empty_iff]
  simp only [mem_providerAnswers, forall_exists_index, and_imp, forall_apply_eq_imp_iff₂]
  constructor
  · rintro ⟨hnone, ⟨x, ⟨p, hp, rfl⟩, hempty⟩, hfine⟩
    have hbalances : AsksBalancesOnly chainSlug providers := by
      intro q hq
      by_contra hhistory
      have hanswer := hfine q hq
      rw [getSummary_of_historyOnly (Bool.eq_false_iff.mpr hhistory)] at hanswer
      cases hanswer
    exact ⟨⟨hnone, ⟨p, hp, hbalances p hp, hempty⟩, fun q hq _ => hfine q hq⟩, hbalances⟩
  · rintro ⟨⟨hnone, ⟨p, hp, -, hempty⟩, hfine⟩, hbalances⟩
    exact ⟨hnone, ⟨_, ⟨p, hp, rfl⟩, hempty⟩, fun q hq => hfine q hq (hbalances q hq)⟩

theorem fetch_of_outage (h : Outage address chainSlug providers) :
    fetchWalletSummaryForSync address chainSlug providers = .error := by
  have hfailed : verdict (providerAnswers address chainSlug providers) = .failed := by
    refine verdict_of_failed ?_ ?_
    · intro x hx
      obtain ⟨p, hp, rfl⟩ := mem_providerAnswers.mp hx
      exact h.noData p hp
    · obtain ⟨p, hp, -, hfails⟩ := h.fails
      exact ⟨_, mem_providerAnswers.mpr ⟨p, hp, rfl⟩, hfails⟩
  rw [fetch_eq_verdict, hfailed]
  rfl

/-- The providers that report balances. -/
def balanceProviders (providers : List SummaryProvider) : List SummaryProvider :=
  providers.filter fun p => p.kind.reportsBalances

theorem mem_asked_balanceProviders {p : SummaryProvider} :
    p ∈ asked chainSlug (balanceProviders providers) ↔
      p ∈ asked chainSlug providers ∧ p.kind.reportsBalances := by
  unfold asked balanceProviders
  simp only [List.mem_filter]
  exact and_right_comm

theorem verifiedEmpty_balanceProviders :
    VerifiedEmpty address chainSlug (balanceProviders providers) ↔
      VerifiedEmpty address chainSlug providers := by
  constructor
  · rintro ⟨hnone, ⟨p, hp, hbalances, hempty⟩, hfine⟩
    refine ⟨fun q hq => ?_, ⟨p, (mem_asked_balanceProviders.mp hp).1, hbalances, hempty⟩,
      fun q hq hq' => hfine q (mem_asked_balanceProviders.mpr ⟨hq, hq'⟩) hq'⟩
    by_cases hq' : q.kind.reportsBalances
    · exact hnone q (mem_asked_balanceProviders.mpr ⟨hq, hq'⟩)
    · rw [getSummary_of_historyOnly (Bool.eq_false_iff.mpr hq')]
      rfl
  · rintro ⟨hnone, ⟨p, hp, hbalances, hempty⟩, hfine⟩
    exact ⟨fun q hq => hnone q (mem_asked_balanceProviders.mp hq).1,
      ⟨p, mem_asked_balanceProviders.mpr ⟨hp, hbalances⟩, hbalances, hempty⟩,
      fun q hq => hfine q (mem_asked_balanceProviders.mp hq).1⟩

theorem asksBalancesOnly_balanceProviders :
    AsksBalancesOnly chainSlug (balanceProviders providers) :=
  fun _ hp => (mem_asked_balanceProviders.mp hp).2

end Empty

/-! ## What a resync writes -/

/-- The profit figures of the provider fit the column they are written to. -/
def FiguresFit (pnl : Option (List PnlToken)) : Prop :=
  ∀ items ∈ pnl, ∀ t ∈ items, column.fits (signedDec8 t.cost.realized)

section Zeroing

variable {text : Text} {p : ℕ} {db : Db}

/-- Every entry of the cost map is an item of the provider. -/
theorem exists_item_of_mem_costMap {held : List HeldToken} {pnl : List PnlToken} {map : CostMap}
    (hmap : buildConnectedCostMap text p held pnl db = some map) {entry : ℕ × TokenCost}
    (hentry : entry ∈ map) : ∃ t ∈ pnl, entry.2 = t.cost := by
  have hitems : ∀ item ∈ pnl.filterMap (fun t =>
      (t.contractAddress.filter fun contract => contract ≠ "" ∧ t.hasInfo).map fun contract =>
        (contract, t.cost)), ∃ t ∈ pnl, item.2 = t.cost := by
    intro item hitem
    obtain ⟨t, ht, hpair⟩ := List.mem_filterMap.mp hitem
    obtain ⟨contract, -, rfl⟩ := Option.map_eq_some_iff.mp hpair
    exact ⟨t, ht, rfl⟩
  unfold buildConnectedCostMap at hmap
  dsimp only at hmap
  split at hmap
  · cases hmap
  · cases hmap
    rcases List.mem_append.mp hentry with hknown | hlate
    · obtain ⟨item, hitem, hrow⟩ := List.mem_filterMap.mp hknown
      obtain ⟨tokenId, -, rfl⟩ := Option.map_eq_some_iff.mp hrow
      exact hitems item hitem
    · obtain ⟨item, hitem, hrow⟩ := List.mem_filterMap.mp hlate
      obtain ⟨tokenId, -, rfl⟩ := Option.map_eq_some_iff.mp hrow
      exact hitems item (List.mem_of_mem_filter hitem)

/-- With nothing held, what is written into a row is a balance of 0. -/
theorem balance_write_nil (cost : Option CostMap) (tokenId : ℕ) (a : Asset) :
    ((balanceWrite [] cost tokenId).apply a).balance = 0 := by
  have hzero : toDecimalString 0 = 0 := by decide +kernel
  rw [BalanceWrite.balance_apply]
  exact hzero

theorem fits_write_nil {pnl : Option (List PnlToken)} (hfit : FiguresFit pnl) (tokenId : ℕ) :
    (balanceWrite [] (resolveConnectedCostMap text p [] pnl db) tokenId).fits := by
  have hzero : toDecimalString 0 = 0 := by decide +kernel
  have hfits : column.fits 0 = true := by decide +kernel
  cases hcost : resolveConnectedCostMap text p [] pnl db with
  | none => simp [balanceWrite, heldById, BalanceWrite.fits, BalanceWrite.decimals, hzero, hfits]
  | some map =>
      have hrealized :
          column.fits (signedDec8 (((lastSet map tokenId).map TokenCost.realized).getD 0)) := by
        cases hlast : lastSet map tokenId with
        | none => decide +kernel
        | some entry =>
            obtain ⟨items, hitems, hmap⟩ := Option.bind_eq_some_iff.mp hcost
            obtain ⟨t, ht, hentry⟩ := exists_item_of_mem_costMap hmap (mem_of_lastSet hlast)
            change entry = t.cost at hentry
            rw [Option.map_some, Option.getD_some, hentry]
            exact hfit items hitems t ht
      simp [balanceWrite, heldById, BalanceWrite.fits, BalanceWrite.decimals, costColumns, hzero,
        hfits, hrealized]

/-- The pass over an empty wallet: the feed is imported, and nothing is held. -/
theorem syncHoldings_of_empty {portfolio : Portfolio} {answers : Answers}
    (hempty : answers.summary = .empty) :
    ∃ imported mid, syncHoldings text portfolio answers db =
      (.ok ⟨imported, 0⟩, setConnectedBalancesFromSummary portfolio.id []
        (resolveConnectedCostMap text portfolio.id [] answers.pnl mid) mid) := by
  unfold syncHoldings
  rw [hempty]
  exact ⟨_, _, rfl⟩

/-- A resync of an empty wallet sets every row of the portfolio to zero. -/
theorem balance_of_empty {text : Text} {portfolio : Portfolio} {answers : Answers} {db : Db}
    (hempty : answers.summary = .empty) (hfit : FiguresFit answers.pnl) :
    (syncHoldings text portfolio answers db).1.isOk ∧
      ∀ tokenId a, (syncHoldings text portfolio answers db).2.findAsset portfolio.id tokenId =
        some a → a.balance = 0 := by
  obtain ⟨imported, mid, hpass⟩ := @syncHoldings_of_empty text db portfolio answers hempty
  rw [hpass]
  refine ⟨rfl, fun tokenId a ha => ?_⟩
  rw [findAsset_setConnectedBalances, if_neg (by simp)] at ha
  split at ha
  · obtain ⟨b, -, hzeroed⟩ := Option.map_eq_some_iff.mp ha
    rw [← hzeroed]
    unfold zeroed
    split <;> rfl
  · rw [if_pos (fits_write_nil hfit tokenId)] at ha
    cases ha
    exact balance_write_nil _ _ _

end Zeroing

/-- A resync that asks these providers for the summary. -/
def resyncFrom (text : Text) (providers : List SummaryProvider) (address chainSlug : String)
    (portfolioId chainId : ℕ) (answers : Answers) (db : Db) : Except SyncError ResyncResult × Db :=
  resyncConnectedHoldings text portfolioId (some address) (some chainId)
    { answers with summary := fetchWalletSummaryForSync address chainSlug providers } db

/-- The answer "empty" is that of the providers which report balances, and a resync follows it:
it sets an empty wallet to zero, and after an outage it leaves the rows alone. -/
structure TellsEmpty (address chainSlug : String) (providers : List SummaryProvider) : Prop where
  exact : fetchWalletSummaryForSync address chainSlug providers = .empty ↔
    VerifiedEmpty address chainSlug providers
  independent : fetchWalletSummaryForSync address chainSlug providers = .empty ↔
    fetchWalletSummaryForSync address chainSlug (balanceProviders providers) = .empty
  zeroes : VerifiedEmpty address chainSlug providers →
    ∀ (text : Text) (portfolio : Portfolio) (chainId : ℕ) (answers : Answers) (db : Db),
      address ≠ "" → db.findPortfolioById portfolio.id = some portfolio →
        FiguresFit answers.pnl →
          (resyncFrom text providers address chainSlug portfolio.id chainId answers db).1.isOk ∧
            ∀ tokenId a,
              (resyncFrom text providers address chainSlug portfolio.id chainId answers
                db).2.findAsset portfolio.id tokenId = some a → a.balance = 0
  spares : Outage address chainSlug providers →
    ∀ (text : Text) (portfolioId chainId : ℕ) (answers : Answers) (db : Db),
      (resyncFrom text providers address chainSlug portfolioId chainId answers db).2 = db

section Resync

variable {text : Text} {address chainSlug : String} {providers : List SummaryProvider}

theorem resyncFrom_of_found {portfolio : Portfolio} {chainId : ℕ} {answers : Answers} {db : Db}
    (haddress : address ≠ "") (hfound : db.findPortfolioById portfolio.id = some portfolio) :
    resyncFrom text providers address chainSlug portfolio.id chainId answers db =
      syncHoldings text portfolio
        { answers with summary := fetchWalletSummaryForSync address chainSlug providers } db := by
  have hfilter : (some address).filter (· ≠ "") = some address := by simp [haddress]
  unfold resyncFrom resyncConnectedHoldings
  rw [hfound, hfilter]

/-- A summary that no provider could verify leaves the database alone. -/
theorem resyncFrom_of_error {portfolioId chainId : ℕ} {answers : Answers} {db : Db}
    (herror : fetchWalletSummaryForSync address chainSlug providers = .error) :
    (resyncFrom text providers address chainSlug portfolioId chainId answers db).2 = db := by
  unfold resyncFrom resyncConnectedHoldings
  split
  · unfold syncHoldings
    dsimp only
    rw [herror]
  · rfl

/-- Empty wallets and unknown ones are told apart exactly when, for a wallet that is verified to
be empty, no provider is asked that only serves value history. -/
theorem tellsEmpty_iff :
    TellsEmpty address chainSlug providers ↔
      (VerifiedEmpty address chainSlug providers → AsksBalancesOnly chainSlug providers) := by
  constructor
  · intro htells hverified
    exact (fetch_empty_iff.mp (htells.exact.mpr hverified)).2
  · intro hbalances
    have hexact : fetchWalletSummaryForSync address chainSlug providers = .empty ↔
        VerifiedEmpty address chainSlug providers := by
      rw [fetch_empty_iff]
      exact ⟨And.left, fun h => ⟨h, hbalances h⟩⟩
    refine ⟨hexact, ?_, ?_, ?_⟩
    · rw [hexact, fetch_empty_iff, verifiedEmpty_balanceProviders]
      exact (and_iff_left asksBalancesOnly_balanceProviders).symm
    · intro hverified text portfolio chainId answers db haddress hfound hfit
      rw [resyncFrom_of_found haddress hfound]
      exact balance_of_empty (hexact.mpr hverified) hfit
    · intro houtage text portfolioId chainId answers db
      exact resyncFrom_of_error (fetch_of_outage houtage)

end Resync

/-! ## An empty wallet beside a provider of value history -/

/-- Moralis has seen the wallet empty; Zerion has a key, too. -/
def emptyBesideZerion : List SummaryProvider :=
  [⟨.moralis, some "key", fun _ _ => .empty⟩, ⟨.zerion, some "key", fun _ _ => .error⟩]

theorem emptyBesideZerion_verified : VerifiedEmpty "0xaa" "eth" emptyBesideZerion where
  noData p hp := by
    rcases List.mem_pair.mp (List.mem_of_mem_filter hp) with rfl | rfl <;> rfl
  saysEmpty := ⟨_, List.mem_filter.mpr ⟨List.mem_cons_self, rfl⟩, rfl, rfl⟩
  noFailure p hp hbalances := by
    rcases List.mem_pair.mp (List.mem_of_mem_filter hp) with rfl | rfl
    · rfl
    · cases hbalances

/-- The claim about every chain of providers. -/
def AlwaysTellsEmpty : Prop :=
  ∀ address chainSlug providers, TellsEmpty address chainSlug providers

theorem not_alwaysTellsEmpty : ¬ AlwaysTellsEmpty := by
  intro htells
  have hempty := (htells "0xaa" "eth" emptyBesideZerion).exact.mpr emptyBesideZerion_verified
  have herror : fetchWalletSummaryForSync "0xaa" "eth" emptyBesideZerion = .error := rfl
  rw [herror] at hempty
  cases hempty

end Neonfi.Wallet

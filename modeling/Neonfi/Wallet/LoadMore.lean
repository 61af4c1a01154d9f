import Neonfi.Lib.Admission
import Neonfi.Lib.Run
import Neonfi.Wallet.Holdings

/-!
# Loading more of a wallet's history

`importMoreTransfers` walks back through the transfer history of a wallet, one page at a time,
with a cursor that the provider of the last page issued.  A page that the issuer does not
supply ends the walk or hands its cursor to the next provider; as long as the issuer is the
first provider of the chain and answers, the walk asks for every page once, in order.
-/

namespace Neonfi.Wallet

open Lib
open Ledger (Db Portfolio Env)

/-! ## Providers -/

structure PageOpts where
  cursor : Option String := none
  limit : ℕ := 100

structure TransferPage where
  transfers : List WalletTransfer
  nextCursor : Option String
  totalCount : Option ℕ := none

/-- The history side of a `WalletDataProvider`, as it answers at one moment. -/
structure WalletDataProvider where
  name : String
  isConfigured : Bool
  supportsChain : String → Bool
  getTransferHistory : Option (String → String → PageOpts → Option TransferPage)

/-- What the fallback loop calls: a provider that is not configured, does not support the chain
or has no history is skipped. -/
def WalletDataProvider.history (p : WalletDataProvider) (slug : String) :
    Option (String → PageOpts → Option TransferPage) :=
  if p.isConfigured ∧ p.supportsChain slug then
    p.getTransferHistory.map fun get address => get address slug
  else none

section Chain

variable (address slug : String) (opts : PageOpts)

/-- The first page that a provider of the chain returns. -/
def fetchTransferPage : List WalletDataProvider → Option TransferPage
  | [] => none
  | p :: providers =>
      match p.history slug with
      | none => fetchTransferPage providers
      | some get => (get address opts).or (fetchTransferPage providers)

/-- The providers the loop asks for the page, by name. -/
def askedProviders : List WalletDataProvider → List String
  | [] => []
  | p :: providers =>
      match p.history slug with
      | none => askedProviders providers
      | some get =>
          p.name :: if (get address opts).isNone then askedProviders providers else []

end Chain

/-! ### The adapters

`gateway` is what the service answers a request with, decoded; `none` is a failed request. -/

structure Reply where
  transfers : List WalletTransfer
  cursor : Option String
  total : Option ℕ := none

/-- Moralis hands any cursor to its gateway. -/
def moralisProvider (apiKey : Option String) (chainId : String → Option String)
    (gateway : String → String → ℕ → Option String → Option Reply) : WalletDataProvider where
  name := "moralis"
  isConfigured := (apiKey.filter (· ≠ "")).isSome
  supportsChain slug := (chainId slug).isSome
  getTransferHistory := some fun address slug opts =>
    if slug = "solana" then none
    else
      (chainId slug).bind fun hex =>
        (gateway address hex opts.limit (opts.cursor.filter (· ≠ ""))).map fun reply =>
          ⟨reply.transfers, reply.cursor, reply.total⟩

/-- `/^https?:\/\//`. -/
def isUrl (cursor : String) : Bool :=
  "http://".toList.isPrefixOf cursor.toList || "https://".toList.isPrefixOf cursor.toList

/-- GoldRush takes a cursor that is no URL for the first page. -/
def goldrushProvider (apiKey : Option String) (covChain : String → Option String)
    (gateway : String → String → Option String → Option Reply) : WalletDataProvider where
  name := "goldrush"
  isConfigured := (apiKey.filter (· ≠ "")).isSome
  supportsChain slug := (covChain slug).isSome
  getTransferHistory := some fun address slug opts =>
    if slug = "solana" then none
    else
      (covChain slug).bind fun cov =>
        (gateway address cov (opts.cursor.filter isUrl)).map fun reply =>
          ⟨reply.transfers, reply.cursor, none⟩

inductive TransferSide
  | sent
  | received

/-- The two page keys that the cursor of Alchemy packs. -/
structure AlchemyCursor where
  f : Option String
  t : Option String
  deriving DecidableEq, Repr

/-- `JSON.stringify` and `JSON.parse` of the packed keys. -/
structure CursorCodec where
  stringify : AlchemyCursor → String
  parse : String → Option AlchemyCursor
  parse_stringify : ∀ c, parse (stringify c) = some c

/-- What one query answers: the transfers under their unique ids, and the key of the next page. -/
structure AlchemyResult where
  transfers : List (String × Option WalletTransfer)
  pageKey : Option String

/-- The page of what the two queries answered, each transfer once; it fails only if both did. -/
def alchemyPage (codec : CursorCodec) (rf rt : Option AlchemyResult) : Option TransferPage :=
  if rf.isNone && rt.isNone then none
  else
    let legs := (rf.elim [] AlchemyResult.transfers) ++ rt.elim [] AlchemyResult.transfers
    let nf := rf.bind AlchemyResult.pageKey
    let nt := rt.bind AlchemyResult.pageKey
    some
      { transfers := (firstClaims (fun leg => some leg.1) [] legs).filterMap Prod.snd
        nextCursor :=
          if nf.filter (· ≠ "") = none ∧ nt.filter (· ≠ "") = none then none
          else some (codec.stringify ⟨nf, nt⟩) }

/-- Alchemy queries each side that still has a key. -/
def alchemyProvider (codec : CursorCodec) (apiKey : Option String)
    (network : String → Option String)
    (gateway : String → String → ℕ → TransferSide → Option String → Option AlchemyResult) :
    WalletDataProvider where
  name := "alchemy"
  isConfigured := (apiKey.filter (· ≠ "")).isSome
  supportsChain slug := (network slug).isSome
  getTransferHistory := some fun address slug opts =>
    if slug = "solana" then none
    else
      (network slug).bind fun net =>
        let given := opts.cursor.filter (· ≠ "")
        (given.elim (some ⟨none, none⟩) codec.parse).bind fun cur =>
          let query (side : TransferSide) (pageKey : Option String) : Option AlchemyResult :=
            if given = none ∨ pageKey ≠ none then
              gateway address net opts.limit side (pageKey.filter (· ≠ ""))
            else none
          alchemyPage codec (query .sent cur.f) (query .received cur.t)

/-- GoldRush answers the cursor of another provider as it answers the first request. -/
theorem goldrush_foreign (apiKey : Option String) (covChain : String → Option String)
    (gateway : String → String → Option String → Option Reply) {slug address cursor : String}
    {limit : ℕ} (hforeign : isUrl cursor = false) :
    ∀ get ∈ (goldrushProvider apiKey covChain gateway).getTransferHistory,
      get address slug { cursor := some cursor, limit } = get address slug { limit } := by
  intro get hget
  cases hget
  have hfirst : (some cursor).filter isUrl = none := by
    rw [Option.filter_some, hforeign]
    rfl
  dsimp only
  rw [hfirst, Option.filter_none]

/-- When the query of one side fails, the cursor of the page has lost that side. -/
theorem alchemy_forgets (codec : CursorCodec) (reply : AlchemyResult) :
    ∃ page, alchemyPage codec none (some reply) = some page ∧
      ∀ next ∈ page.nextCursor, codec.parse next = some ⟨none, reply.pageKey⟩ := by
  refine ⟨_, rfl, fun next hnext => ?_⟩
  dsimp only at hnext
  split at hnext
  · cases hnext
  · cases hnext
    exact codec.parse_stringify _

/-! ## Load more -/

def PAGE_LIMIT : ℕ := 50

/-- The ledger and the `syncCursor` column of its portfolios. -/
structure FeedState where
  db : Db
  syncCursor : ℕ → Option String

/-- The cursor a falsy value stands for none. -/
def FeedState.cursor (s : FeedState) (portfolioId : ℕ) : Option String :=
  (s.syncCursor portfolioId).filter (· ≠ "")

def FeedState.setCursor (s : FeedState) (portfolioId : ℕ) (cursor : Option String) : FeedState :=
  { s with syncCursor := Function.update s.syncCursor portfolioId cursor }

@[simp] theorem FeedState.cursor_setCursor (s : FeedState) (portfolioId : ℕ)
    (cursor : Option String) :
    (s.setCursor portfolioId cursor).cursor portfolioId = cursor.filter (· ≠ "") := by
  simp [FeedState.cursor, FeedState.setCursor]

/-- One call: the providers as they answer now, and what the import needs. -/
structure LoadCall where
  providers : List WalletDataProvider
  env : Env
  nftStored : WalletTransfer → Bool

section Load

variable (text : Text) (slugOf : ℕ → Option String)

/-- The wallet a load reads from: address, chain and stored cursor of a connected portfolio. -/
def loadTarget (portfolioId : ℕ) (s : FeedState) : Option (Portfolio × String × String × String) :=
  (s.db.findPortfolioById portfolioId).bind fun portfolio =>
    if portfolio.type ≠ .connected then none
    else
      (portfolio.walletAddress.filter (· ≠ "")).bind fun address =>
        (portfolio.chainId.bind slugOf).bind fun slug =>
          (s.cursor portfolioId).map fun cursor => (portfolio, address, slug, cursor)

structure LoadResult where
  imported : ℕ := 0
  nextCursor : Option String := none

def importMoreTransfers (portfolioId : ℕ) (call : LoadCall) (s : FeedState) :
    LoadResult × FeedState :=
  match loadTarget slugOf portfolioId s with
  | none => ({}, s)
  | some (portfolio, address, slug, cursor) =>
      match fetchTransferPage address slug { cursor := some cursor, limit := PAGE_LIMIT }
          call.providers with
      | none => ({}, s.setCursor portfolioId none)
      | some page =>
          let (imported, db) :=
            importTransfers text call.env portfolio call.nftStored page.transfers s.db
          (⟨imported, page.nextCursor⟩,
            { s with db }.setCursor portfolioId page.nextCursor)

/-- The requests of a load: who is asked, and the cursor it is given. -/
def requestsOf (portfolioId : ℕ) (call : LoadCall) (s : FeedState) : List (String × String) :=
  match loadTarget slugOf portfolioId s with
  | none => []
  | some (_, address, slug, cursor) =>
      (askedProviders address slug { cursor := some cursor, limit := PAGE_LIMIT }
        call.providers).map fun name => (name, cursor)

end Load

end Neonfi.Wallet

import Neonfi.Ledger.Rows
import Neonfi.Wallet.Resolution
import Neonfi.Webhooks.Replay

/-!
# The token of a transfer

The webhook and the history import each look for the catalog row of an ERC-20 transfer: the
webhook by the symbol, the import by the contract and then by the symbol.
-/

namespace Neonfi.Webhooks

open Lib
open JsonValue
open Ledger (Db Token Portfolio Failure Millis Direction Env TransactionData Transaction bind_eq_ok
  require_ok createAsset_ok createIfNeeded_ok createTransactionRow_ok
  transactions_recalcAssetBalance transactions_recalcPortfolioNetDeposit)
open Wallet (FeedBody TokenResolveInput WalletTransfer feedUsdValue normalizeContract findTokenFor
  findTokenByContract findTokenBySymbol resolveOrCreateToken importFungibleTransfer
  createTransactionFromWebhook createTransactionFromWebhook_ok insertFeedRow_ok)

/-- The transfer as the webhook and as a provider report it, as far as its token goes. -/
structure SameTransfer (transfer : JsonValue) (tr : WalletTransfer) : Prop where
  type : tr.type = .erc20
  symbol : (transfer.field "tokenSymbol").bind text? = tr.symbol
  contract : (transfer.field "contract").bind text? = tr.contractAddress

/-- The rows that were added are booked under this symbol, which the catalog holds once. -/
def BookedUnder (symbol : String) (db db' : Db) : Prop :=
  ∃ new, db'.transactions.rows = db.transactions.rows ++ new ∧
    ∀ t ∈ new, t.symbol? = some symbol

/-- A row other than that of the symbol carries the contract. -/
def ListedElsewhere (text : Wallet.Text) (symbol : String) (contractAddress : Option String)
    (db : Db) : Prop :=
  ∃ c token, normalizeContract text contractAddress = some c ∧
    findTokenByContract text c db = some token ∧ findTokenBySymbol text symbol db ≠ some token

section Reports

variable (rt : Runtime) (moment : Moment) (chainId : ℕ) (timestamp : Millis)
  (transfer : JsonValue) (env : Env) (portfolio : Portfolio) (tr : WalletTransfer) (s : Booked)

/-- The tables after the webhook. -/
def liveDb : Db := (processErc20Transfer rt moment chainId timestamp transfer s).2.db

/-- The tables after the import. -/
def importedDb : Db := (importFungibleTransfer rt.toText env portfolio tr s.db).2

/-- A transfer that the webhook records is booked under the same token by both, under the one
that carries its contract if there is one, and never under a token of another contract. -/
def AttributedAlike : Prop :=
  SameTransfer transfer tr →
  (liveDb rt moment chainId timestamp transfer s).transactions.rows ≠ s.db.transactions.rows →
    ∃ token ∈ s.db.tokens.rows,
      BookedUnder token.symbol s.db (liveDb rt moment chainId timestamp transfer s) ∧
      BookedUnder token.symbol s.db (importedDb rt env portfolio tr s) ∧
      ∀ c, normalizeContract rt.toText tr.contractAddress = some c →
        (∀ t, findTokenByContract rt.toText c s.db = some t → token = t) ∧
        ∀ d, token.contractAddress = some d → rt.insensitive d c

end Reports

/-! ## The rows of one booking -/

namespace BookedUnder

variable {symbol : String} {db db' db'' : Db}

theorem of_rows_eq (h : db'.transactions.rows = db.transactions.rows) :
    BookedUnder symbol db db' :=
  ⟨[], by rw [h, List.append_nil], fun _ ht => (List.not_mem_nil ht).elim⟩

theorem trans (h : BookedUnder symbol db db') (h' : BookedUnder symbol db' db'') :
    BookedUnder symbol db db'' := by
  obtain ⟨new, hrows, hnew⟩ := h
  obtain ⟨new', hrows', hnew'⟩ := h'
  refine ⟨new ++ new', ?_, ?_⟩
  · rw [hrows', hrows, List.append_assoc]
  · intro t ht
    rcases List.mem_append.mp ht with ht | ht
    · exact hnew t ht
    · exact hnew' t ht

theorem symbol_eq {name : String} {names : List (Option String)}
    (hempty : db.transactions.rows = []) (h : BookedUnder symbol db db')
    (hrows : db'.transactions.rows.map (fun t => t.symbol?) = some name :: names) :
    symbol = name := by
  obtain ⟨new, hadded, hnew⟩ := h
  rw [hadded, hempty, List.nil_append] at hrows
  obtain ⟨t, ts, rfl, ht, -⟩ := List.map_eq_cons_iff.mp hrows
  rw [hnew t List.mem_cons_self] at ht
  exact Option.some.inj ht

theorem createTransactionFromWebhook {env : Env} {portfolio : Portfolio} {body : FeedBody}
    {usdValueOverride : Option ℚ}
    (h : createTransactionFromWebhook env portfolio body usdValueOverride db = .ok db') :
    BookedUnder body.symbol db db' := by
  obtain ⟨token, timestamp, db₁, db₂, -, -, hcreate, hinsert, rfl, -⟩ :=
    createTransactionFromWebhook_ok h
  obtain ⟨transactions, rfl, hrows⟩ := createTransactionRow_ok (insertFeedRow_ok hinsert).2.1
  have hkept : db₁.transactions = db.transactions := by
    rcases createIfNeeded_ok hcreate with rfl | hasset
    · rfl
    · obtain ⟨assets, rfl, -⟩ := createAsset_ok hasset
      rfl
  rw [hkept] at hrows
  refine ⟨[⟨body.row portfolio.id timestamp (feedUsdValue env body usdValueOverride db),
    db.transactions.next⟩], ?_, ?_⟩
  · rw [transactions_recalcPortfolioNetDeposit, transactions_recalcAssetBalance]
    exact hrows
  · intro t ht
    rw [List.mem_singleton.mp ht]
    unfold TransactionData.symbol? FeedBody.row
    cases body.info with
    | none => rfl
    | some info => rfl

theorem ingest {rt : Runtime} {moment : Moment} {timestamp : Millis} {direction : Direction}
    {portfolio : Portfolio} {leg : Leg}
    (h : leg.ingest rt moment timestamp direction portfolio db = .ok db') :
    BookedUnder leg.symbol db db' := by
  unfold Leg.ingest at h
  split at h
  · next created hcreate =>
      cases h
      unfold Leg.create at hcreate
      obtain ⟨hash, -, hcreate⟩ := bind_eq_ok hcreate
      split at hcreate
      · exact createTransactionFromWebhook hcreate
      · obtain ⟨_, -, herror⟩ := bind_eq_ok hcreate
        cases herror
  · split at h
    · cases h
      exact of_rows_eq rfl
    · cases h

/-- Also where a later party is refused. -/
theorem bookCandidates {rt : Runtime} {moment : Moment} {timestamp : Millis} {chainId : ℕ}
    {leg : Leg} (cs : List (String × Direction)) (s : Booked) :
    BookedUnder leg.symbol s.db (bookCandidates rt moment leg chainId timestamp cs s).2.db := by
  induction cs generalizing s with
  | nil => exact of_rows_eq rfl
  | cons c cs ih =>
      obtain ⟨addr, direction⟩ := c
      unfold Webhooks.bookCandidates
      split
      · exact of_rows_eq rfl
      · exact ih s
      · next portfolio _ =>
          dsimp only
          split
          · exact of_rows_eq rfl
          · next db hingest => exact (ingest hingest).trans (ih _)

end BookedUnder

/-! ## The two lookups -/

section Lookups

variable {rt : Runtime} {moment : Moment} {chainId : ℕ} {timestamp : Millis}
  {transfer : JsonValue} {env : Env} {portfolio : Portfolio} {tr : WalletTransfer} {s : Booked}
  {symbol : String}

/-- The webhook reads the symbol and looks for it. -/
theorem readErc20Transfer_ok {leg : Leg} {db : Db}
    (h : readErc20Transfer rt transfer db = .ok (some leg)) :
    ∃ symbol token, (transfer.field "tokenSymbol").bind text? = some symbol ∧
      findTokenBySymbol rt.toText symbol db = some token ∧ leg.symbol = token.symbol := by
  unfold readErc20Transfer at h
  obtain ⟨fromAddr, -, h⟩ := bind_eq_ok h
  obtain ⟨toAddr, -, h⟩ := bind_eq_ok h
  split at h
  · cases h
  · next v hv =>
      obtain ⟨symbol, hsymbol, h⟩ := bind_eq_ok h
      obtain ⟨found, hfound, h⟩ := bind_eq_ok h
      have hfield := (Option.filter_eq_some_iff.mp hv).1
      have htext := require_ok hsymbol
      split at h
      · cases h
      · next token =>
          obtain ⟨amount, -, h⟩ := bind_eq_ok h
          refine ⟨symbol, token, ?_, ?_, ?_⟩
          · rw [hfield, Option.bind_some]
            exact htext
          · unfold findTransferToken at hfound
            split at hfound
            · exact Except.ok.inj hfound
            · cases hfound
          · have hleg := Except.ok.inj h
            obtain ⟨_, -, rfl⟩ := Option.map_eq_some_iff.mp hleg
            rfl

/-- What the webhook records is booked under the token of the symbol. -/
theorem live_bookedUnder
    (hrecorded : (liveDb rt moment chainId timestamp transfer s).transactions.rows ≠
      s.db.transactions.rows) :
    ∃ symbol token, (transfer.field "tokenSymbol").bind text? = some symbol ∧
      findTokenBySymbol rt.toText symbol s.db = some token ∧
      BookedUnder token.symbol s.db (liveDb rt moment chainId timestamp transfer s) := by
  unfold liveDb processErc20Transfer at hrecorded ⊢
  split at hrecorded
  · exact absurd rfl hrecorded
  · exact absurd rfl hrecorded
  · next leg hread =>
      obtain ⟨symbol, token, htext, hfound, hsymbol⟩ := readErc20Transfer_ok hread
      refine ⟨symbol, token, htext, hfound, ?_⟩
      rw [← hsymbol]
      exact BookedUnder.bookCandidates leg.candidates s

/-- A token that is in the catalog resolves to the row that is found. -/
theorem symbol_of_resolve {text : Wallet.Text} {i : TokenResolveInput} {token found : Token}
    {db db' : Db} (hfound : findTokenFor text i.symbol i.contractAddress db = some found)
    (h : resolveOrCreateToken text i db = .ok (token, db')) : token.symbol = found.symbol := by
  rcases (Wallet.resolve_ok h).2 with ⟨hfinds, -⟩ | hlists
  · rw [hfinds.found] at hfound
    rw [Option.some.inj hfound]
  · cases hlists with
    | backfill hcontract hnone hsymbol hfree hfits htoken hrows =>
        rw [Wallet.findTokenFor_eq, hcontract, Option.bind_some, hnone, hsymbol] at hfound
        rw [htoken, ← Option.some.inj hfound]
    | create hnone hcreatable hsymbol hcontract hrows =>
        rw [hnone] at hfound
        cases hfound

/-- What the import records is booked under the token that the lookup finds. -/
theorem imported_bookedUnder {token : Token} (hsymbol : tr.symbol = some symbol)
    (hfound : findTokenFor rt.toText symbol tr.contractAddress s.db = some token) :
    BookedUnder token.symbol s.db (importedDb rt env portfolio tr s) := by
  unfold importedDb importFungibleTransfer
  rw [hsymbol]
  split
  · exact .of_rows_eq rfl
  · next name hname =>
      obtain rfl := Option.some.inj (Option.filter_eq_some_iff.mp hname).1
      split
      · exact .of_rows_eq rfl
      · next row db hresolve =>
          have hrow : row.symbol = token.symbol := symbol_of_resolve hfound hresolve
          have hcatalog : BookedUnder token.symbol s.db db := by
            rw [Wallet.resolve_catalog hresolve]
            exact .of_rows_eq rfl
          split
          · next created hcreate =>
              have hbooked : BookedUnder row.symbol db created :=
                BookedUnder.createTransactionFromWebhook hcreate
              rw [hrow] at hbooked
              exact hcatalog.trans hbooked
          · exact hcatalog

theorem findTokenFor_of_not_listedElsewhere {text : Wallet.Text} {contractAddress : Option String}
    {db : Db} (h : ¬ ListedElsewhere text symbol contractAddress db) :
    findTokenFor text symbol contractAddress db = findTokenBySymbol text symbol db := by
  unfold findTokenFor
  cases hcontract : (normalizeContract text contractAddress).bind
      (findTokenByContract text · db) with
  | none => exact Option.none_or
  | some token =>
      obtain ⟨c, hgiven, hlisted⟩ := Option.bind_eq_some_iff.mp hcontract
      by_contra hne
      refine h ⟨c, token, hgiven, hlisted, ?_⟩
      intro hsymbol
      exact hne (by rw [hsymbol, Option.some_or])

/-- Where the webhook records a transfer, the import books it under the row of its contract, if
the catalog has one, and else under the row of its symbol, whatever the contract of that row.
So does the webhook unless another row than that of the symbol carries the contract. -/
theorem attribution (h : SameTransfer transfer tr)
    (hrecorded : (liveDb rt moment chainId timestamp transfer s).transactions.rows ≠
      s.db.transactions.rows) :
    ∃ symbol token, tr.symbol = some symbol ∧ token ∈ s.db.tokens.rows ∧
      findTokenFor rt.toText symbol tr.contractAddress s.db = some token ∧
      BookedUnder token.symbol s.db (importedDb rt env portfolio tr s) ∧
      (¬ ListedElsewhere rt.toText symbol tr.contractAddress s.db →
        BookedUnder token.symbol s.db (liveDb rt moment chainId timestamp transfer s)) := by
  obtain ⟨symbol, row, htext, hrow, hlive⟩ := live_bookedUnder hrecorded
  rw [h.symbol] at htext
  have hsome : (findTokenFor rt.toText symbol tr.contractAddress s.db).isSome := by
    unfold findTokenFor
    rw [hrow, Option.isSome_or]
    simp
  obtain ⟨token, hfound⟩ := Option.isSome_iff_exists.mp hsome
  refine ⟨symbol, token, htext, Wallet.findTokenFor_mem hfound, hfound,
    imported_bookedUnder htext hfound, ?_⟩
  intro hhere
  rw [findTokenFor_of_not_listedElsewhere hhere, hrow] at hfound
  rw [← Option.some.inj hfound]
  exact hlive

end Lookups

/-! ## One ticker, two contracts -/

def usdcRow (id : ℕ) (symbol contract : String) : Token where
  id := id
  symbol := symbol
  currentPrice := 1
  contractAddress := some contract

/-- The portfolio that receives the transfer. -/
def receiverPortfolio : Portfolio := trackedPortfolio 1 1 "0xaa"

/-- The ticker is listed with another contract. -/
def collisionDb : Db where
  tokens := ⟨[usdcRow 1 "USDC" "0xa0b8"], 2, by decide, by decide, by decide⟩
  portfolios := ⟨[receiverPortfolio], 2, by decide +kernel, by decide +kernel, by decide +kernel⟩
  assets := Table.empty
  transactions := SerialTable.empty

/-- The contract of the transfer is listed too, under another symbol. -/
def renamedDb : Db :=
  { collisionDb with
    tokens := ⟨[usdcRow 1 "USDC" "0xa0b8", usdcRow 2 "USDC.E" "0xc0de"], 3, by decide, by decide,
      by decide⟩ }

/-- The wallet receives five tokens with the ticker USDC. -/
def usdcTransfer : JsonValue :=
  .object
    [("transactionHash", .string "0x7e57"), ("contract", .string "0xc0de"),
      ("from", .string "0xbb"), ("to", .string "0xaa"), ("value", .string "5000000"),
      ("tokenName", .string "USD Coin"), ("tokenSymbol", .string "USDC"),
      ("tokenDecimals", .string "6")]

def usdcWalletTransfer : WalletTransfer where
  type := .erc20
  incoming := true
  hash := some "0x7e57"
  fromAddr := some "0xbb"
  toAddr := some "0xaa"
  symbol := some "USDC"
  name := some "USD Coin"
  contractAddress := some "0xc0de"
  amount := some 5
  usdValue := none
  gasFee := none
  timestamp := some 0

def quietRuntime : Runtime := sampleRuntime .null "" "" ""

theorem sameTransfer_usdc : SameTransfer usdcTransfer usdcWalletTransfer :=
  ⟨rfl, by decide, by decide⟩

def usdcLive (db : Db) : Db := liveDb quietRuntime sampleMoment 1 0 usdcTransfer ⟨db, []⟩

def usdcImported (db : Db) : Db :=
  importedDb quietRuntime Ledger.sampleEnv receiverPortfolio usdcWalletTransfer ⟨db, []⟩

theorem collision_rows :
    (usdcLive collisionDb).transactions.rows.map (fun t => t.symbol?) = [some "USDC"] := by
  decide +kernel

theorem renamed_rows :
    (usdcLive renamedDb).transactions.rows.map (fun t => t.symbol?) = [some "USDC"] ∧
      (usdcImported renamedDb).transactions.rows.map (fun t => t.symbol?) = [some "USDC.E"] := by
  decide +kernel

theorem usdc_recorded {db : Db} (hempty : db.transactions.rows = [])
    (hrows : (usdcLive db).transactions.rows.map (fun t => t.symbol?) = [some "USDC"]) :
    (usdcLive db).transactions.rows ≠ db.transactions.rows := by
  intro heq
  rw [heq, hempty] at hrows
  cases hrows

/-- Both book the transfer under the listed ticker. -/
theorem attribution_collision :
    BookedUnder "USDC" collisionDb (usdcLive collisionDb) ∧
      BookedUnder "USDC" collisionDb (usdcImported collisionDb) := by
  have hrecorded := usdc_recorded rfl collision_rows
  obtain ⟨symbol, token, hsymbol, -, hfound, himported, hlive⟩ :=
    @attribution quietRuntime sampleMoment 1 0 usdcTransfer Ledger.sampleEnv receiverPortfolio
      usdcWalletTransfer ⟨collisionDb, []⟩ sameTransfer_usdc hrecorded
  obtain rfl := Option.some.inj hsymbol
  have hrow : findTokenFor Wallet.sampleText "USDC" (some "0xc0de") collisionDb =
      some (usdcRow 1 "USDC" "0xa0b8") := by decide +kernel
  have htoken : token = usdcRow 1 "USDC" "0xa0b8" := Option.some.inj (hfound.symm.trans hrow)
  have hnone : findTokenByContract Wallet.sampleText "0xc0de" collisionDb = none := by
    decide +kernel
  have hlower : normalizeContract Wallet.sampleText (some "0xc0de") = some "0xc0de" := by
    decide +kernel
  subst htoken
  refine ⟨hlive ?_, himported⟩
  rintro ⟨c, t, hc, hlisted, -⟩
  obtain rfl := Option.some.inj (hlower.symm.trans hc)
  exact Option.some_ne_none t (hlisted.symm.trans hnone)

/-- With the contract listed under another symbol the webhook and the import book it under two
tokens; with another contract under the symbol both book it under a token that it is not. -/
theorem not_attributedAlike :
    ¬ AttributedAlike quietRuntime sampleMoment 1 0 usdcTransfer Ledger.sampleEnv receiverPortfolio
        usdcWalletTransfer ⟨renamedDb, []⟩ ∧
      ¬ AttributedAlike quietRuntime sampleMoment 1 0 usdcTransfer Ledger.sampleEnv
        receiverPortfolio usdcWalletTransfer ⟨collisionDb, []⟩ := by
  constructor
  · intro halike
    obtain ⟨token, -, hlive, himported, -⟩ :=
      halike sameTransfer_usdc (usdc_recorded rfl renamed_rows.1)
    have hfirst : token.symbol = "USDC" := hlive.symbol_eq rfl renamed_rows.1
    have hsecond : token.symbol = "USDC.E" := himported.symbol_eq rfl renamed_rows.2
    exact absurd (hfirst.symm.trans hsecond) (by decide)
  · intro halike
    obtain ⟨token, htoken, -, -, hcontract⟩ :=
      halike sameTransfer_usdc (usdc_recorded rfl collision_rows)
    obtain rfl := List.mem_singleton.mp htoken
    have hlower : normalizeContract Wallet.sampleText (some "0xc0de") = some "0xc0de" := by
      decide +kernel
    have hsame : Wallet.sampleText.insensitive "0xa0b8" "0xc0de" = true :=
      (hcontract "0xc0de" hlower).2 "0xa0b8" rfl
    exact absurd hsame (by decide +kernel)

end Neonfi.Webhooks

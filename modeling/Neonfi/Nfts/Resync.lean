import Neonfi.Nfts.Reimport
import Neonfi.Wallet.CostMap
import Neonfi.Wallet.Holdings

/-!
# A resync that is run twice

`resyncConnectedHoldings` resolves the tokens of the provider summary, imports the latest page
of transfers and the held collectibles, and sets the balances.  Where the answers agree with
each other, running it again on the same answers leaves the rows as they are exactly when it
booked no transfer that comes without a hash.
-/

namespace Neonfi.Nfts

open Lib
open Ledger (Db Portfolio Env)
open Wallet (Text TokenResolveInput SummaryResult PnlToken SyncError ResyncResult
  resolveOrCreateToken afterResolve bookable resolveHeldTokens heldInputs resolveConnectedCostMap
  setConnectedBalancesFromSummary resolveHeldTokens_again exists_setConnectedBalances
  findAsset_setConnectedBalances_again sameCost_resolveConnectedCostMap itemsApart CostApart
  Agreed Healthy Progress)
open Webhooks (fitsWidth)

/-- What the providers answer while a resync runs. -/
structure Provided where
  summary : SummaryResult
  transfers : List HistoryTransfer
  pnl : Option (List PnlToken)
  holdings : List WalletNftHolding
  spamContracts : List String
  env : Env

section Resync

variable (text : Text) (insertsFirst : Bool) (classifyNftSpam : SpamSignals → Bool)
  (chainSlug : String)

/-- The passes of a resync; the catalog rows of a failed one stay. -/
def resyncHoldings (portfolio : Portfolio) (answers : Provided) (s : Holdings) :
    Except SyncError ResyncResult × Holdings :=
  match answers.summary with
  | .error => (.error .unverified, s)
  | summary =>
      let (held, db) := resolveHeldTokens text summary.tokens s.db
      if held.length ≠ summary.tokens.length then (.error .incomplete, { s with db })
      else
        let (imported, s) := importTransfers text insertsFirst answers.env portfolio chainSlug
          answers.transfers { s with db }
        let nfts := importNftHoldings text insertsFirst portfolio chainSlug classifyNftSpam
          answers.spamContracts answers.holdings s.nfts
        let cost := resolveConnectedCostMap text portfolio.id held answers.pnl s.db
        (.ok ⟨imported, held.length⟩,
          { db := setConnectedBalancesFromSummary portfolio.id held cost s.db, nfts })

/-- Without a portfolio, an address or a chain there is nothing to do. -/
def resyncConnectedHoldings (portfolioId : ℕ) (address chain : Option String) (answers : Provided)
    (s : Holdings) : Except SyncError ResyncResult × Holdings :=
  match s.db.findPortfolioById portfolioId, address.filter (· ≠ ""), chain with
  | some portfolio, some _, some _ =>
      resyncHoldings text insertsFirst classifyNftSpam chainSlug portfolio answers s
  | _, _, _ => (.ok ⟨0, 0⟩, s)

/-- The tokens that a resync resolves, in order. -/
def answeredInputs (answers : Provided) : List TokenResolveInput :=
  heldInputs answers.summary.tokens ++ pageInputs (ordered answers.transfers)

/-- The catalog once the tokens of the answers are in it. -/
def resolvedCatalog (answers : Provided) (db : Db) : Db :=
  (answeredInputs answers).foldl (fun db i => afterResolve text i db) db

/-- By the catalog, the row of the transfer fits its columns. -/
def bookableTransfer (env : Env) (p : ℕ) (tr : HistoryTransfer) (db : Db) : Bool :=
  if tr.type = .nft then tr.namesNft text && tr.rowFits && (tr.data text p).any bookable
  else
    (tr.symbol.filter (· ≠ "")).any fun symbol =>
      match resolveOrCreateToken text (tr.toWalletTransfer.input symbol) db with
      | .ok (token, db) =>
          ((tr.toWalletTransfer.body token symbol).data env p tr.usdValue db).any bookable
      | .error _ => false

/-- All tokens of the summary are resolved. -/
def completes (answers : Provided) (db : Db) : Bool :=
  match answers.summary with
  | .error => false
  | summary => (resolveHeldTokens text summary.tokens db).1.length = summary.tokens.length

/-- The transfers that are booked without a hash. -/
def hashlessTransfers (portfolioId : ℕ) (address chain : Option String) (answers : Provided)
    (db : Db) : List HistoryTransfer :=
  if (address.filter (· ≠ "")).isSome ∧ chain.isSome ∧ completes text answers db then
    answers.transfers.filter fun tr =>
      tr.transactionHash = none ∧
        bookableTransfer text answers.env portfolioId tr (resolvedCatalog text answers db)
  else []

end Resync

/-! ## The catalog of a page -/

section Catalog

variable {text : Text} {insertsFirst : Bool} {env : Env} {portfolio : Portfolio}
  {chainSlug : String} {i : TokenResolveInput} {db db' : Db}

/-- The outcome with its catalog in other tables. -/
def inTables (db' : Db) (r : Except Ledger.Failure (Ledger.Token × Db)) :
    Except Ledger.Failure (Ledger.Token × Db) :=
  r.map fun r => (r.1, { db' with tokens := r.2.tokens })

theorem createToken_of_tokens (h : db'.tokens = db.tokens) :
    Wallet.createToken text i db' = inTables db' (Wallet.createToken text i db) := by
  unfold Wallet.createToken inTables
  dsimp only
  rw [h]
  split
  · rfl
  · split
    · rfl
    · split <;> rfl

/-- What a token resolves to is a matter of the catalog. -/
theorem resolve_of_tokens (h : db'.tokens = db.tokens) :
    resolveOrCreateToken text i db' = inTables db' (resolveOrCreateToken text i db) := by
  have hcontract := fun c => @Wallet.findTokenByContract_of_tokens text db db' h c
  have hself : db' = { db' with tokens := db.tokens } := by rw [← h]
  have hsymbol : Wallet.findTokenBySymbol text i.symbol db' =
      Wallet.findTokenBySymbol text i.symbol db := by
    unfold Wallet.findTokenBySymbol
    rw [h]
  unfold resolveOrCreateToken Wallet.createOrFindToken Wallet.backfillContract
  simp only [hcontract, hsymbol, createToken_of_tokens h]
  split
  · rfl
  · split
    · next token _ => exact congrArg (fun db => Except.ok (token, db)) hself
    · split
      · next token _ =>
          split
          · split
            · unfold Wallet.setContract inTables Except.map
              simp only [h]
            · rfl
          · exact congrArg (fun db => Except.ok (token, db)) hself
      · cases hcreate : Wallet.createToken text i db with
        | ok created => rfl
        | error e =>
            dsimp only [inTables, Except.map]
            split
            · next token _ => exact congrArg (fun db => Except.ok (token, db)) hself
            · rfl

theorem tokens_afterResolve (h : db'.tokens = db.tokens) :
    (afterResolve text i db').tokens = (afterResolve text i db).tokens := by
  unfold afterResolve
  rw [resolve_of_tokens h]
  cases resolveOrCreateToken text i db with
  | error e => exact h
  | ok resolved => rfl

theorem bookableTransfer_of_tokens {p : ℕ} {tr : HistoryTransfer} (h : db'.tokens = db.tokens) :
    bookableTransfer text env p tr db' = bookableTransfer text env p tr db := by
  unfold bookableTransfer
  simp only [resolve_of_tokens h]
  congr 2
  funext symbol
  cases resolveOrCreateToken text (tr.toWalletTransfer.input symbol) db with
  | error e => rfl
  | ok resolved => rfl

/-- The token that a transfer has resolved. -/
theorem tokens_importTransfer (tr : HistoryTransfer) {s : Holdings}
    (hconnected : (s.db.findPortfolioById portfolio.id).map Portfolio.type = some .connected) :
    (importTransfer text insertsFirst env portfolio chainSlug tr s).2.db.tokens =
      ((pageInputs [tr]).foldl (fun db i => afterResolve text i db) s.db).tokens := by
  unfold importTransfer pageInputs
  rw [List.flatMap_singleton]
  by_cases htype : tr.type = .nft
  · rw [if_pos htype, if_pos htype]
    unfold importNftTransfer
    split
    · rfl
    · next hnamed =>
        obtain ⟨hcontract, hid⟩ := not_or.mp hnamed
        split
        · rfl
        · dsimp only
          rw [importNftTransfer_eq hcontract hid]
          cases hbook : bookRow (tr.data text portfolio.id) s.db with
          | error e => rfl
          | ok db' =>
              obtain ⟨data, -, -, -, hbooked⟩ := bookRow_ok portfolio.id hbook
              exact hbooked.tokens
  · rw [if_neg htype, if_neg htype]
    unfold Wallet.importFungibleTransfer
    cases tr.symbol.filter (· ≠ "") with
    | none => rfl
    | some symbol =>
        show _ = (afterResolve text (tr.toWalletTransfer.input symbol) s.db).tokens
        unfold afterResolve Wallet.WalletTransfer.input
        dsimp only
        split
        · next hresolve =>
            rw [hresolve]
        · next token db hresolve =>
            rw [hresolve]
            have hcatalog := Wallet.resolve_catalog hresolve
            cases hcreate : Wallet.createTransactionFromWebhook env portfolio
                (tr.toWalletTransfer.body token symbol) tr.usdValue db with
            | error e => rfl
            | ok db' =>
                have hconnected' :
                    (db.findPortfolioById portfolio.id).map Portfolio.type = some .connected := by
                  rw [hcatalog]
                  exact hconnected
                obtain ⟨data, -, -, -, hbooked⟩ := Wallet.bookable_of_create hconnected' hcreate
                exact hbooked.tokens

theorem tokens_foldl_afterResolve (inputs : List TokenResolveInput) (h : db'.tokens = db.tokens) :
    (inputs.foldl (fun db i => afterResolve text i db) db').tokens =
      (inputs.foldl (fun db i => afterResolve text i db) db).tokens := by
  induction inputs generalizing db db' with
  | nil => exact h
  | cons i inputs ih => exact ih (tokens_afterResolve h)

/-- What was noted of a transfer is what the catalog says of it, if it has no hash. -/
theorem Known.bookableTransfer {p : ℕ} {tr : HistoryTransfer} {did : Bool}
    (h : Known text env p tr did db) (hhash : tr.transactionHash = none) :
    Nfts.bookableTransfer text env p tr db = did := by
  unfold Known at h
  unfold Nfts.bookableTransfer
  cases did with
  | true =>
      rw [if_pos ⟨rfl, hhash⟩] at h
      cases h with
      | fungible htype hunkeyed =>
          obtain ⟨body, hmapped, hbookable⟩ := hunkeyed.mapped
          obtain ⟨symbol, token, hsymbol, hfinds, rfl⟩ := hmapped.mapped
          rw [if_neg htype, hsymbol, Option.any_some, hfinds.resolve]
          exact hbookable
      | nft hnames hrow hbookable =>
          rw [if_pos hnames.1, hrow, hbookable, decide_eq_true hnames]
          rfl
  | false =>
      rw [if_neg (by simp)] at h
      cases h with
      | fungible htype hsettled =>
          rw [if_neg htype]
          cases hsettled with
          | unnamed hsymbol => rw [hsymbol, Option.any_none]
          | lost hsymbol hlost =>
              obtain ⟨e, hresolve⟩ := hlost.resolve
              rw [hsymbol, Option.any_some, hresolve]
          | passed hmapped hpassed =>
              obtain ⟨symbol, token, hsymbol, hfinds, rfl⟩ := hmapped.mapped
              rw [hsymbol, Option.any_some, hfinds.resolve]
              rcases hpassed with hunfit | ⟨hash, hkey, -⟩
              · exact hunfit
              · have hnone : tr.toWalletTransfer.transactionHash = some hash := hkey
                rw [hhash] at hnone
                cases hnone
      | unnamed htype hunnamed =>
          rw [if_pos htype, decide_eq_false hunnamed]
          rfl
      | refused htype hrow =>
          rw [if_pos htype, hrow, Bool.and_false, Bool.false_and]
      | unfit htype hunfit => rw [if_pos htype, hunfit, Bool.and_false]
      | taken htype hkey =>
          rw [hhash] at hkey
          cases hkey

end Catalog

/-! ## A page -/

section Page

variable {text : Text} {insertsFirst : Bool} {env : Env} {portfolio : Portfolio}
  {chainSlug : String} {inputs : List TokenResolveInput}

theorem importTransfers_eq_pass (transfers : List HistoryTransfer) (s : Holdings) :
    (importTransfers text insertsFirst env portfolio chainSlug transfers s).2 =
      (sweep (fun s tr => importTransfer text insertsFirst env portfolio chainSlug tr s)
        (ordered transfers) s).2 := by
  unfold importTransfers
  rw [sweep_snd]
  generalize ordered transfers = page
  generalize 0 = n
  induction page generalizing n s with
  | nil => rfl
  | cons tr page ih => exact ih _ _

/-- A page remembers what became of its transfers. -/
theorem remembers_page (hcompare : Equivalence fun a b => text.insensitive a b)
    (hchain : fitsWidth 50 chainSlug) {page : List HistoryTransfer} {db : Db}
    (hagreed : Agreed text inputs db) (hcovers : ∀ tr ∈ page, Covers inputs tr) :
    Remembers (fun s tr => importTransfer text insertsFirst env portfolio chainSlug tr s) page
      (fun s => Progress text inputs portfolio.id db s.db ∧ Healthy portfolio.id s.db)
      (fun tr did s => Known text env portfolio.id tr did s.db) := by
  constructor
  · intro s hs tr htr
    obtain ⟨hprogress, hhealthy, -⟩ := @known_importTransfer text insertsFirst env portfolio
      chainSlug tr s inputs hcompare hchain (hagreed.later hs.1.later) (hcovers tr htr) hs.2
    exact ⟨hs.1.trans hprogress, hhealthy⟩
  · intro s hs tr htr
    exact
      (known_importTransfer hcompare hchain (hagreed.later hs.1.later) (hcovers tr htr) hs.2).2.2
  · intro s hs tr htr other hother did hknown
    have hagreed' := hagreed.later hs.1.later
    exact hknown.progress hcompare hagreed' (hcovers tr htr)
      (known_importTransfer hcompare hchain hagreed' (hcovers other hother) hs.2).1

theorem progress_page (hcompare : Equivalence fun a b => text.insensitive a b)
    (hchain : fitsWidth 50 chainSlug) {page : List HistoryTransfer} {s : Holdings}
    (hagreed : Agreed text inputs s.db) (hcovers : ∀ tr ∈ page, Covers inputs tr)
    (hhealthy : Healthy portfolio.id s.db) :
    Progress text inputs portfolio.id s.db
        (sweep (fun s tr => importTransfer text insertsFirst env portfolio chainSlug tr s) page
          s).2.db ∧
      Healthy portfolio.id
        (sweep (fun s tr => importTransfer text insertsFirst env portfolio chainSlug tr s) page
          s).2.db :=
  (remembers_page hcompare hchain hagreed hcovers).inv_sweep (List.Subset.refl page)
    ⟨.refl, hhealthy⟩

/-- After the page the catalog is the one with its tokens resolved. -/
theorem tokens_page (hcompare : Equivalence fun a b => text.insensitive a b)
    (hchain : fitsWidth 50 chainSlug) {page : List HistoryTransfer} {s : Holdings}
    (hagreed : Agreed text inputs s.db) (hcovers : ∀ tr ∈ page, Covers inputs tr)
    (hhealthy : Healthy portfolio.id s.db) :
    (sweep (fun s tr => importTransfer text insertsFirst env portfolio chainSlug tr s) page
        s).2.db.tokens =
      ((pageInputs page).foldl (fun db i => afterResolve text i db) s.db).tokens := by
  induction page generalizing s with
  | nil => rfl
  | cons first page ih =>
      obtain ⟨hprogress, hhealthy', -⟩ := @known_importTransfer text insertsFirst env portfolio
        chainSlug first s inputs hcompare hchain hagreed (hcovers first List.mem_cons_self) hhealthy
      have hrest := fun tr htr => hcovers tr (List.mem_cons_of_mem first htr)
      have hfirst := @tokens_importTransfer text insertsFirst env portfolio chainSlug first s
        hhealthy.connected
      have hsplit : pageInputs (first :: page) = pageInputs [first] ++ pageInputs page := by
        unfold pageInputs
        rw [List.flatMap_cons, List.flatMap_singleton]
      rw [sweep, hsplit, List.foldl_append, ih (hagreed.later hprogress.later) hrest hhealthy',
        tokens_foldl_afterResolve _ hfirst]

/-- A page of settled transfers leaves the ledger alone. -/
theorem page_of_settled (hchain : fitsWidth 50 chainSlug) {page : List HistoryTransfer}
    {s : Holdings}
    (hconnected : (s.db.findPortfolioById portfolio.id).map Portfolio.type = some .connected)
    (h : ∀ tr ∈ page, TransferSettled text env portfolio.id tr s.db) :
    (sweep (fun s tr => importTransfer text insertsFirst env portfolio chainSlug tr s) page s).2.db =
      s.db := by
  induction page generalizing s with
  | nil => rfl
  | cons tr page ih =>
      have hfirst := @importTransfer_of_settled text insertsFirst env portfolio chainSlug tr s hchain
        hconnected (h tr List.mem_cons_self)
      rw [sweep]
      rw [ih (hfirst ▸ hconnected) fun tr' htr' => hfirst ▸ h tr' (List.mem_cons_of_mem tr htr'),
        hfirst]

/-- A page with a transfer that is booked without a hash adds a row. -/
theorem page_of_unkeyed (hcompare : Equivalence fun a b => text.insensitive a b)
    (hchain : fitsWidth 50 chainSlug) {page : List HistoryTransfer} {s : Holdings}
    (hagreed : Agreed text inputs s.db) (hcovers : ∀ tr ∈ page, Covers inputs tr)
    (hhealthy : Healthy portfolio.id s.db) {tr : HistoryTransfer} (htr : tr ∈ page)
    (h : TransferUnkeyed text env portfolio.id tr s.db) :
    s.db.transactions.rows.length <
      (sweep (fun s tr => importTransfer text insertsFirst env portfolio chainSlug tr s) page
        s).2.db.transactions.rows.length := by
  induction page generalizing s with
  | nil => cases htr
  | cons first page ih =>
      obtain ⟨hprogress, hhealthy', -⟩ := @known_importTransfer text insertsFirst env portfolio
        chainSlug first s inputs hcompare hchain hagreed (hcovers first List.mem_cons_self) hhealthy
      have hagreed' := hagreed.later hprogress.later
      have hrest := fun tr' htr' => hcovers tr' (List.mem_cons_of_mem first htr')
      rw [sweep]
      by_cases hfirst : tr = first
      · subst hfirst
        obtain ⟨data, hbooked⟩ := @importTransfer_of_unkeyed text insertsFirst env portfolio
          chainSlug tr s hchain hhealthy h
        have hlength := (@progress_page text insertsFirst env portfolio chainSlug inputs hcompare
          hchain page _ hagreed' hrest hhealthy').1.rows.length_le
        rw [hbooked.rows, List.length_append, List.length_singleton] at hlength
        exact hlength
      · have hmem : tr ∈ page := (List.mem_cons.mp htr).resolve_left hfirst
        have hlater := h.progress hcompare hagreed
          (hcovers tr (List.mem_cons_of_mem first hmem)) hprogress
        exact lt_of_le_of_lt hprogress.rows.length_le
          (ih hagreed' hrest hhealthy' hmem hlater)

end Page

/-! ## The same rows -/

/-- The answers agree with each other and with the catalog. -/
structure Consistent (text : Text) (insertsFirst : Bool) (chainSlug : String) (portfolioId : ℕ)
    (answers : Provided) (db : Db) : Prop where
  agreed : Agreed text (answeredInputs answers) db
  cost : CostApart text answers.summary.tokens (answers.pnl.getD []) db
  creatable : AllCreatable text insertsFirst portfolioId chainSlug answers.transfers answers.holdings

/-- The same transactions, assets and collectibles, whatever numbers the rows were given. -/
structure SameRows (s s' : Holdings) : Prop where
  transactions : (s.db.transactions.rows.map Ledger.Transaction.toTransactionData).Perm
    (s'.db.transactions.rows.map Ledger.Transaction.toTransactionData)
  assets : ∀ p u, s.db.findAsset p u = s'.db.findAsset p u
  nfts : ∀ k, s.nfts.find? k = s'.nfts.find? k

/-- Resynced once more on the same answers, the rows stay as they are. -/
def ResyncIdempotent (text : Text) (insertsFirst : Bool) (classifyNftSpam : SpamSignals → Bool)
    (chainSlug : String) (portfolioId : ℕ) (address chain : Option String) (answers : Provided)
    (s : Holdings) : Prop :=
  SameRows
    (resyncConnectedHoldings text insertsFirst classifyNftSpam chainSlug portfolioId address chain
      answers s).2
    (resyncConnectedHoldings text insertsFirst classifyNftSpam chainSlug portfolioId address chain
      answers
      (resyncConnectedHoldings text insertsFirst classifyNftSpam chainSlug portfolioId address chain
        answers s).2).2

/-! ## One resync -/

section Once

variable {text : Text} {insertsFirst : Bool} {classifyNftSpam : SpamSignals → Bool}
  {chainSlug : String} {portfolio : Portfolio} {answers : Provided} {s : Holdings}

/-- The holdings after the page. -/
def pageTaken (text : Text) (insertsFirst : Bool) (chainSlug : String) (portfolio : Portfolio)
    (answers : Provided) (s : Holdings) : Holdings :=
  (sweep (fun s tr => importTransfer text insertsFirst answers.env portfolio chainSlug tr s)
    (ordered answers.transfers)
    { s with db := (resolveHeldTokens text answers.summary.tokens s.db).2 }).2

/-- The cost map that the balances are set from. -/
def costOfPage (text : Text) (insertsFirst : Bool) (chainSlug : String) (portfolio : Portfolio)
    (answers : Provided) (s : Holdings) : Option Wallet.CostMap :=
  resolveConnectedCostMap text portfolio.id
    (resolveHeldTokens text answers.summary.tokens s.db).1 answers.pnl
    (pageTaken text insertsFirst chainSlug portfolio answers s).db

theorem resyncHoldings_of_not_completes (h : completes text answers s.db = false) :
    (resyncHoldings text insertsFirst classifyNftSpam chainSlug portfolio answers s).2 =
      { s with db := (resolveHeldTokens text answers.summary.tokens s.db).2 } := by
  unfold completes at h
  unfold resyncHoldings
  split at h
  · next herror =>
      rw [herror]
      rfl
  · next herror =>
      have hlength := of_decide_eq_false h
      dsimp only
      rw [if_pos hlength]

theorem resyncHoldings_of_completes (h : completes text answers s.db = true) :
    (resyncHoldings text insertsFirst classifyNftSpam chainSlug portfolio answers s).2 =
      { db := setConnectedBalancesFromSummary portfolio.id
          (resolveHeldTokens text answers.summary.tokens s.db).1
          (costOfPage text insertsFirst chainSlug portfolio answers s)
          (pageTaken text insertsFirst chainSlug portfolio answers s).db
        nfts := importNftHoldings text insertsFirst portfolio chainSlug classifyNftSpam
          answers.spamContracts answers.holdings
          (pageTaken text insertsFirst chainSlug portfolio answers s).nfts } := by
  unfold completes at h
  unfold resyncHoldings
  split at h
  · cases h
  · next herror =>
      have hlength := of_decide_eq_true h
      dsimp only
      rw [if_neg (not_not.mpr hlength)]
      unfold costOfPage pageTaken
      rw [← importTransfers_eq_pass]

theorem nfts_pageTaken :
    (pageTaken text insertsFirst chainSlug portfolio answers s).nfts =
      (storedTransfers text insertsFirst portfolio chainSlug answers.transfers s.nfts).2 := by
  unfold pageTaken
  rw [← importTransfers_eq_pass, importTransfers_nfts]

theorem completes_iff : completes text answers s.db = true ↔ answers.summary ≠ .error ∧
    (resolveHeldTokens text answers.summary.tokens s.db).1.length =
      answers.summary.tokens.length := by
  unfold completes
  cases answers.summary <;> simp

theorem covers_ordered : ∀ tr ∈ ordered answers.transfers, Covers (answeredInputs answers) tr := by
  intro tr htr htype symbol hsymbol
  refine List.mem_append_right _ (List.mem_flatMap.mpr ⟨tr, htr, ?_⟩)
  rw [if_neg htype, hsymbol]
  exact List.mem_singleton_self _

theorem heldInputs_subset : heldInputs answers.summary.tokens ⊆ answeredInputs answers :=
  List.subset_append_left _ _

/-- The rows as a complete resync leaves them. -/
structure Resynced (text : Text) (insertsFirst : Bool) (classifyNftSpam : SpamSignals → Bool)
    (chainSlug : String) (portfolio : Portfolio) (answers : Provided) (s s' : Holdings) : Prop where
  db : s'.db = setConnectedBalancesFromSummary portfolio.id
    (resolveHeldTokens text answers.summary.tokens s.db).1
    (costOfPage text insertsFirst chainSlug portfolio answers s)
    (pageTaken text insertsFirst chainSlug portfolio answers s).db
  nfts : s'.nfts = importNftHoldings text insertsFirst portfolio chainSlug classifyNftSpam
    answers.spamContracts answers.holdings
    (pageTaken text insertsFirst chainSlug portfolio answers s).nfts
  progress : Progress text (answeredInputs answers) portfolio.id
    (pageTaken text insertsFirst chainSlug portfolio answers s).db s'.db
  healthy : Healthy portfolio.id s'.db

theorem Resynced.tokens {s' : Holdings}
    (h : Resynced text insertsFirst classifyNftSpam chainSlug portfolio answers s s') :
    s'.db.tokens = (pageTaken text insertsFirst chainSlug portfolio answers s).db.tokens := by
  obtain ⟨assets, hset⟩ := exists_setConnectedBalances portfolio.id
    (resolveHeldTokens text answers.summary.tokens s.db).1
    (costOfPage text insertsFirst chainSlug portfolio answers s)
    (pageTaken text insertsFirst chainSlug portfolio answers s).db
  rw [h.db, hset]

section Consistent

variable (hcompare : Equivalence fun a b => text.insensitive a b)
  (hlower : ∀ x, text.toLowerCase (text.toLowerCase x) = text.toLowerCase x)
  (hchain : fitsWidth 50 chainSlug) (hhealthy : Healthy portfolio.id s.db)
  (hconsistent : Consistent text insertsFirst chainSlug portfolio.id answers s.db)

include hhealthy in
/-- The page starts on a healthy portfolio. -/
theorem healthy_resolved :
    Healthy portfolio.id (resolveHeldTokens text answers.summary.tokens s.db).2 := by
  obtain ⟨tokens, htokens⟩ := Wallet.catalog_resolveHeldTokens answers.summary.tokens s.db
  rw [htokens]
  exact hhealthy.of_tokens

include hcompare hchain hconsistent

theorem remembers_pageTaken :
    Remembers
      (fun s tr => importTransfer text insertsFirst answers.env portfolio chainSlug tr s)
      (ordered answers.transfers)
      (fun s' => Progress text (answeredInputs answers) portfolio.id
          (resolveHeldTokens text answers.summary.tokens s.db).2 s'.db ∧
        Healthy portfolio.id s'.db)
      (fun tr did s => Known text answers.env portfolio.id tr did s.db) :=
  remembers_page hcompare hchain
    (hconsistent.agreed.later (Wallet.later_resolveHeldTokens heldInputs_subset s.db)) covers_ordered

include hhealthy

theorem progress_pageTaken :
    Progress text (answeredInputs answers) portfolio.id
        (resolveHeldTokens text answers.summary.tokens s.db).2
        (pageTaken text insertsFirst chainSlug portfolio answers s).db ∧
      Healthy portfolio.id (pageTaken text insertsFirst chainSlug portfolio answers s).db :=
  (remembers_pageTaken hcompare hchain hconsistent).inv_sweep (List.Subset.refl _)
    ⟨.refl, healthy_resolved hhealthy⟩

theorem later_pageTaken :
    Wallet.Later text (answeredInputs answers) s.db
      (pageTaken text insertsFirst chainSlug portfolio answers s).db :=
  (Wallet.later_resolveHeldTokens heldInputs_subset s.db).trans
    (progress_pageTaken hcompare hchain hhealthy hconsistent).1.later

theorem tokens_pageTaken :
    (pageTaken text insertsFirst chainSlug portfolio answers s).db.tokens =
      (resolvedCatalog text answers s.db).tokens := by
  have hheld : ∀ (ts : List Wallet.WalletToken) (db : Db),
      (resolveHeldTokens text ts db).2 =
        (heldInputs ts).foldl (fun db i => afterResolve text i db) db := by
    intro ts
    induction ts with
    | nil => intro db; rfl
    | cons t ts ih =>
        intro db
        rw [Wallet.resolveHeldTokens_cons]
        unfold heldInputs at ih ⊢
        by_cases h : 0 < t.balance ∧ t.symbol ≠ ""
        · rw [if_pos h, List.filter_cons_of_pos (by simpa using h), List.map_cons, List.foldl_cons]
          exact ih _
        · rw [if_neg h, List.filter_cons_of_neg (by simpa using h)]
          exact ih db
  unfold pageTaken resolvedCatalog answeredInputs
  rw [List.foldl_append, ← hheld]
  exact tokens_page hcompare hchain
    (hconsistent.agreed.later (Wallet.later_resolveHeldTokens heldInputs_subset s.db)) covers_ordered
    (healthy_resolved hhealthy)

/-- After the balances are set the portfolio is as healthy as before. -/
theorem progress_setBalances :
    Progress text (answeredInputs answers) portfolio.id
        (pageTaken text insertsFirst chainSlug portfolio answers s).db
        (setConnectedBalancesFromSummary portfolio.id
          (resolveHeldTokens text answers.summary.tokens s.db).1
          (costOfPage text insertsFirst chainSlug portfolio answers s)
          (pageTaken text insertsFirst chainSlug portfolio answers s).db) ∧
      Healthy portfolio.id
        (setConnectedBalancesFromSummary portfolio.id
          (resolveHeldTokens text answers.summary.tokens s.db).1
          (costOfPage text insertsFirst chainSlug portfolio answers s)
          (pageTaken text insertsFirst chainSlug portfolio answers s).db) := by
  obtain ⟨-, hpage⟩ := progress_pageTaken hcompare hchain hhealthy hconsistent
  refine ⟨?_, hpage.setConnectedBalances⟩
  obtain ⟨assets, hset⟩ := exists_setConnectedBalances portfolio.id
    (resolveHeldTokens text answers.summary.tokens s.db).1
    (costOfPage text insertsFirst chainSlug portfolio answers s)
    (pageTaken text insertsFirst chainSlug portfolio answers s).db
  rw [hset]
  exact .of_tables rfl rfl rfl

/-- The catalog tells of each transfer of the page whether it will be booked again. -/
theorem outcome_of_transfer {db : Db}
    (hprogress : Progress text (answeredInputs answers) portfolio.id
      (pageTaken text insertsFirst chainSlug portfolio answers s).db db) {tr : HistoryTransfer}
    (htr : tr ∈ answers.transfers) :
    if tr.transactionHash = none ∧
        bookableTransfer text answers.env portfolio.id tr (resolvedCatalog text answers s.db) then
      TransferUnkeyed text answers.env portfolio.id tr db
    else TransferSettled text answers.env portfolio.id tr db := by
  have hmem : tr ∈ ordered answers.transfers := (List.mem_insertionSort _).mpr htr
  obtain ⟨did, hknown⟩ : ∃ did, Known text answers.env portfolio.id tr did
      (pageTaken text insertsFirst chainSlug portfolio answers s).db :=
    (remembers_pageTaken hcompare hchain hconsistent).exists_known (List.Subset.refl _)
      ⟨.refl, healthy_resolved hhealthy⟩ tr hmem
  have hafter := hknown.progress hcompare (hconsistent.agreed.later
    (later_pageTaken hcompare hchain hhealthy hconsistent)) (covers_ordered tr hmem) hprogress
  unfold Known at hafter
  by_cases hhash : tr.transactionHash = none
  · have hcatalog := hknown.bookableTransfer hhash
    rw [bookableTransfer_of_tokens
      (tokens_pageTaken hcompare hchain hhealthy hconsistent)] at hcatalog
    cases did with
    | true =>
        rw [if_pos ⟨rfl, hhash⟩] at hafter
        rw [if_pos ⟨hhash, hcatalog⟩]
        exact hafter
    | false =>
        rw [if_neg (by simp)] at hafter
        rw [if_neg (by simp [hcatalog])]
        exact hafter
  · rw [if_neg fun h => hhash h.2] at hafter
    rw [if_neg fun h => hhash h.1]
    exact hafter

include hlower

/-- The costs are the same once the balances were set. -/
theorem sameCost_pageTaken {db : Db} (hlength : (resolveHeldTokens text answers.summary.tokens
      s.db).1.length = answers.summary.tokens.length)
    (htokens : db.tokens = (pageTaken text insertsFirst chainSlug portfolio answers s).db.tokens) :
    Wallet.SameCost (costOfPage text insertsFirst chainSlug portfolio answers s)
      (resolveConnectedCostMap text portfolio.id
        (resolveHeldTokens text answers.summary.tokens s.db).1 answers.pnl db) := by
  have hlater := later_pageTaken hcompare hchain hhealthy hconsistent
  have hpage := (progress_pageTaken hcompare hchain hhealthy hconsistent).1
  apply sameCost_resolveConnectedCostMap htokens hconsistent.cost.lower
  · intro item hitem
    exact (hconsistent.cost.once item hitem).later hcompare hlower hlater
  · exact itemsApart hcompare hlower hconsistent.agreed heldInputs_subset hlength hconsistent.cost
      hpage.later

omit hlower in
/-- The summary is resolved to the same rows again. -/
theorem held_again {db : Db}
    (hprogress : Progress text (answeredInputs answers) portfolio.id
      (pageTaken text insertsFirst chainSlug portfolio answers s).db db) :
    resolveHeldTokens text answers.summary.tokens db =
      ((resolveHeldTokens text answers.summary.tokens s.db).1, db) :=
  resolveHeldTokens_again hcompare hconsistent.agreed heldInputs_subset
    ((progress_pageTaken hcompare hchain hhealthy hconsistent).1.later.trans hprogress.later)

omit hlower in
/-- What a complete resync has done. -/
theorem resynced (hcompletes : completes text answers s.db = true) :
    Resynced text insertsFirst classifyNftSpam chainSlug portfolio answers s
      (resyncHoldings text insertsFirst classifyNftSpam chainSlug portfolio answers s).2 := by
  obtain ⟨hprogress, hhealthy'⟩ := progress_setBalances hcompare hchain hhealthy hconsistent
  rw [resyncHoldings_of_completes hcompletes]
  exact ⟨rfl, rfl, hprogress, hhealthy'⟩

section Twice

variable {portfolio' : Portfolio} (hid : portfolio'.id = portfolio.id) {s' : Holdings}
  (hcompletes : completes text answers s.db = true)
  (hfirst : Resynced text insertsFirst classifyNftSpam chainSlug portfolio answers s s')
include hcompletes hfirst

omit hlower in
theorem completes_again : completes text answers s'.db = true ∧
    resolveHeldTokens text answers.summary.tokens s'.db =
      ((resolveHeldTokens text answers.summary.tokens s.db).1, s'.db) := by
  obtain ⟨herror, hlength⟩ := completes_iff.mp hcompletes
  have hheld := held_again hcompare hchain hhealthy hconsistent hfirst.progress
  refine ⟨completes_iff.mpr ⟨herror, ?_⟩, hheld⟩
  rw [hheld]
  exact hlength

include hid

/-- If every transfer is settled, the same answers change nothing. -/
theorem sameRows_of_settled
    (h : ∀ tr ∈ answers.transfers, TransferSettled text answers.env portfolio.id tr s'.db) :
    SameRows s'
      (resyncHoldings text insertsFirst classifyNftSpam chainSlug portfolio' answers s').2 := by
  obtain ⟨hcompletes', hheld⟩ := completes_again hcompare hchain hhealthy hconsistent hcompletes
    hfirst
  have hpage : (pageTaken text insertsFirst chainSlug portfolio' answers s').db = s'.db := by
    unfold pageTaken
    rw [hheld]
    apply page_of_settled hchain
    · rw [hid]
      exact hfirst.healthy.connected
    · intro tr htr
      rw [hid]
      exact h tr ((List.mem_insertionSort _).mp htr)
  have hcost := @sameCost_pageTaken text insertsFirst chainSlug portfolio answers s hcompare hlower
    hchain hhealthy hconsistent s'.db (completes_iff.mp hcompletes).2 hfirst.tokens
  rw [resyncHoldings_of_completes hcompletes']
  unfold costOfPage
  rw [hpage, hheld, hid]
  constructor
  · obtain ⟨assets, hset⟩ := exists_setConnectedBalances portfolio.id
      (resolveHeldTokens text answers.summary.tokens s.db).1
      (resolveConnectedCostMap text portfolio.id
        (resolveHeldTokens text answers.summary.tokens s.db).1 answers.pnl s'.db) s'.db
    rw [hset]
  · intro q u
    have hset : ∀ q u, s'.db.findAsset q u =
        (setConnectedBalancesFromSummary portfolio.id
          (resolveHeldTokens text answers.summary.tokens s.db).1
          (costOfPage text insertsFirst chainSlug portfolio answers s)
          (pageTaken text insertsFirst chainSlug portfolio answers s).db).findAsset q u := by
      intro q u
      rw [← hfirst.db]
    exact (findAsset_setConnectedBalances_again hcost hset q u).symm
  · intro k
    rw [nfts_pageTaken]
    have hnfts : ∀ k, s'.nfts.find? k =
        (importNftHoldings text insertsFirst portfolio' chainSlug classifyNftSpam
          answers.spamContracts answers.holdings
          (storedTransfers text insertsFirst portfolio' chainSlug answers.transfers
            s.nfts).2).find? k := by
      intro k
      rw [hfirst.nfts, nfts_pageTaken, find?_rewritten, find?_rewritten, hid]
    exact (find?_rewritten_again (hid ▸ hconsistent.creatable) hnfts k).symm

omit hlower in
/-- A transfer that is booked without a hash is booked again. -/
theorem not_sameRows_of_unkeyed {tr : HistoryTransfer} (htr : tr ∈ answers.transfers)
    (h : TransferUnkeyed text answers.env portfolio.id tr s'.db) :
    ¬ SameRows s'
      (resyncHoldings text insertsFirst classifyNftSpam chainSlug portfolio' answers s').2 := by
  intro hsame
  obtain ⟨hcompletes', hheld⟩ := completes_again hcompare hchain hhealthy hconsistent hcompletes
    hfirst
  have hagreed := hconsistent.agreed.later
    ((later_pageTaken hcompare hchain hhealthy hconsistent).trans hfirst.progress.later)
  have hmore := @page_of_unkeyed text insertsFirst answers.env portfolio' chainSlug
    (answeredInputs answers) hcompare hchain (ordered answers.transfers) s' hagreed covers_ordered
    (hid ▸ hfirst.healthy) tr ((List.mem_insertionSort _).mpr htr) (hid ▸ h)
  have hlength := hsame.transactions.length_eq
  rw [resyncHoldings_of_completes hcompletes', List.length_map, List.length_map] at hlength
  obtain ⟨assets, hset⟩ := exists_setConnectedBalances portfolio'.id
    (resolveHeldTokens text answers.summary.tokens s'.db).1
    (costOfPage text insertsFirst chainSlug portfolio' answers s')
    (pageTaken text insertsFirst chainSlug portfolio' answers s').db
  rw [hset] at hlength
  unfold pageTaken at hlength
  rw [hheld] at hlength
  exact absurd hlength (ne_of_lt hmore)

end Twice

end Consistent

end Once

/-! ## Two resyncs -/

section Idempotent

variable {text : Text} {insertsFirst : Bool} {classifyNftSpam : SpamSignals → Bool}
  {chainSlug : String} {portfolioId : ℕ} {address chain : Option String} {answers : Provided}
  {s : Holdings}

theorem SameRows.refl (s : Holdings) : SameRows s s :=
  ⟨List.Perm.refl _, fun _ _ => rfl, fun _ => rfl⟩

theorem resyncConnectedHoldings_of_found {portfolio : Portfolio}
    (hportfolio : s.db.findPortfolioById portfolioId = some portfolio) :
    (resyncConnectedHoldings text insertsFirst classifyNftSpam chainSlug portfolioId address chain
        answers s).2 =
      if (address.filter (· ≠ "")).isSome ∧ chain.isSome then
        (resyncHoldings text insertsFirst classifyNftSpam chainSlug portfolio answers s).2
      else s := by
  unfold resyncConnectedHoldings
  rw [hportfolio]
  cases address.filter (· ≠ "") with
  | none => simp
  | some address =>
      cases chain with
      | none => simp
      | some chain => simp

theorem found_of_healthy (h : Healthy portfolioId s.db) :
    ∃ portfolio,
      s.db.findPortfolioById portfolioId = some portfolio ∧ portfolio.id = portfolioId := by
  obtain ⟨portfolio, hfound, -⟩ := Option.map_eq_some_iff.mp h.connected
  exact ⟨portfolio, hfound, (SerialTable.find?_eq_some_iff.mp hfound).2⟩

/-- Without a complete summary only the catalog is changed, and only once. -/
theorem resyncHoldings_again_of_not_completes {portfolio : Portfolio}
    (hcompare : Equivalence fun a b => text.insensitive a b)
    (hagreed : Agreed text (answeredInputs answers) s.db)
    (h : completes text answers s.db = false) :
    (resyncHoldings text insertsFirst classifyNftSpam chainSlug portfolio answers
        { s with db := (resolveHeldTokens text answers.summary.tokens s.db).2 }).2 =
      { s with db := (resolveHeldTokens text answers.summary.tokens s.db).2 } := by
  have hagain := @resolveHeldTokens_again text s.db
    (resolveHeldTokens text answers.summary.tokens s.db).2 (answeredInputs answers)
    answers.summary.tokens hcompare hagreed heldInputs_subset .refl
  have hnot : completes text answers (resolveHeldTokens text answers.summary.tokens s.db).2 =
      false := by
    rw [← h]
    unfold completes
    cases hsummary : answers.summary with
    | error => rfl
    | ok summary =>
        rw [hsummary] at hagain
        dsimp only
        rw [hagain]
    | empty =>
        rw [hsummary] at hagain
        dsimp only
        rw [hagain]
  rw [resyncHoldings_of_not_completes hnot, hagain]

end Idempotent

/-! ## A wallet with one transfer -/

/-- An incoming transfer of the listed token. -/
def usdtTransfer (hash : Option String) : HistoryTransfer where
  type := .erc20
  incoming := true
  hash := hash
  fromAddr := some "0xdd"
  toAddr := some "0xcc"
  symbol := some "USDT"
  name := some "Tether"
  contractAddress := some "0xaa"
  amount := some 5
  usdValue := some 5
  gasFee := none
  timestamp := some 1700000000000

/-- The provider reports the holding and a page of one transfer. -/
def resyncAnswers (hash : Option String) : Provided where
  summary := .ok (Wallet.buildSummary "moralis" [Wallet.usdt "0xaa" 500 (some 500)] "ETH")
  transfers := [usdtTransfer hash]
  pnl := none
  holdings := []
  spamContracts := []
  env := Ledger.sampleEnv

def walletHoldings : Holdings := ⟨Wallet.walletDb, Table.empty⟩

theorem equivalence_sampleText :
    Equivalence fun a b => Wallet.sampleText.insensitive a b := by
  have hiff : ∀ a b, Wallet.sampleText.insensitive a b ↔ a.toLower = b.toLower :=
    fun _ _ => decide_eq_true_iff
  refine ⟨fun a => (hiff a a).mpr rfl, fun h => ?_, fun h h' => ?_⟩
  · exact (hiff _ _).mpr ((hiff _ _).mp h).symm
  · exact (hiff _ _).mpr (((hiff _ _).mp h).trans ((hiff _ _).mp h'))

theorem toLowerCase_sampleText (x : String) :
    Wallet.sampleText.toLowerCase (Wallet.sampleText.toLowerCase x) =
      Wallet.sampleText.toLowerCase x := by
  show x.toLower.toLower = x.toLower
  unfold String.toLower
  rw [String.map_map]
  congr 1
  funext c
  -- a letter in lower case is outside the range that is changed
  show c.toLower.toLower = c.toLower
  unfold Char.toLower
  split
  · next hupper => grind [UInt32.toNat_add]
  · rfl

theorem healthy_walletDb : Healthy 1 walletHoldings.db := by
  refine ⟨by decide, by decide +kernel, fun u a ha => ?_⟩
  cases ha

theorem consistent_resyncAnswers (hash : Option String) :
    Consistent Wallet.sampleText false "eth" 1 (resyncAnswers hash) walletHoldings.db where
  agreed := by
    have hinputs : ∀ i ∈ answeredInputs (resyncAnswers none),
        i.symbol = "USDT" ∧ i.contractFits Wallet.sampleText = true ∧
          i.creatable Wallet.sampleText = true := by
      decide +kernel
    have hhash : answeredInputs (resyncAnswers hash) = answeredInputs (resyncAnswers none) := rfl
    rw [hhash]
    refine ⟨fun i hi j hj => ⟨fun c d _ _ _ _ => ?_, fun _ => ?_⟩, fun i hi => ?_⟩
    · rw [(hinputs i hi).1, (hinputs j hj).1]
      exact equivalence_sampleText.refl _
    · rw [(hinputs i hi).2.1, (hinputs j hj).2.1, (hinputs i hi).2.2, (hinputs j hj).2.2]
      exact ⟨rfl, rfl⟩
    · rw [(hinputs i hi).1]
      decide +kernel
  cost := by
    refine ⟨?_, ?_, ?_⟩
    · intro item hitem
      cases hitem
    · intro item hitem
      cases hitem
    · intro t _ item hitem
      cases hitem
  creatable := by
    refine ⟨?_, ?_⟩
    · intro tr htr hnames
      obtain rfl := List.mem_singleton.mp htr
      cases hnames.1
    · intro h hh
      cases hh

end Neonfi.Nfts

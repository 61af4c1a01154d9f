import Neonfi.Wallet.FeedOutcome
import Neonfi.Wallet.Resolution
import Neonfi.Wallet.Sync

/-!
# Importing a transfer again

A transfer whose hash is taken, or whose row no column would accept, leaves the tables alone
when it is imported again.
-/

namespace Neonfi.Wallet

open Lib
open Ledger (Db Token Portfolio Failure Millis TransactionData Env netDepositSum)

/-- The texts and the numbers of a row fit their columns. -/
def bookable (data : TransactionData) : Bool :=
  rowTextsFit data && detailTextsFit data.detail && (rowDecimals data).all column.fits

/-- The row a transfer asks for, once its token and its date are accepted. -/
def FeedBody.data (env : Env) (portfolioId : ℕ) (body : FeedBody) (usdValueOverride : Option ℚ)
    (db : Db) : Option TransactionData :=
  (db.findTokenBySymbol body.symbol).bind fun _ =>
    body.timestamp.map fun timestamp =>
      body.row portfolioId timestamp (feedUsdValue env body usdValueOverride db)

/-- A connected portfolio: no asset row of it has a net deposit, and all columns are in range. -/
structure Healthy (p : ℕ) (db : Db) : Prop where
  connected : (db.findPortfolioById p).map Portfolio.type = some .connected
  fits : db.fits column
  untouched : ∀ u a, db.findAsset p u = some a → a.netDeposit = 0

theorem Healthy.total {p : ℕ} {db : Db} (h : Healthy p db) :
    column.fits (column.fix (netDepositSum db p)) := by
  have hzero : netDepositSum db p = 0 := by
    unfold netDepositSum Ledger.assetsOf
    apply List.sum_eq_zero
    intro x hx
    obtain ⟨a, ha, rfl⟩ := List.mem_map.mp hx
    obtain ⟨hmem, hp⟩ := List.mem_filter.mp ha
    refine h.untouched a.tokenId a (Table.find?_eq_some_iff.mpr ⟨hmem, ?_⟩)
    exact Prod.ext (of_decide_eq_true hp) rfl
  rw [hzero]
  decide +kernel

theorem fits_apply {w : BalanceWrite} {a : Ledger.Asset} (hw : w.fits)
    (ha : a.decimals.all column.fits) : (w.apply a).decimals.all column.fits := by
  have hzero : column.fits 0 = true := by decide +kernel
  unfold BalanceWrite.fits BalanceWrite.decimals at hw
  unfold Ledger.Asset.decimals at ha ⊢
  unfold BalanceWrite.apply
  cases hcost : w.cost with
  | none =>
      rw [hcost] at hw
      simp only [List.all_append, List.all_cons, List.all_nil, Bool.and_eq_true] at hw ha ⊢
      tauto
  | some cost =>
      rw [hcost] at hw
      simp only [List.all_append, List.all_cons, List.all_nil, Bool.and_eq_true] at hw ha ⊢
      tauto

theorem fits_zeroed {cost : Option CostMap} {a : Ledger.Asset}
    (ha : a.decimals.all column.fits) : (zeroed cost a).decimals.all column.fits := by
  have hzero : column.fits 0 = true := by decide +kernel
  unfold Ledger.Asset.decimals at ha ⊢
  unfold zeroed
  cases cost with
  | none =>
      simp only [List.all_append, List.all_cons, List.all_nil, Bool.and_eq_true] at ha ⊢
      tauto
  | some cost =>
      simp only [List.all_append, List.all_cons, List.all_nil, Bool.and_eq_true,
        Option.toList_none] at ha ⊢
      tauto

theorem netDeposit_apply {w : BalanceWrite} {a : Ledger.Asset} (ha : a.netDeposit = 0) :
    (w.apply a).netDeposit = 0 := by
  unfold BalanceWrite.apply
  cases w.cost with
  | none => exact ha
  | some cost => rfl

theorem netDeposit_zeroed {cost : Option CostMap} {a : Ledger.Asset} (ha : a.netDeposit = 0) :
    (zeroed cost a).netDeposit = 0 := by
  cases cost with
  | none => exact ha
  | some cost => rfl

theorem fits_emptyAsset (p t : ℕ) : (Ledger.emptyAsset p t).decimals.all column.fits := by
  show ([0, 0, 0, 0, 0] : List ℚ).all column.fits
  decide +kernel

/-- Setting the balances keeps the portfolio healthy. -/
theorem Healthy.setConnectedBalances {p : ℕ} {held : List HeldToken} {cost : Option CostMap}
    {db : Db} (h : Healthy p db) :
    Healthy p (setConnectedBalancesFromSummary p held cost db) := by
  have hold : ∀ q u a, db.findAsset q u = some a → a.decimals.all column.fits := by
    intro q u a ha
    have hfits := h.fits
    unfold Db.fits at hfits
    rw [Bool.and_eq_true, Bool.and_eq_true] at hfits
    exact List.all_eq_true.mp hfits.1.2 a (Table.find?_eq_some_iff.mp ha).1
  have hgiven : ∀ u, ((db.findAsset p u).getD (Ledger.emptyAsset p u)).decimals.all column.fits ∧
      ((db.findAsset p u).getD (Ledger.emptyAsset p u)).netDeposit = 0 := by
    intro u
    cases hfound : db.findAsset p u with
    | none => exact ⟨fits_emptyAsset p u, rfl⟩
    | some a => exact ⟨hold p u a hfound, h.untouched u a hfound⟩
  have hrow : ∀ q u a, (setConnectedBalancesFromSummary p held cost db).findAsset q u = some a →
      a.decimals.all column.fits ∧ (q = p → a.netDeposit = 0) := by
    intro q u a ha
    rw [findAsset_setConnectedBalances] at ha
    split at ha
    · next hother => exact ⟨hold q u a ha, fun hq => absurd hq hother⟩
    · next hq =>
        rw [not_not] at hq
        subst hq
        split at ha
        · obtain ⟨old, hfound, rfl⟩ := Option.map_eq_some_iff.mp ha
          exact ⟨fits_zeroed (hold q u old hfound),
            fun _ => netDeposit_zeroed (h.untouched u old hfound)⟩
        · split at ha
          · next hfits =>
              cases ha
              exact ⟨fits_apply hfits (hgiven u).1, fun _ => netDeposit_apply (hgiven u).2⟩
          · exact ⟨hold q u a ha, fun _ => h.untouched u a ha⟩
  refine ⟨?_, ?_, fun u a ha => (hrow p u a ha).2 rfl⟩
  · rw [portfolios_setConnectedBalances]
    exact h.connected
  · obtain ⟨assets, hset⟩ := exists_setConnectedBalances p held cost db
    have hfits := h.fits
    rw [hset] at hrow ⊢
    unfold Db.fits at hfits ⊢
    rw [Bool.and_eq_true, Bool.and_eq_true] at hfits ⊢
    refine ⟨⟨hfits.1.1, List.all_eq_true.mpr fun a ha => ?_⟩, hfits.2⟩
    exact (hrow a.portfolioId a.tokenId a (Table.find?_eq_some_iff.mpr ⟨ha, rfl⟩)).1

/-- A row was added to the transactions of the portfolio's feed. -/
structure Booked (p : ℕ) (data : TransactionData) (db db' : Db) : Prop where
  tokens : db'.tokens = db.tokens
  frame : FeedFrame p db db'
  rows : db'.transactions.rows = db.transactions.rows ++ [⟨data, db.transactions.next⟩]
  fits : db'.fits column

theorem rowDecimals_of_fits {data : TransactionData} {n : ℕ} {db db' : Db}
    (hrows : db'.transactions.rows = db.transactions.rows ++ [⟨data, n⟩])
    (hfits : db'.fits column) : (rowDecimals data).all column.fits := by
  unfold Db.fits at hfits
  rw [Bool.and_eq_true, hrows, List.all_append] at hfits
  have hlast := (Bool.and_eq_true_iff.mp hfits.2).2
  rw [List.all_cons] at hlast
  exact (Bool.and_eq_true_iff.mp hlast).1

section Create

variable {env : Env} {portfolio : Portfolio} {body : FeedBody} {usdValueOverride : Option ℚ}
  {db : Db}

theorem FeedBody.data_eq_some_iff {p : ℕ} {data : TransactionData} :
    body.data env p usdValueOverride db = some data ↔
      ∃ token timestamp, db.findTokenBySymbol body.symbol = some token ∧
        body.timestamp = some timestamp ∧
        data = body.row p timestamp (feedUsdValue env body usdValueOverride db) := by
  unfold FeedBody.data
  rw [Option.bind_eq_some_iff]
  constructor
  · rintro ⟨token, htoken, hmap⟩
    obtain ⟨timestamp, htimestamp, rfl⟩ := Option.map_eq_some_iff.mp hmap
    exact ⟨token, timestamp, htoken, htimestamp, rfl⟩
  · rintro ⟨token, timestamp, htoken, htimestamp, rfl⟩
    exact ⟨token, htoken, Option.map_eq_some_iff.mpr ⟨timestamp, htimestamp, rfl⟩⟩

/-- The key of the row is the portfolio with the hash of the transfer. -/
theorem rowKey_row (p : ℕ) (timestamp : Millis) (usdValue : ℚ) :
    rowKey (body.row p timestamp usdValue) = body.transactionHash.map fun hash => (p, hash) := rfl

variable (hconnected : (db.findPortfolioById portfolio.id).map Portfolio.type = some .connected)
include hconnected

/-- A transfer that is written had a row that fits, under a hash that was free. -/
theorem bookable_of_create {db' : Db}
    (h : createTransactionFromWebhook env portfolio body usdValueOverride db = .ok db') :
    ∃ data, body.data env portfolio.id usdValueOverride db = some data ∧ bookable data ∧
      (∀ k, rowKey data = some k → k ∉ claimedKeys db) ∧ Booked portfolio.id data db db' := by
  obtain ⟨token, timestamp, db₁, db₂, htoken, hdate, -, hinsert, -, -⟩ :=
    createTransactionFromWebhook_ok h
  obtain ⟨htexts, -, hdetail⟩ := insertFeedRow_ok hinsert
  generalize hrow : body.row portfolio.id timestamp
    (feedUsdValue env body usdValueOverride db) = data at htexts hdetail
  have hdata : body.data env portfolio.id usdValueOverride db = some data :=
    FeedBody.data_eq_some_iff.mpr ⟨token, timestamp, htoken, hdate, hrow.symm⟩
  have hfree : ∀ k, rowKey data = some k → k ∉ claimedKeys db := by
    intro k hkey htaken
    rw [create_taken hconnected htoken hdate hrow.symm htexts hkey htaken] at h
    cases h
  have hwrote := create_free_ok hconnected htoken hdate hrow.symm htexts hfree h
  have hdecimals := rowDecimals_of_fits hwrote.rows hwrote.fits
  refine ⟨data, hdata, ?_, hfree, hwrote.tokens, ?_, hwrote.rows, hwrote.fits⟩
  · unfold bookable
    rw [htexts, hdetail, hdecimals]
    rfl
  · exact FeedFrame.createTransactionFromWebhook hconnected h

theorem create_of_not_bookable
    (h : (body.data env portfolio.id usdValueOverride db).any bookable = false) :
    ∃ e, createTransactionFromWebhook env portfolio body usdValueOverride db = .error e := by
  cases hcreate : createTransactionFromWebhook env portfolio body usdValueOverride db with
  | error e => exact ⟨e, rfl⟩
  | ok db' =>
      obtain ⟨data, hdata, hbookable, -⟩ := bookable_of_create hconnected hcreate
      rw [hdata, Option.any_some, hbookable] at h
      cases h

theorem create_of_claimed {hash : String} (hhash : body.transactionHash = some hash)
    (hclaimed : (portfolio.id, hash) ∈ claimedKeys db) :
    ∃ e, createTransactionFromWebhook env portfolio body usdValueOverride db = .error e := by
  cases hcreate : createTransactionFromWebhook env portfolio body usdValueOverride db with
  | error e => exact ⟨e, rfl⟩
  | ok db' =>
      obtain ⟨data, hdata, -, hfree, -⟩ := bookable_of_create hconnected hcreate
      obtain ⟨-, timestamp, -, -, rfl⟩ := FeedBody.data_eq_some_iff.mp hdata
      have hkey := @rowKey_row body portfolio.id timestamp (feedUsdValue env body usdValueOverride db)
      rw [hhash] at hkey
      exact absurd hclaimed (hfree _ hkey)

omit hconnected in
theorem create_of_bookable (hhealthy : Healthy portfolio.id db) {data : TransactionData}
    (hdata : body.data env portfolio.id usdValueOverride db = some data)
    (hbookable : bookable data) (hfree : ∀ k, rowKey data = some k → k ∉ claimedKeys db) :
    ∃ db', createTransactionFromWebhook env portfolio body usdValueOverride db = .ok db' := by
  obtain ⟨token, timestamp, htoken, hdate, hrow⟩ := FeedBody.data_eq_some_iff.mp hdata
  unfold bookable at hbookable
  rw [Bool.and_eq_true, Bool.and_eq_true] at hbookable
  obtain ⟨⟨htexts, hdetail⟩, hdecimals⟩ := hbookable
  have hid : data.portfolioId = portfolio.id := by
    rw [hrow]
    rfl
  have hok := create_free_isOk hhealthy.connected htoken hdate hrow hhealthy.fits htexts hfree
  unfold columnsAccept at hok
  rw [hdetail, hdecimals, hid, hhealthy.total] at hok
  cases hcreate : createTransactionFromWebhook env portfolio body usdValueOverride db with
  | error e =>
      rw [hcreate] at hok
      cases hok
  | ok db' => exact ⟨db', rfl⟩

end Create

/-! ## What passes between two imports -/

/-- The catalog only changes for the given tokens, transactions are only added, and the portfolio
stays connected. -/
structure Progress (text : Text) (inputs : List TokenResolveInput) (p : ℕ) (db db' : Db) :
    Prop where
  later : Later text inputs db db'
  rows : db.transactions.rows <+: db'.transactions.rows
  type : (db'.findPortfolioById p).map Portfolio.type = (db.findPortfolioById p).map Portfolio.type

namespace Progress

variable {text : Text} {inputs : List TokenResolveInput} {p : ℕ} {db db' db'' : Db}

theorem claimed (h : Progress text inputs p db db') : claimedKeys db ⊆ claimedKeys db' := by
  obtain ⟨new, hrows⟩ := h.rows
  unfold claimedKeys
  rw [← hrows, List.filterMap_append]
  exact List.subset_append_left _ _

theorem refl : Progress text inputs p db db := ⟨.refl, List.prefix_refl _, rfl⟩

theorem trans (h : Progress text inputs p db db') (h' : Progress text inputs p db' db'') :
    Progress text inputs p db db'' :=
  ⟨h.later.trans h'.later, h.rows.trans h'.rows, h'.type.trans h.type⟩

/-- Writes that leave the catalog, the transactions and the portfolios alone. -/
theorem of_tables (htokens : db'.tokens = db.tokens)
    (htransactions : db'.transactions = db.transactions)
    (hportfolios : db'.portfolios = db.portfolios) : Progress text inputs p db db' where
  later := .single (.elsewhere htokens)
  rows := htransactions ▸ List.prefix_refl _
  type := by
    unfold Db.findPortfolioById
    rw [hportfolios]

theorem resolve {i : TokenResolveInput} (hi : i ∈ inputs) :
    Progress text inputs p db (afterResolve text i db) := by
  have htables : ∃ tokens, afterResolve text i db = { db with tokens } := by
    unfold afterResolve
    split
    · next hresolve => exact ⟨_, resolve_catalog hresolve⟩
    · exact ⟨db.tokens, rfl⟩
  obtain ⟨tokens, htokens⟩ := htables
  refine ⟨.single (resolves_afterResolve hi db), ?_, ?_⟩
  · rw [htokens]
  · rw [htokens]
    rfl

end Progress

namespace Booked

variable {p : ℕ} {data : TransactionData} {db db' : Db} (h : Booked p data db db')
include h

theorem progress {text : Text} {inputs : List TokenResolveInput} :
    Progress text inputs p db db' where
  later := .single (.elsewhere h.tokens)
  rows := h.rows ▸ List.prefix_append _ _
  type := h.frame.type

theorem claimed {k : ℕ × String} (hkey : rowKey data = some k) : k ∈ claimedKeys db' := by
  unfold claimedKeys
  rw [h.rows, List.filterMap_append]
  exact List.mem_append_right _ (List.mem_filterMap.mpr ⟨_, List.mem_singleton_self _, hkey⟩)

theorem healthy (hhealthy : Healthy p db) : Healthy p db' where
  connected := h.frame.type.trans hhealthy.connected
  fits := h.fits
  untouched u a ha := by
    cases hbefore : db.findAsset p u with
    | none =>
        rw [(h.frame.fresh _ u a hbefore ha).2]
        rfl
    | some old =>
        rw [h.frame.kept _ u old hbefore] at ha
        cases ha
        exact hhealthy.untouched u _ hbefore

end Booked

/-! ## Prices -/

section Price

variable {text : Text} {inputs : List TokenResolveInput} {db db' : Db}

theorem Lists.findTokenBySymbol {j : TokenResolveInput} {listed token : Token} {symbol : String}
    (h : Lists text j listed db db') (hfound : db.findTokenBySymbol symbol = some token) :
    ∃ token', db'.findTokenBySymbol symbol = some token' ∧
      token'.currentPrice = token.currentPrice := by
  obtain ⟨hmem, hsymbol⟩ := SerialTable.findUniq?_eq_some_iff.mp hfound
  cases h with
  | @backfill c row hcontract hnone hrow hfree hfits htoken hrows =>
      refine ⟨withContract row.id c token, SerialTable.findUniq?_eq_some_iff.mpr ⟨?_, ?_⟩,
        currentPrice_withContract _ _ _⟩
      · rw [hrows]
        exact List.mem_map_of_mem hmem
      · rw [← hsymbol, symbol_withContract]
  | create hnone hcreatable hname hcontract hrows =>
      refine ⟨token, SerialTable.findUniq?_eq_some_iff.mpr ⟨?_, hsymbol⟩, rfl⟩
      rw [hrows]
      exact List.mem_append_left _ hmem

/-- A symbol keeps its row and its price. -/
theorem Later.findTokenBySymbol {token : Token} {symbol : String} (h : Later text inputs db db')
    (hfound : db.findTokenBySymbol symbol = some token) :
    ∃ token', db'.findTokenBySymbol symbol = some token' ∧
      token'.currentPrice = token.currentPrice := by
  induction h with
  | refl => exact ⟨token, hfound, rfl⟩
  | tail _ hstep ih =>
      obtain ⟨mid, hmid, hprice⟩ := ih
      cases hstep with
      | elsewhere htokens =>
          refine ⟨mid, ?_, hprice⟩
          unfold Db.findTokenBySymbol at hmid ⊢
          rw [htokens, hmid]
      | lists hj hlists =>
          obtain ⟨token', hfound', hprice'⟩ := hlists.findTokenBySymbol hmid
          exact ⟨token', hfound', hprice'.trans hprice⟩

/-- The row of a transfer does not depend on when it is asked for. -/
theorem Later.data {env : Env} {p : ℕ} {body : FeedBody} {usdValueOverride : Option ℚ}
    {token : Token} (h : Later text inputs db db')
    (hfound : db.findTokenBySymbol body.symbol = some token) :
    body.data env p usdValueOverride db' = body.data env p usdValueOverride db := by
  obtain ⟨token', hfound', hprice⟩ := h.findTokenBySymbol hfound
  have hvalue : feedUsdValue env body usdValueOverride db' =
      feedUsdValue env body usdValueOverride db := by
    unfold feedUsdValue Ledger.computeUsdValue Ledger.livePrice
    rw [hfound, hfound', Option.map_some, Option.map_some, hprice]
  unfold FeedBody.data
  rw [hfound, hfound', Option.bind_some, Option.bind_some, hvalue]

end Price

/-! ## Fungible transfers -/

/-- The tokens of the fungible transfers. -/
def WalletTransfer.input (tr : WalletTransfer) (symbol : String) : TokenResolveInput :=
  ⟨symbol, tr.contractAddress, none⟩

/-- No row is written for the body: its hash is taken, or its row does not fit. -/
def Passed (env : Env) (p : ℕ) (body : FeedBody) (usdValueOverride : Option ℚ) (db : Db) : Prop :=
  (body.data env p usdValueOverride db).any bookable = false ∨
    ∃ hash, body.transactionHash = some hash ∧ (p, hash) ∈ claimedKeys db

theorem passed_of_error {env : Env} {portfolio : Portfolio} {body : FeedBody}
    {usdValueOverride : Option ℚ} {db : Db} {e : Failure} (hhealthy : Healthy portfolio.id db)
    (h : createTransactionFromWebhook env portfolio body usdValueOverride db = .error e) :
    Passed env portfolio.id body usdValueOverride db := by
  by_cases hbookable : (body.data env portfolio.id usdValueOverride db).any bookable
  · obtain ⟨data, hdata, hbookable⟩ := Option.any_eq_true _ _ |>.mp hbookable
    by_cases hfree : ∀ k, rowKey data = some k → k ∉ claimedKeys db
    · obtain ⟨db', hcreate⟩ := create_of_bookable hhealthy hdata hbookable hfree
      rw [h] at hcreate
      cases hcreate
    · push Not at hfree
      obtain ⟨k, hkey, hclaimed⟩ := hfree
      obtain ⟨-, timestamp, -, -, rfl⟩ := FeedBody.data_eq_some_iff.mp hdata
      rw [rowKey_row] at hkey
      obtain ⟨hash, hhash, rfl⟩ := Option.map_eq_some_iff.mp hkey
      exact .inr ⟨hash, hhash, hclaimed⟩
  · exact .inl (by simpa using hbookable)

/-- The row of the transfer and its body, if its token is mapped to a row. -/
structure Mapped (text : Text) (tr : WalletTransfer) (body : FeedBody) (db : Db) : Prop where
  mapped : ∃ symbol token, tr.symbol.filter (· ≠ "") = some symbol ∧
    Finds text (tr.input symbol) token db ∧ body = tr.body token symbol

/-- The transfer is passed over: it names no token, or one that is refused, or a row that is not
written. -/
inductive FungibleSettled (text : Text) (env : Env) (p : ℕ) (tr : WalletTransfer) (db : Db) : Prop
  | unnamed (h : tr.symbol.filter (· ≠ "") = none) : FungibleSettled text env p tr db
  | lost {symbol : String} (hsymbol : tr.symbol.filter (· ≠ "") = some symbol)
      (h : Lost text (tr.input symbol) db) : FungibleSettled text env p tr db
  | passed {body : FeedBody} (hmapped : Mapped text tr body db)
      (h : Passed env p body tr.usdValue db) : FungibleSettled text env p tr db

/-- The transfer has no hash and a row that fits. -/
structure Unkeyed (text : Text) (env : Env) (p : ℕ) (tr : WalletTransfer) (db : Db) : Prop where
  hashless : tr.transactionHash = none
  mapped : ∃ body, Mapped text tr body db ∧
    (body.data env p tr.usdValue db).any bookable

section Fungible

variable {text : Text} {env : Env} {portfolio : Portfolio} {tr : WalletTransfer} {db db' : Db}
  {inputs : List TokenResolveInput}

theorem Finds.findTokenBySymbol {i : TokenResolveInput} {token : Token}
    (h : Finds text i token db) : db.findTokenBySymbol token.symbol = some token :=
  SerialTable.findUniq?_eq_some_iff.mpr ⟨findTokenFor_mem h.found, rfl⟩

theorem importFungible_of_settled
    (hconnected : (db.findPortfolioById portfolio.id).map Portfolio.type = some .connected)
    (h : FungibleSettled text env portfolio.id tr db) :
    importFungibleTransfer text env portfolio tr db = (false, db) := by
  unfold importFungibleTransfer
  cases h with
  | unnamed hsymbol => rw [hsymbol]
  | lost hsymbol hlost =>
      obtain ⟨e, hresolve⟩ := hlost.resolve
      unfold WalletTransfer.input at hresolve
      rw [hsymbol]
      dsimp only
      rw [hresolve]
  | passed hmapped hpassed =>
      obtain ⟨symbol, token, hsymbol, hfinds, rfl⟩ := hmapped.mapped
      have hresolve := hfinds.resolve
      unfold WalletTransfer.input at hresolve
      have hcreate : ∃ e, createTransactionFromWebhook env portfolio (tr.body token symbol)
          tr.usdValue db = .error e := by
        rcases hpassed with hunfit | ⟨hash, hhash, hclaimed⟩
        · exact create_of_not_bookable hconnected hunfit
        · exact create_of_claimed hconnected hhash hclaimed
      obtain ⟨e, hcreate⟩ := hcreate
      rw [hsymbol]
      dsimp only
      rw [hresolve]
      dsimp only
      rw [hcreate]

theorem Healthy.of_tokens {p : ℕ} {tokens : Ledger.TokenTable} (h : Healthy p db) :
    Healthy p { db with tokens } := ⟨h.connected, h.fits, h.untouched⟩

/-- Once a transfer was taken it is settled, unless it was written without a hash. -/
theorem settles_importFungible (hcompare : Equivalence fun a b => text.insensitive a b)
    (hagreed : Agreed text inputs db)
    (hinputs : ∀ symbol, tr.symbol.filter (· ≠ "") = some symbol → tr.input symbol ∈ inputs)
    (hhealthy : Healthy portfolio.id db) {did : Bool}
    (himport : importFungibleTransfer text env portfolio tr db = (did, db')) :
    Progress text inputs portfolio.id db db' ∧ Healthy portfolio.id db' ∧
      (if did ∧ tr.transactionHash = none then Unkeyed text env portfolio.id tr db'
        else FungibleSettled text env portfolio.id tr db') := by
  unfold importFungibleTransfer at himport
  cases hsymbol : tr.symbol.filter (· ≠ "") with
  | none =>
      rw [hsymbol] at himport
      cases himport
      exact ⟨.refl, hhealthy, .unnamed hsymbol⟩
  | some symbol =>
      have hi := hinputs symbol hsymbol
      have hupper := hagreed.upper _ hi
      rw [hsymbol] at himport
      dsimp only at himport
      cases hresolve : resolveOrCreateToken text (tr.input symbol) db with
      | error e =>
          unfold WalletTransfer.input at hresolve
          rw [hresolve] at himport
          cases himport
          exact ⟨.refl, hhealthy, .lost hsymbol (lost_of_resolve hupper hresolve)⟩
      | ok resolved =>
          obtain ⟨token, db₁⟩ := resolved
          have hafter : afterResolve text (tr.input symbol) db = db₁ := by
            unfold afterResolve
            rw [hresolve]
          have hprogress : Progress text inputs portfolio.id db db₁ := hafter ▸ .resolve hi
          have hhealthy₁ : Healthy portfolio.id db₁ :=
            resolve_catalog hresolve ▸ hhealthy.of_tokens
          have hfinds : Finds text (tr.input symbol) token db₁ := by
            obtain ⟨hstorable, ⟨hfinds, rfl⟩ | hlists⟩ := resolve_ok hresolve
            · exact hfinds
            · exact hlists.finds hcompare hupper hstorable
          unfold WalletTransfer.input at hresolve
          rw [hresolve] at himport
          dsimp only at himport
          cases hcreate : createTransactionFromWebhook env portfolio (tr.body token symbol)
              tr.usdValue db₁ with
          | error e =>
              rw [hcreate] at himport
              cases himport
              refine ⟨hprogress, hhealthy₁, .passed ⟨symbol, token, hsymbol, hfinds, rfl⟩ ?_⟩
              exact passed_of_error hhealthy₁ hcreate
          | ok db₂ =>
              rw [hcreate] at himport
              cases himport
              obtain ⟨data, hdata, hbookable, -, hbooked⟩ :=
                bookable_of_create hhealthy₁.connected hcreate
              have hmapped : Mapped text tr (tr.body token symbol) db' :=
                ⟨symbol, token, hsymbol, hfinds.of_tokens hbooked.tokens, rfl⟩
              refine ⟨hprogress.trans hbooked.progress, hbooked.healthy hhealthy₁, ?_⟩
              cases hhash : tr.transactionHash with
              | none =>
                  rw [if_pos ⟨rfl, rfl⟩]
                  refine ⟨hhash, _, hmapped, ?_⟩
                  have hlater : Later text inputs db₁ db' := .single (.elsewhere hbooked.tokens)
                  obtain ⟨row, -, hrow, -⟩ := FeedBody.data_eq_some_iff.mp hdata
                  rw [hlater.data hrow, hdata]
                  exact hbookable
              | some hash =>
                  rw [if_neg (by simp)]
                  obtain ⟨-, timestamp, -, -, rfl⟩ := FeedBody.data_eq_some_iff.mp hdata
                  have hbody : (tr.body token symbol).transactionHash = some hash := hhash
                  refine .passed hmapped (.inr ⟨hash, hbody, hbooked.claimed ?_⟩)
                  rw [rowKey_row, hbody]
                  rfl

section Progress

variable (hcompare : Equivalence fun a b => text.insensitive a b)
  (hagreed : Agreed text inputs db)
  (hinputs : ∀ symbol, tr.symbol.filter (· ≠ "") = some symbol → tr.input symbol ∈ inputs)
include hcompare hagreed hinputs

/-- A mapped transfer keeps its body and its row. -/
theorem Mapped.progress {p : ℕ} {body : FeedBody} (h : Mapped text tr body db)
    (hprogress : Progress text inputs p db db') :
    Mapped text tr body db' ∧
      body.data env p tr.usdValue db' = body.data env p tr.usdValue db := by
  obtain ⟨symbol, token, hsymbol, hfinds, rfl⟩ := h.mapped
  have hsettled : Settled text (tr.input symbol) (some (token.id, token.symbol)) db :=
    ⟨token, hfinds, rfl, rfl⟩
  obtain ⟨token', hfinds', -, hname⟩ :=
    hsettled.later hcompare hagreed hprogress.later (hinputs symbol hsymbol)
  have hbody : tr.body token symbol = tr.body token' symbol := by
    unfold WalletTransfer.body
    rw [hname]
  exact ⟨⟨symbol, token', hsymbol, hfinds', hbody⟩,
    hprogress.later.data hfinds.findTokenBySymbol⟩

theorem FungibleSettled.progress {p : ℕ} (h : FungibleSettled text env p tr db)
    (hprogress : Progress text inputs p db db') : FungibleSettled text env p tr db' := by
  cases h with
  | unnamed hsymbol => exact .unnamed hsymbol
  | lost hsymbol hlost =>
      have hsettled : Settled text _ none db := hlost
      exact .lost hsymbol
        (hsettled.later hcompare hagreed hprogress.later (hinputs _ hsymbol))
  | passed hmapped hpassed =>
      obtain ⟨hmapped', hdata⟩ := hmapped.progress hcompare hagreed hinputs hprogress
      refine .passed hmapped' ?_
      rcases hpassed with hunfit | ⟨hash, hhash, hclaimed⟩
      · exact .inl (hdata ▸ hunfit)
      · exact .inr ⟨hash, hhash, hprogress.claimed hclaimed⟩

theorem Unkeyed.progress {p : ℕ} (h : Unkeyed text env p tr db)
    (hprogress : Progress text inputs p db db') : Unkeyed text env p tr db' := by
  obtain ⟨body, hmapped, hbookable⟩ := h.mapped
  obtain ⟨hmapped', hdata⟩ := hmapped.progress hcompare hagreed hinputs hprogress
  exact ⟨h.hashless, body, hmapped', hdata ▸ hbookable⟩

end Progress

/-- Without a hash the row is written once more. -/
theorem importFungible_of_unkeyed (hhealthy : Healthy portfolio.id db)
    (h : Unkeyed text env portfolio.id tr db) :
    ∃ data, (importFungibleTransfer text env portfolio tr db).1 = true ∧
      Booked portfolio.id data db (importFungibleTransfer text env portfolio tr db).2 := by
  obtain ⟨body, hmapped, hbookable⟩ := h.mapped
  obtain ⟨symbol, token, hsymbol, hfinds, rfl⟩ := hmapped.mapped
  obtain ⟨data, hdata, hbookable⟩ := Option.any_eq_true _ _ |>.mp hbookable
  have hresolve := hfinds.resolve
  unfold WalletTransfer.input at hresolve
  have hfree : ∀ k, rowKey data = some k → k ∉ claimedKeys db := by
    intro k hkey
    obtain ⟨-, timestamp, -, -, rfl⟩ := FeedBody.data_eq_some_iff.mp hdata
    rw [rowKey_row] at hkey
    have hnone : (tr.body token symbol).transactionHash = none := h.hashless
    rw [hnone] at hkey
    cases hkey
  obtain ⟨db', hcreate⟩ := create_of_bookable hhealthy hdata hbookable hfree
  obtain ⟨data', -, -, -, hbooked⟩ := bookable_of_create hhealthy.connected hcreate
  have himport : importFungibleTransfer text env portfolio tr db = (true, db') := by
    unfold importFungibleTransfer
    rw [hsymbol]
    dsimp only
    rw [hresolve]
    dsimp only
    rw [hcreate]
  rw [himport]
  exact ⟨data', rfl, hbooked⟩

end Fungible

end Neonfi.Wallet

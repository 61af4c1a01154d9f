import Neonfi.Ledger.Writes

/-!
# Removing an asset

`removeAsset` deletes the asset row and settles the portfolio total; the transactions of the
token stay.  Cash in the transactions and opening costs of the assets add up to the total as
long as every trade is of a held token, and a token that comes back is counted from its new
lot as long as none of its trades stayed.
-/

namespace Neonfi.Ledger

open Lib

/-! ## Deposits and withdrawals -/

/-- The USD values in one detail table of a portfolio's transactions in one direction. -/
def usdSum (detail? : Detail → Option TradeDetail) (direction : Direction) (portfolioId : ℕ)
    (rows : List Transaction) : ℚ :=
  ((rows.filter fun t => t.portfolioId = portfolioId ∧ t.direction = direction).filterMap
    fun t => (detail? t.detail).map TradeDetail.usdValue).sum

structure DepositWithdrawalTotals where
  totalDeposits : ℚ
  totalWithdrawals : ℚ
  deriving DecidableEq, Repr

def getDepositWithdrawalTotals (portfolioId : ℕ) (db : Db) : DepositWithdrawalTotals where
  totalDeposits := usdSum Detail.native? .buy portfolioId db.transactions.rows +
    usdSum Detail.erc20? .buy portfolioId db.transactions.rows
  totalWithdrawals := usdSum Detail.native? .sell portfolioId db.transactions.rows +
    usdSum Detail.erc20? .sell portfolioId db.transactions.rows

/-- The cash a row brings into its portfolio. -/
def TransactionData.cash (t : TransactionData) : ℚ :=
  match t.detail.trade?, t.direction with
  | some d, .buy => d.usdValue
  | some d, .sell => -d.usdValue
  | _, _ => 0

/-- The cash of the rows that satisfy a condition. -/
def cashWhere (rows : List Transaction) (p : Transaction → Bool) : ℚ :=
  ((rows.filter p).map fun t => t.cash).sum

theorem cashWhere_cons (t : Transaction) (rows : List Transaction) (p : Transaction → Bool) :
    cashWhere (t :: rows) p = (if p t then t.cash else 0) + cashWhere rows p := by
  unfold cashWhere
  by_cases hp : p t <;> simp [hp]

theorem usdSum_cons (detail? : Detail → Option TradeDetail) (direction : Direction) (p : ℕ)
    (t : Transaction) (rows : List Transaction) :
    usdSum detail? direction p (t :: rows) =
      (if t.portfolioId = p ∧ t.direction = direction then
        ((detail? t.detail).map TradeDetail.usdValue).getD 0 else 0) +
        usdSum detail? direction p rows := by
  unfold usdSum
  by_cases hp : t.portfolioId = p ∧ t.direction = direction
  · rw [List.filter_cons_of_pos (by simpa using hp), if_pos hp]
    cases hd : detail? t.detail <;> simp [hd]
  · rw [List.filter_cons_of_neg (by simpa using hp), if_neg hp, zero_add]

/-- Deposits less withdrawals are the cash of the portfolio's rows. -/
theorem deposits_sub_withdrawals (p : ℕ) (db : Db) :
    (getDepositWithdrawalTotals p db).totalDeposits -
        (getDepositWithdrawalTotals p db).totalWithdrawals =
      cashWhere db.transactions.rows fun t => t.portfolioId = p := by
  change (usdSum Detail.native? .buy p _ + usdSum Detail.erc20? .buy p _) -
    (usdSum Detail.native? .sell p _ + usdSum Detail.erc20? .sell p _) = _
  induction db.transactions.rows with
  | nil => simp [usdSum, cashWhere]
  | cons t rows ih =>
      rw [cashWhere_cons, ← ih, usdSum_cons, usdSum_cons, usdSum_cons, usdSum_cons]
      have hcash : (if decide (t.portfolioId = p) then t.cash else 0) =
          ((if t.portfolioId = p ∧ t.direction = .buy then
              ((Detail.native? t.detail).map TradeDetail.usdValue).getD 0 else 0) +
            if t.portfolioId = p ∧ t.direction = .buy then
              ((Detail.erc20? t.detail).map TradeDetail.usdValue).getD 0 else 0) -
          ((if t.portfolioId = p ∧ t.direction = .sell then
              ((Detail.native? t.detail).map TradeDetail.usdValue).getD 0 else 0) +
            if t.portfolioId = p ∧ t.direction = .sell then
              ((Detail.erc20? t.detail).map TradeDetail.usdValue).getD 0 else 0) := by
        unfold TransactionData.cash
        by_cases hp : t.portfolioId = p
        · cases hdetail : t.detail <;> cases hdir : t.direction <;>
            simp [hp, Detail.trade?, Detail.native?, Detail.erc20?]
        · simp [hp]
      rw [hcash]
      ring

/-- The cash of a token's events is that of its rows. -/
theorem cash_eventRows (rows : List Transaction) (p : ℕ) (symbol : String) :
    ((eventRows rows p symbol).map LedgerEvent.cash).sum =
      cashWhere rows fun t => t.portfolioId = p ∧ t.symbol? = some symbol := by
  induction rows with
  | nil => rfl
  | cons t rows ih =>
      have hevent : ∀ detail?, ((t :: rows).filterMap
          (Transaction.eventOf detail? p symbol)) = (t.eventOf detail? p symbol).toList ++
            rows.filterMap (Transaction.eventOf detail? p symbol) := by
        intro detail?
        rw [List.filterMap_cons]
        cases t.eventOf detail? p symbol <;> rfl
      rw [cashWhere_cons, ← ih]
      unfold eventRows
      rw [hevent, hevent]
      simp only [List.map_append, List.sum_append]
      have hcash : (((t.eventOf Detail.native? p symbol).toList.map LedgerEvent.cash).sum) +
          (((t.eventOf Detail.erc20? p symbol).toList.map LedgerEvent.cash).sum) =
            if decide (t.portfolioId = p ∧ t.symbol? = some symbol) then t.cash else 0 := by
        unfold Transaction.eventOf TransactionData.event? TransactionData.symbol?
          TransactionData.cash
        by_cases hp : t.portfolioId = p
        · cases hdetail : t.detail with
          | native d | erc20 d info =>
              by_cases hs : d.symbol = symbol <;> cases hdir : t.direction <;>
                simp [hp, hs, Detail.trade?, Detail.native?, Detail.erc20?, LedgerEvent.cash]
          | nft d => simp [hp, Detail.trade?, Detail.native?, Detail.erc20?]
        · simp [hp]
      rw [← hcash]
      ring

/-! ## One portfolio -/

/-- The rows an asset is replayed from. -/
def Asset.counts (db : Db) (a : Asset) (t : Transaction) : Bool :=
  t.portfolioId = a.portfolioId ∧ t.symbol? = (db.findTokenById a.tokenId).map Token.symbol

/-- A sum over pairs, taken either way round. -/
theorem sum_cashWhere (assets : List Asset) (rows : List Transaction)
    (counts : Asset → Transaction → Bool) :
    (assets.map fun a => cashWhere rows (counts a)).sum =
      (rows.map fun t => ((assets.filter fun a => counts a t).map fun _ => t.cash).sum).sum := by
  induction rows with
  | nil => simp [cashWhere]
  | cons t rows ih =>
      have hrow : ∀ assets : List Asset, (assets.map fun a => if counts a t then t.cash else 0).sum =
          ((assets.filter fun a => counts a t).map fun _ => t.cash).sum := by
        intro assets
        induction assets with
        | nil => rfl
        | cons a assets ih =>
            rw [List.map_cons, List.sum_cons, ih]
            by_cases ha : counts a t <;> simp [ha]
      rw [List.map_cons, List.sum_cons, ← ih, ← hrow]
      simp only [cashWhere_cons, List.sum_map_add]

/-- The known opening costs of the portfolio's assets. -/
def openingCosts (p : ℕ) (db : Db) : ℚ :=
  ((assetsOf db p).map fun a => a.openingCostBasis.getD 0).sum

/-- What the requests keep of a portfolio without a starting balance. -/
structure Settled (N : Numeric) (p : ℕ) (db : Db) : Prop where
  sound : SoundExcept N id db.tokens p ∅ db
  named : NamedTokens db
  totals : TotalsExcept N p ∅ db
  held : RowsHeld p db
  onGrid : ColumnsOnGrid N db

namespace Settled

variable {N : Numeric} {p : ℕ} {db db' : Db}

/-- Exactly one asset counts a trade of the portfolio, and none counts another row. -/
theorem cash_counted (h : Settled N p db) {t : Transaction} (ht : t ∈ db.transactions.rows) :
    (((assetsOf db p).filter fun a => a.counts db t).map fun _ => t.cash).sum =
      if decide (t.portfolioId = p) then t.cash else 0 := by
  by_cases hp : t.portfolioId = p
  · rw [if_pos (by simpa using hp)]
    cases hsymbol : t.symbol? with
    | none =>
        have hcash : t.cash = 0 := by
          unfold TransactionData.symbol? at hsymbol
          unfold TransactionData.cash
          rw [Option.map_eq_none_iff.mp hsymbol]
        simp [hcash]
    | some symbol =>
        obtain ⟨token, htoken, hasset⟩ := h.held t ht hp symbol hsymbol
        obtain ⟨a₀, hfind⟩ := Option.isSome_iff_exists.mp hasset
        rw [hp] at hfind
        have honly : ((assetsOf db p).filter fun a => a.counts db t) = [a₀] := by
          have hkey := @Table.filter_key _ _ _ _ db.assets (p, token.id)
          rw [show db.assets.find? (p, token.id) = some a₀ from hfind] at hkey
          unfold assetsOf
          rw [List.filter_filter, ← Option.toList_some a₀, ← hkey]
          refine List.filter_congr fun a ha => ?_
          unfold Asset.counts
          rw [← Bool.decide_and, decide_eq_decide, hp, hsymbol]
          constructor
          · rintro ⟨⟨-, hsame⟩, hpa⟩
            obtain ⟨token', htoken', -⟩ := h.sound.coherent a ha hpa (Set.notMem_empty _)
            rw [htoken', Option.map_some] at hsame
            have hfound := findTokenBySymbol_of_id htoken'
            rw [← Option.some.inj hsame, htoken] at hfound
            cases hfound
            exact Prod.ext hpa (id_of_findTokenById htoken').symm
          · intro hkeya
            have hpa : a.portfolioId = p := congrArg Prod.fst hkeya
            have hid : a.tokenId = token.id := congrArg Prod.snd hkeya
            rw [hid, findTokenById_of_symbol htoken, Option.map_some,
              (findTokenBySymbol_eq htoken).2]
            exact ⟨⟨hpa.symm, rfl⟩, hpa⟩
        rw [honly]
        simp
  · rw [if_neg (by simpa using hp)]
    have hnone : ((assetsOf db p).filter fun a => a.counts db t) = [] := by
      refine List.filter_eq_nil_iff.mpr fun a ha hcounts => hp ?_
      have hpa : a.portfolioId = p := by simpa using (List.mem_filter.mp ha).2
      have hportfolio : t.portfolioId = a.portfolioId := by
        unfold Asset.counts at hcounts
        exact (of_decide_eq_true hcounts).1
      exact hportfolio.trans hpa
    rw [hnone]
    rfl

/-- An asset's net deposit is its opening cost and the cash of its rows. -/
theorem netDeposit_eq (h : Settled N p db) {a : Asset} (ha : a ∈ assetsOf db p) :
    a.netDeposit =
      a.openingCostBasis.getD 0 + cashWhere db.transactions.rows (a.counts db) := by
  obtain ⟨hmem, hp⟩ := List.mem_filter.mp ha
  have hp : a.portfolioId = p := by simpa using hp
  obtain ⟨token, htoken, hderived⟩ := h.sound.coherent a hmem hp (Set.notMem_empty _)
  have hcounts : a.counts db =
      fun t => decide (t.portfolioId = a.portfolioId ∧ t.symbol? = some token.symbol) := by
    funext t
    unfold Asset.counts
    rw [htoken, Option.map_some]
  have hperm := (List.perm_insertionSort LedgerEvent.before
    (eventRows db.transactions.rows a.portfolioId token.symbol)).map LedgerEvent.cash
  have hreplay : (replay a (ledgerEvents db a.portfolioId token.symbol)).netDeposit =
      a.openingCostBasis.getD 0 + cashWhere db.transactions.rows (a.counts db) := by
    rw [netDeposit_replay, hcounts, ← cash_eventRows]
    congr 1
    exact hperm.sum_eq
  have hstored : a.netDeposit =
      N.fix (replay a (ledgerEvents db a.portfolioId token.symbol)).netDeposit :=
    congrArg Derived.netDeposit hderived
  have hgrid : N.OnGrid (replay a (ledgerEvents db a.portfolioId token.symbol)).netDeposit := by
    rw [netDeposit_replay]
    refine (h.onGrid.lots a hmem).2.add (Numeric.onGrid_sum fun x hx => ?_)
    obtain ⟨e, he, rfl⟩ := List.mem_map.mp hx
    exact (h.onGrid.onGrid_event he).2
  rw [hstored, hgrid, hreplay]

/-- The total is the known opening costs and the deposits less the withdrawals. -/
theorem portfolioTotal_eq_cash (h : Settled N p db) :
    portfolioTotal db p = openingCosts p db + (getDepositWithdrawalTotals p db).totalDeposits -
      (getDepositWithdrawalTotals p db).totalWithdrawals := by
  have hassets : (assetsOf db p).map Asset.netDeposit = (assetsOf db p).map fun a =>
      a.openingCostBasis.getD 0 + cashWhere db.transactions.rows (a.counts db) :=
    List.map_congr_left fun a ha => h.netDeposit_eq ha
  have hrows : (db.transactions.rows.map fun t =>
      (((assetsOf db p).filter fun a => a.counts db t).map fun _ => t.cash).sum).sum =
        cashWhere db.transactions.rows fun t => t.portfolioId = p := by
    have hsplit : ∀ rows : List Transaction, cashWhere rows (fun t => t.portfolioId = p) =
        (rows.map fun t => if decide (t.portfolioId = p) then t.cash else 0).sum := by
      intro rows
      induction rows with
      | nil => rfl
      | cons t rows ih => rw [cashWhere_cons, ih, List.map_cons, List.sum_cons]
    rw [hsplit]
    exact congrArg List.sum (List.map_congr_left fun t ht => h.cash_counted ht)
  calc portfolioTotal db p = netDepositSum db p := portfolioTotal_eq h.totals
    _ = openingCosts p db + cashWhere db.transactions.rows (fun t => t.portfolioId = p) := by
        unfold netDepositSum openingCosts
        rw [hassets, List.sum_map_add, sum_cashWhere, hrows]
    _ = _ := by
        rw [← deposits_sub_withdrawals]
        ring

end Settled

/-! ## Calls -/

/-- A call of the API: a request on a portfolio, or the creation of one. -/
inductive Call
  | request (r : Request)
  | createPortfolio (env : Env) (userId : ℕ) (startingBalance : Option DecimalStr)
      (assets : List SeedAsset)

def CallStep (N : Numeric) (js : Js) (db : Db) (c : Call) (db' : Db) : Prop :=
  match c with
  | .request r => Step N js db r db'
  | .createPortfolio env userId startingBalance assets =>
      ∃ p, createManualPortfolio N env userId startingBalance assets db = .ok (p, db')

/-- An asset removed from portfolio `p` leaves no transaction of its token behind. -/
def Request.RemovesClean (p : ℕ) (db : Db) (r : Request) : Prop :=
  match r.action with
  | .removeAsset key =>
      r.portfolioId = p → ∀ t ∈ db.transactions.rows, ¬ t.Touches db.tokens key
  | _ => True

def Call.Clean (N : Numeric) (p : ℕ) (db : Db) : Call → Prop
  | .request r => r.KeepsTradeOrder db ∧ r.KeepsNetDeposit N p db ∧ r.RemovesClean p db
  | .createPortfolio .. => True

/-- The call neither edits the opening lot of the asset nor removes it. -/
def Call.Spares (key : ℕ × ℕ) : Call → Prop
  | .request r => key ∉ r.edited ∧ r.action ≠ .removeAsset key
  | .createPortfolio .. => True

theorem SoundExcept.request_of_keepsNetDeposit {β : Type} {N : Numeric} {js : Js}
    {view : Derived → β} {tokens : TokenTable} {p : ℕ} {db db' : Db} {r : Request}
    (h : SoundExcept N view tokens p ∅ db) (hkeep : r.KeepsNetDeposit N p db)
    (horder : r.KeepsTradeOrder db) (hstep : Step N js db r db') :
    SoundExcept N view tokens p ∅ db' := by
  by_cases hledger : r.InLedger
  · exact h.request (.inl hledger) horder hstep
  unfold Step handle at hstep
  obtain ⟨portfolio, hportfolio, hrun⟩ := bind_eq_ok hstep
  obtain ⟨-, hid, -⟩ := ownedPortfolio_ok hportfolio
  unfold Request.InLedger at hledger
  unfold Request.KeepsNetDeposit at hkeep
  split at hledger
  · next key body haction =>
      rw [haction] at hrun hkeep
      change Ledger.updateAsset N r.env portfolio key body db = .ok db' at hrun
      unfold Ledger.updateAsset at hrun
      obtain ⟨-, -, hrun⟩ := bind_eq_ok hrun
      obtain ⟨existing, hown, hrun⟩ := bind_eq_ok hrun
      obtain ⟨hmem, hkey, hpid⟩ := findOwnAsset_ok hown
      rw [if_neg hledger] at hrun
      split at hrun
      · next netDeposit hbody =>
          obtain ⟨rfl, -⟩ := commit_ok hrun
          by_cases hp : r.portfolioId = p
          · have hfind : db.assets.find? key = some existing :=
              Table.find?_eq_some_iff.mpr ⟨hmem, hkey⟩
            have hsame := hkeep hp (by simpa using hledger) netDeposit hbody existing hfind
            have hrows := @TotalsExcept.rows_updateAssetRow_same db existing
              (fun a => { a with netDeposit := N.fix netDeposit }) (fun _ => rfl) hmem
              (by rw [hsame])
            refine ⟨h.catalog, h.manual, h.named, fun a ha => ?_⟩
            rw [hrows] at ha
            exact h.coherent a ha
          · have hwide : SoundExcept N view tokens p
                (insert (existing.portfolioId, existing.tokenId) ∅) db :=
              h.mono fun _ hmem => absurd hmem (Set.notMem_empty _)
            refine (hwide.updateAssetRow (Set.mem_insert _ _)).mono fun k hk hkp => ?_
            rcases Set.mem_insert_iff.mp hk with rfl | hk
            · exact absurd (hid.symm.trans (hpid.symm.trans hkp)) hp
            · exact hk
      · cases hrun
        exact h
  · exact absurd trivial hledger

/-- The total of a portfolio does not see another one being created. -/
theorem TotalsExcept.createOther {N : Numeric} {env : Env} {userId p p' : ℕ}
    {startingBalance : Option DecimalStr} {seeds : List SeedAsset} {db db' : Db}
    (h : TotalsExcept N p ∅ db)
    (hrun : createManualPortfolio N env userId startingBalance seeds db = .ok (p', db')) :
    TotalsExcept N p ∅ db' := by
  unfold createManualPortfolio at hrun
  obtain ⟨⟨p'', db₁⟩, hcreate, hrun⟩ := bind_eq_ok hrun
  obtain ⟨db₂, hseeds, hrun⟩ := bind_eq_ok hrun
  obtain ⟨db₃, hcommit, hrun⟩ := bind_eq_ok hrun
  cases hrun
  obtain ⟨rfl, portfolios, rfl, hrows⟩ := createPortfolio_ok hcreate
  obtain ⟨portfolio, hfound⟩ := Option.isSome_iff_exists.mp h.known
  have hkept : portfolios.find? p = some portfolio := by
    obtain ⟨hmem, hid⟩ := SerialTable.find?_eq_some_iff.mp hfound
    apply SerialTable.find?_eq_some_iff.mpr
    rw [hrows]
    exact ⟨List.mem_append_left _ hmem, hid⟩
  have hcreated : TotalsExcept N p ∅ { db with portfolios } := by
    refine ⟨h.onGrid, ?_, fun hp => ?_⟩
    · change (portfolios.find? p).isSome
      rw [hkept]
      rfl
    · change (portfolios.find? p).map Portfolio.netDeposit = some (netDepositSum db p)
      rw [hkept, ← h.total hp, hfound]
  exact (hcreated.seedAssets hseeds).commit hcommit

namespace Settled

variable {N : Numeric} {js : Js} {p : ℕ} {db db' : Db}

/-- A new portfolio is settled. -/
theorem create {env : Env} {userId : ℕ} {seeds : List SeedAsset} (hforeign : ForeignKeys db)
    (hnamed : NamedTokens db) (hgrid : ColumnsOnGrid N db)
    (hrun : createManualPortfolio N env userId none seeds db = .ok (p, db')) :
    Settled N p db' := by
  have hsound := @SoundExcept.create _ _ id _ _ _ _ _ _ _ hforeign hnamed hrun
  have hwrites := @Writes.createManualPortfolio _ ∅ _ _ _ _ _ _ _ hrun
  have hnew := createManualPortfolio_next hrun
  refine ⟨hsound.catalog ▸ hsound, hnamed.of_eq hsound.catalog,
    TotalsExcept.create hforeign.assets hrun, hwrites.rowsHeld fun t ht hp => ?_,
    hwrites.columnsOnGrid hgrid⟩
  exact absurd (hp.trans hnew) (lt_next_of_isSome (hforeign.transactions t ht)).ne

/-- A row that concerns no asset of a key keeps its asset when the key's asset goes. -/
theorem held_deleteAsset {key : ℕ × ℕ} {portfolios : PortfolioTable} (h : RowsHeld p db)
    (hclean : key.1 = p → ∀ t ∈ db.transactions.rows, ¬ t.Touches db.tokens key) :
    RowsHeld p { db.deleteAsset key with portfolios } := by
  intro t ht hp symbol hsymbol
  obtain ⟨token, htoken, hasset⟩ := h t ht hp symbol hsymbol
  refine ⟨token, htoken, ?_⟩
  have hne : (t.portfolioId, token.id) ≠ key := by
    rintro rfl
    refine hclean hp t ht ⟨token, findTokenById_of_symbol htoken, rfl, ?_⟩
    rw [hsymbol, (findTokenBySymbol_eq htoken).2]
  have hkept : (db.assets.filter fun a => a.key ≠ key).find? (t.portfolioId, token.id) =
      db.assets.find? (t.portfolioId, token.id) :=
    Table.find?_filter fun a ha => by
      rw [ha]
      exact decide_eq_true hne
  change ((db.assets.filter fun a => a.key ≠ key).find? (t.portfolioId, token.id)).isSome
  rw [hkept]
  exact hasset

/-- Every clean call keeps the portfolio settled. -/
theorem call {c : Call} (h : Settled N p db) (hstep : Guarded (CallStep N js) (Call.Clean N p) db c
    db') : Settled N p db' := by
  obtain ⟨hstep, hclean⟩ := hstep
  cases c with
  | request r =>
      obtain ⟨horder, hkeep, hremove⟩ := hclean
      have hsound := h.sound.request_of_keepsNetDeposit hkeep horder hstep
      refine ⟨hsound.catalog ▸ hsound, h.named.of_eq hsound.catalog,
        h.totals.request hkeep hstep, ?_, ?_⟩
      · rcases Writes.request hstep with ⟨key, portfolios, haction, hkey, rfl⟩ | hwrites
        · unfold Request.RemovesClean at hremove
          rw [haction] at hremove
          exact held_deleteAsset h.held fun hp => hremove (hkey.symm.trans hp)
        · exact hwrites.rowsHeld h.held
      · rcases Writes.request hstep with ⟨key, portfolios, -, -, rfl⟩ | hwrites
        · exact ⟨h.onGrid.trades, fun a ha => h.onGrid.lots a (List.mem_of_mem_filter ha)⟩
        · exact hwrites.columnsOnGrid h.onGrid
  | createPortfolio env userId startingBalance seeds =>
      obtain ⟨p', hrun⟩ := hstep
      have hsound := h.sound.createOther h.named hrun
      have hwrites := @Writes.createManualPortfolio _ ∅ _ _ _ _ _ _ _ hrun
      exact ⟨hsound.catalog ▸ hsound, h.named.of_eq hsound.catalog, h.totals.createOther hrun,
        hwrites.rowsHeld h.held, hwrites.columnsOnGrid h.onGrid⟩

theorem run {calls : List Call} (h : Settled N p db)
    (hrun : Run (Guarded (CallStep N js) (Call.Clean N p)) db calls db') : Settled N p db' :=
  hrun.invariant (fun _ _ _ hs hstep => hs.call hstep) h

end Settled

theorem tokens_of_call {N : Numeric} {js : Js} {db db' : Db} {c : Call}
    (hstep : CallStep N js db c db') : db'.tokens = db.tokens := by
  cases c with
  | request r =>
      rcases Writes.request hstep with ⟨key, portfolios, -, -, rfl⟩ | hwrites
      · rfl
      · exact hwrites.tokens_eq
  | createPortfolio env userId startingBalance seeds =>
      obtain ⟨p', hrun⟩ := hstep
      exact (@Writes.createManualPortfolio _ ∅ _ _ _ _ _ _ _ hrun).tokens_eq

theorem tokens_of_run {N : Numeric} {js : Js} {db db' : Db} {calls : List Call}
    (hrun : Run (CallStep N js) db calls db') : db'.tokens = db.tokens :=
  hrun.invariant (I := fun s => s.tokens = db.tokens)
    (fun _ _ _ hs hstep => (tokens_of_call hstep).trans hs) rfl

/-- A call that spares an asset keeps its row and its opening lot. -/
theorem lot_kept_of_spares {N : Numeric} {js : Js} {p tokenId : ℕ} {db db' : Db} {c : Call}
    {a : Asset} (hstep : CallStep N js db c db') (hspares : c.Spares (p, tokenId))
    (hfind : db.findAsset p tokenId = some a) :
    ∃ a', db'.findAsset p tokenId = some a' ∧ a'.lot = a.lot := by
  cases c with
  | request r =>
      obtain ⟨hlot, hremove⟩ := hspares
      rcases Writes.request hstep with ⟨key, portfolios, haction, -, rfl⟩ | hwrites
      · refine ⟨a, ?_, rfl⟩
        rw [← hfind]
        refine Table.find?_filter fun b hb => ?_
        rw [hb]
        refine decide_eq_true fun hkey => hremove ?_
        rw [haction, hkey]
      · obtain ⟨a', hfind', hkept⟩ := hwrites.findAsset_kept hfind
        exact ⟨a', hfind', hkept hlot⟩
  | createPortfolio env userId startingBalance seeds =>
      obtain ⟨p', hrun⟩ := hstep
      obtain ⟨a', hfind', hkept⟩ :=
        (@Writes.createManualPortfolio _ ∅ _ _ _ _ _ _ _ hrun).findAsset_kept hfind
      exact ⟨a', hfind', hkept (Set.notMem_empty _)⟩

theorem lot_kept_of_run {N : Numeric} {js : Js} {p tokenId : ℕ} {db db' : Db}
    {calls : List Call} {a : Asset}
    (hrun : Run (Guarded (CallStep N js) fun s c => c.Clean N p s ∧ c.Spares (p, tokenId)) db calls
      db') (hfind : db.findAsset p tokenId = some a) :
    ∃ a', db'.findAsset p tokenId = some a' ∧ a'.lot = a.lot := by
  refine hrun.invariant (I := fun s => ∃ a', s.findAsset p tokenId = some a' ∧ a'.lot = a.lot)
    (fun s c t hs hstep => ?_) ⟨a, hfind, rfl⟩
  obtain ⟨b, hb, hlot⟩ := hs
  obtain ⟨b', hb', hlot'⟩ := lot_kept_of_spares hstep.1 hstep.2.2 hb
  exact ⟨b', hb', hlot'.trans hlot⟩

/-- `addAsset` opens the lot of its body and writes no transaction. -/
theorem addAsset_ok {N : Numeric} {userId : ℕ} {env : Env} {portfolio : Portfolio}
    {body : CreateAssetBody} {db db' : Db}
    (h : addAsset N userId env portfolio body db = .ok db') :
    ∃ opening token a, db.findTokenById body.tokenId = some token ∧
      db.findAsset portfolio.id body.tokenId = none ∧
      resolveOpeningCost N env db body.tokenId body.balance body.cost = some opening ∧
      db'.findAsset portfolio.id body.tokenId = some a ∧
      a.lot = (openingAsset N portfolio.id body.tokenId body.balance opening).lot ∧
      db'.transactions = db.transactions := by
  unfold addAsset at h
  obtain ⟨-, -, h⟩ := bind_eq_ok h
  obtain ⟨-, -, h⟩ := bind_eq_ok h
  obtain ⟨token, htoken, h⟩ := bind_eq_ok h
  obtain ⟨-, -, h⟩ := bind_eq_ok h
  obtain ⟨_, hfree, h⟩ := bind_eq_ok h
  obtain ⟨opening, hopening, h⟩ := bind_eq_ok h
  obtain ⟨db₁, hcreate, h⟩ := bind_eq_ok h
  obtain ⟨rfl, -⟩ := commit_ok h
  have hfind : db₁.findAsset portfolio.id body.tokenId =
      some (openingAsset N portfolio.id body.tokenId body.balance opening) := by
    obtain ⟨assets, rfl, hrows, -⟩ := createAsset_ok hcreate
    refine Table.find?_eq_some_iff.mpr ⟨?_, rfl⟩
    change _ ∈ assets.rows
    rw [hrows]
    exact List.mem_append_right _ List.mem_cons_self
  have hsettled : Writes N ∅ db₁ (recalcPortfolioNetDeposit N portfolio.id
      (recalcAssetBalance N portfolio.id body.tokenId db₁)) :=
    (@Writes.recalcAsset N ∅ db₁ portfolio.id body.tokenId).trans Writes.recalcTotal
  obtain ⟨a, ha, hlot⟩ := hsettled.findAsset_kept hfind
  refine ⟨opening, token, a, require_ok htoken, ensure_ok hfree, require_ok hopening, ha,
    hlot (Set.notMem_empty _), ?_⟩
  rw [transactions_recalcPortfolioNetDeposit, transactions_recalcAssetBalance,
    transactions_createAsset hcreate]

/-- A token without an asset has no events in a settled portfolio. -/
theorem Settled.ledgerEvents_eq_nil {N : Numeric} {p : ℕ} {db : Db} {token : Token}
    (h : Settled N p db) (htoken : db.findTokenById token.id = some token)
    (hfree : db.findAsset p token.id = none) : ledgerEvents db p token.symbol = [] := by
  rw [List.eq_nil_iff_forall_not_mem]
  intro e he
  obtain ⟨t, ht, -, ⟨hp, hsymbol⟩, -⟩ := row_of_event (mem_ledgerEvents.mp he)
  obtain ⟨token', htoken', hasset⟩ := h.held t ht hp _ hsymbol
  rw [findTokenBySymbol_of_id htoken] at htoken'
  cases htoken'
  rw [hp, hfree] at hasset
  cases hasset

/-! ## Removal and return -/

/-- The columns of an asset that a removal is about. -/
def bookedColumns (d : Derived) : ℚ × ℚ × ℚ := (d.balance, d.netDeposit, d.costBasis)

/-- The events of a token that were not there yet in an earlier state. -/
def enteredSince (before db : Db) (p : ℕ) (symbol : String) : List LedgerEvent :=
  (ledgerEvents db p symbol).filter fun e =>
    e.id ∉ (ledgerEvents before p symbol).map LedgerEvent.id

/-- The contribution of an asset is gone from the total, and the token comes back with its new
lot and the transactions entered since. -/
structure RemovesContribution (N : Numeric) (js : Js) (p tokenId : ℕ) (removed : Db) : Prop where
  total : portfolioTotal removed p =
    openingCosts p removed + (getDepositWithdrawalTotals p removed).totalDeposits -
      (getDepositWithdrawalTotals p removed).totalWithdrawals
  comesBack : ∀ {between after : List Call} {before readded db : Db} {r : Request}
    {body : CreateAssetBody},
    Run (Guarded (CallStep N js) (Call.Clean N p)) removed between before →
    r.portfolioId = p → r.action = .addAsset body → body.tokenId = tokenId →
    Step N js before r readded →
    Run (Guarded (CallStep N js) fun s c => c.Clean N p s ∧ c.Spares (p, tokenId)) readded after
      db →
    ∃ opening token a, before.findTokenById tokenId = some token ∧
      resolveOpeningCost N r.env before tokenId body.balance body.cost = some opening ∧
      db.findAsset p tokenId = some a ∧
      bookedColumns a.derived = bookedColumns
        ((replay (openingAsset N p tokenId body.balance opening)
          (enteredSince readded db p token.symbol)).stored N)

/-- A purchase of 1 ETH at 100 that is deleted again. -/
def boughtAndDeleted (p : ℕ) : List Request :=
  openingRequests p ++ [⟨1, p, sampleEnv, .deleteTransaction 1⟩]

def ethRemoval (p : ℕ) : Request := ⟨1, p, sampleEnv, .removeAsset (p, 1)⟩

/-- 2 ETH at 50 each. -/
def ethReturn (p : ℕ) : Request :=
  ⟨1, p, sampleEnv, .addAsset ⟨1, ⟨2, by norm_num⟩, .avg ⟨50, by norm_num⟩⟩⟩

end Neonfi.Ledger

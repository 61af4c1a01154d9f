import Neonfi.Ledger.History
import Neonfi.Lib.AverageCost

/-!
# Transfers and profit

A transfer takes units out of the source at their average cost and brings them into the
destination at their share of the source's net deposit.  Whether the two agree decides
whether the transfer keeps the cost basis and the profit of the two holdings together.
-/

namespace Neonfi.Ledger

open Lib

/-! ## The fold over lots of known cost -/

/-- The totals of a position all of whose units have a known cost. -/
structure Totals.Tracks (s : Totals) (p : Position ℚ) : Prop where
  qty : s.qty = p.qty
  costKnownQty : s.costKnownQty = p.qty
  totalCost : s.totalCost = p.cost

namespace Totals.Tracks

variable {s : Totals} {p : Position ℚ}

theorem avg?_eq (h : s.Tracks p) (hpos : 0 < p.qty) : s.avg? = some p.unitCost := by
  unfold Totals.avg?
  rw [h.costKnownQty, h.totalCost, if_pos hpos, Position.unitCost]

theorem avg?_eq_none (h : s.Tracks p) (hzero : p.qty = 0) : s.avg? = none := by
  unfold Totals.avg?
  rw [h.costKnownQty, hzero, if_neg (lt_irrefl 0)]

theorem buy (h : s.Tracks p) {amount usd : ℚ} (hpos : 0 < amount) :
    (s.buy amount usd).Tracks (p.add amount usd hpos) where
  qty := congrArg (· + amount) h.qty
  costKnownQty := congrArg (· + amount) h.costKnownQty
  totalCost := congrArg (· + usd) h.totalCost

/-- A sell that the position covers takes the units out at their average cost. -/
theorem sell (h : s.Tracks p) {amount usd : ℚ} {isTransfer : Bool} (hpos : 0 < amount)
    (hle : amount ≤ p.qty) :
    (s.sell amount usd isTransfer).Tracks (p.remove amount hpos hle) := by
  have havg := h.avg?_eq (hpos.trans_le hle)
  have hsold : min amount s.costKnownQty = amount := by
    rw [h.costKnownQty]
    exact min_eq_left hle
  unfold Totals.sell
  rw [havg]
  refine ⟨?_, ?_, ?_⟩
  · show s.qty - amount = p.qty - amount
    rw [h.qty]
  · show s.costKnownQty - min amount s.costKnownQty = p.qty - amount
    rw [hsold, h.costKnownQty]
  · show s.totalCost - min amount s.costKnownQty * p.unitCost = p.cost - amount * p.unitCost
    rw [hsold, h.totalCost]

theorem realized_transfer (h : s.Tracks p) {amount usd : ℚ} (hpos : 0 < amount)
    (hle : amount ≤ p.qty) : (s.sell amount usd true).realized = s.realized := by
  unfold Totals.sell
  rw [h.avg?_eq (hpos.trans_le hle)]
  rfl

end Totals.Tracks

/-- No sell of the events exceeds the quantity of known cost it meets. -/
def Covered : Totals → List LedgerEvent → Prop
  | _, [] => True
  | s, e :: events => (e.dir = .sell → e.amount ≤ s.costKnownQty) ∧ Covered (s.step e) events

theorem exists_tracks_of_covered {events : List LedgerEvent} {s : Totals} {p : Position ℚ}
    (hamount : ∀ e ∈ events, 0 < e.amount) (hcovered : Covered s events) (h : s.Tracks p) :
    ∃ p', (events.foldl Totals.step s).Tracks p' := by
  induction events generalizing s p with
  | nil => exact ⟨p, h⟩
  | cons e events ih =>
      obtain ⟨hsell, hrest⟩ := hcovered
      have hpos := hamount e List.mem_cons_self
      have hstep : ∃ p', (s.step e).Tracks p' := by
        unfold Totals.step
        cases hdir : e.dir with
        | buy => exact ⟨_, h.buy hpos⟩
        | sell => exact ⟨_, h.sell hpos (h.costKnownQty ▸ hsell hdir)⟩
        | transfer => exact ⟨p, h⟩
      obtain ⟨p', hp'⟩ := hstep
      exact ih (fun x hx => hamount x (List.mem_cons_of_mem _ hx)) hrest hp'

/-- The opening lot is empty or has a cost. -/
def Asset.KnownLot (a : Asset) : Prop :=
  if a.openingCostBasis.isSome then 0 < a.openingBalance else a.openingBalance = 0

theorem Asset.KnownLot.tracks {a : Asset} (h : a.KnownLot) :
    ∃ p, (Totals.opening a.openingBalance a.openingCostBasis).Tracks p := by
  unfold Asset.KnownLot at h
  cases hbasis : a.openingCostBasis with
  | none =>
      rw [hbasis] at h
      have hzero : a.openingBalance = 0 := by simpa using h
      exact ⟨.empty, hzero, rfl, rfl⟩
  | some basis =>
      rw [hbasis] at h
      have hpos : 0 < a.openingBalance := by simpa using h
      refine ⟨Position.empty.add a.openingBalance basis hpos, ?_, ?_, ?_⟩
      · simp [Totals.opening]
      · simp [Totals.opening]
      · simp [Totals.opening]

/-! ## What a holding shows -/

/-- The derived columns of a holding; without a row there is nothing. -/
def holding (db : Db) (portfolioId tokenId : ℕ) : Derived :=
  ((db.findAsset portfolioId tokenId).map Asset.derived).getD ⟨0, 0, 0, none, 0⟩

def Derived.unrealizedPnlValue (d : Derived) (price : ℚ) : ℚ :=
  match d.avgCost with
  | some avgCost => d.balance * (price - avgCost)
  | none => 0

def Derived.allTimePnlValue (d : Derived) (price : ℚ) : ℚ :=
  d.unrealizedPnlValue price + d.realizedPnl

/-- The columns the profit of a holding is computed from. -/
def Derived.pnlColumns (d : Derived) : Derived := { d with netDeposit := 0 }

theorem pnlColumns_eq_iff {d d' : Derived} :
    d.pnlColumns = d'.pnlColumns ↔ d.balance = d'.balance ∧ d.realizedPnl = d'.realizedPnl ∧
      d.avgCost = d'.avgCost ∧ d.costBasis = d'.costBasis := by
  simp [Derived.pnlColumns]

theorem unrealizedPnlValue_of_tracks {d : Derived} {s : Totals} {p : Position ℚ}
    (h : s.Tracks p) (hd : d.pnlColumns = (s.stored Numeric.exact).pnlColumns) (price : ℚ) :
    d.unrealizedPnlValue price = p.gain price := by
  obtain ⟨hbalance, -, havg, -⟩ := pnlColumns_eq_iff.mp hd
  have hstored : (s.stored Numeric.exact).avgCost = s.avg? := by
    show s.avg?.map Numeric.exact.fix = s.avg?
    cases s.avg? <;> rfl
  unfold Derived.unrealizedPnlValue
  rw [havg, hstored]
  rcases p.qty_nonneg.eq_or_lt with hzero | hpos
  · rw [h.avg?_eq_none hzero.symm, p.gain_of_qty_eq_zero price hzero.symm]
  · rw [h.avg?_eq hpos, p.gain_eq_mul price hpos]
    show d.balance * _ = _
    rw [hbalance]
    show s.qty * _ = _
    rw [h.qty]

/-- Both holdings together keep their cost and their profit. -/
structure Conserved (db db' : Db) (source dest tokenId : ℕ) : Prop where
  costBasis : (holding db' source tokenId).costBasis + (holding db' dest tokenId).costBasis =
    (holding db source tokenId).costBasis + (holding db dest tokenId).costBasis
  realizedPnl : (holding db' source tokenId).realizedPnl + (holding db' dest tokenId).realizedPnl =
    (holding db source tokenId).realizedPnl + (holding db dest tokenId).realizedPnl
  allTimePnlValue : ∀ price,
    (holding db' source tokenId).allTimePnlValue price +
        (holding db' dest tokenId).allTimePnlValue price =
      (holding db source tokenId).allTimePnlValue price +
        (holding db dest tokenId).allTimePnlValue price

/-! ## The lots of a holding -/

/-- The opening lot, all of an asset row that its replay reads. -/
def Asset.lot (a : Asset) : ℚ × Option ℚ := (a.openingBalance, a.openingCostBasis)

theorem replay_congr_lot {a b : Asset} (h : a.lot = b.lot) (events : List LedgerEvent) :
    replay a events = replay b events := by
  obtain ⟨hbalance, hbasis⟩ := Prod.ext_iff.mp h
  unfold replay
  rw [show a.openingBalance = b.openingBalance from hbalance,
    show a.openingCostBasis = b.openingCostBasis from hbasis]

/-- The asset row of a token, or the one a first buy creates. -/
def heldAsset (db : Db) (portfolioId tokenId : ℕ) : Asset :=
  (db.findAsset portfolioId tokenId).getD (emptyAsset portfolioId tokenId)

theorem lot_recalcAssetBalance {N : Numeric} {portfolioId tokenId p t : ℕ} {db : Db} :
    ((recalcAssetBalance N portfolioId tokenId db).findAsset p t).map Asset.lot =
      (db.findAsset p t).map Asset.lot := by
  unfold recalcAssetBalance
  split
  · rfl
  · split
    · rfl
    · unfold Db.updateAssetRow Db.findAsset
      rw [Table.find?_modify, Option.map_map]
      congr 1
      funext a
      simp only [Function.comp_apply]
      split <;> rfl

theorem findAsset_createIfNeeded {portfolioId tokenId : ℕ} {db db' : Db}
    (h : createIfNeeded (db.findAsset portfolioId tokenId).isNone portfolioId tokenId db =
      .ok db') :
    db'.findAsset portfolioId tokenId = some (heldAsset db portfolioId tokenId) ∧
      ∀ p t, (p, t) ≠ (portfolioId, tokenId) → db'.findAsset p t = db.findAsset p t := by
  unfold createIfNeeded at h
  cases hfind : db.findAsset portfolioId tokenId with
  | some a =>
      rw [hfind] at h
      cases h
      exact ⟨by rw [hfind, heldAsset, hfind, Option.getD_some], fun _ _ _ => rfl⟩
  | none =>
      rw [hfind] at h
      obtain ⟨assets, rfl, hrows, -⟩ := createAsset_ok h
      constructor
      · rw [heldAsset, hfind, Option.getD_none]
        refine Table.find?_eq_some_iff.mpr ⟨?_, rfl⟩
        show _ ∈ assets.rows
        rw [hrows]
        exact List.mem_append_right _ List.mem_cons_self
      · intro p t hne
        show assets.find? (p, t) = db.assets.find? (p, t)
        ext a
        rw [Table.find?_eq_some_iff, Table.find?_eq_some_iff, hrows, List.mem_append,
          List.mem_singleton]
        constructor
        · rintro ⟨hmem | rfl, hkey⟩
          · exact ⟨hmem, hkey⟩
          · exact absurd hkey.symm hne
        · rintro ⟨hmem, hkey⟩
          exact ⟨.inl hmem, hkey⟩

/-! ## What a transfer does -/

/-- The event of a leg. -/
def legEvent (N : Numeric) (env : Env) (body : TransferBody) (direction : Direction)
    (usdValue : ℚ) (id : ℕ) : LedgerEvent where
  dir := direction
  amount := N.fix body.amount
  usd := usdValue
  isTransfer := true
  ts := body.timestamp.getD env.now
  id := id

theorem resolveDest_ok {source dest : Portfolio} {destPortfolioId : ℕ} {db : Db}
    (h : resolveDest source destPortfolioId db = .ok dest) :
    dest.id = destPortfolioId ∧ dest.id ≠ source.id := by
  unfold resolveDest at h
  obtain ⟨dest', hfind, h⟩ := bind_eq_ok h
  obtain ⟨_, -, h⟩ := bind_eq_ok h
  obtain ⟨_, hne, h⟩ := bind_eq_ok h
  obtain ⟨_, -, h⟩ := bind_eq_ok h
  cases h
  exact ⟨(SerialTable.find?_eq_some_iff.mp (require_ok hfind)).2, ensure_ok hne⟩

theorem lockTransferSource_ok {sourceId tokenId : ℕ} {amount : ℚ} {db : Db} {a : Asset}
    (h : lockTransferSource sourceId tokenId amount db = .ok a) :
    db.findAsset sourceId tokenId = some a ∧ amount ≤ a.balance := by
  unfold lockTransferSource at h
  obtain ⟨a', hfind, h⟩ := bind_eq_ok h
  obtain ⟨_, hle, h⟩ := bind_eq_ok h
  cases h
  exact ⟨require_ok hfind, ensure_ok hle⟩

/-- A transfer keeps both opening lots and appends one event to each history, when no event
of either is later than it. -/
theorem createCrossPortfolioTransfer_ok {N : Numeric} {env : Env} {source : Portfolio}
    {body : TransferBody} {token : Token} {db db' : Db}
    (htoken : db.findTokenBySymbol body.symbol = some token)
    (hsourceTs : ∀ e ∈ ledgerEvents db source.id token.symbol,
      e.ts ≤ body.timestamp.getD env.now)
    (hdestTs : ∀ e ∈ ledgerEvents db body.destPortfolioId token.symbol,
      e.ts ≤ body.timestamp.getD env.now)
    (hrun : createCrossPortfolioTransfer N env source body db = .ok db') :
    ∃ a usdValue sellId buyId, db.findAsset source.id token.id = some a ∧
      body.amount.val ≤ a.balance ∧
      usdValue = N.fix (body.amount * a.netDeposit / a.balance) ∧
      (db'.findAsset source.id token.id).map Asset.lot = some a.lot ∧
      (db'.findAsset body.destPortfolioId token.id).map Asset.lot =
        some (heldAsset db body.destPortfolioId token.id).lot ∧
      ledgerEvents db' source.id token.symbol =
        ledgerEvents db source.id token.symbol ++ [legEvent N env body .sell usdValue sellId] ∧
      ledgerEvents db' body.destPortfolioId token.symbol =
        ledgerEvents db body.destPortfolioId token.symbol ++
          [legEvent N env body .buy usdValue buyId] := by
  unfold createCrossPortfolioTransfer at hrun
  obtain ⟨_, -, hrun⟩ := bind_eq_ok hrun
  obtain ⟨dest, hdest, hrun⟩ := bind_eq_ok hrun
  obtain ⟨token', htoken', hrun⟩ := bind_eq_ok hrun
  obtain ⟨a, hlock, hrun⟩ := bind_eq_ok hrun
  obtain ⟨db₁, hcreate, hrun⟩ := bind_eq_ok hrun
  obtain ⟨db₂, hsell, hrun⟩ := bind_eq_ok hrun
  obtain ⟨db₃, hbuy, hrun⟩ := bind_eq_ok hrun
  obtain rfl : token = token' := Option.some.inj (htoken.symm.trans (require_ok htoken'))
  obtain ⟨hid, hne⟩ := resolveDest_ok hdest
  obtain ⟨hfind, hle⟩ := lockTransferSource_ok hlock
  have hsymbol := (findTokenBySymbol_eq htoken).2
  rw [hsymbol] at hsourceTs hdestTs ⊢
  rw [← hid] at hdestTs ⊢
  obtain ⟨hheld, hothers⟩ := findAsset_createIfNeeded hcreate
  have hrows := transactions_createIfNeeded hcreate
  have hevents : ∀ p, ledgerEvents db₁ p body.symbol = ledgerEvents db p body.symbol := by
    intro p
    apply ledgerEvents_congr
    rw [hrows]
  have hsold := ledgerEvents_createTransactionRow hsell rfl
    fun x hx => hsourceTs x (hevents source.id ▸ hx)
  have hdestKept := @ledgerEvents_createTransactionRow_of_ne _ _ _ dest.id body.symbol hsell fun h
      => hne h.1.symm
  have hbought := ledgerEvents_createTransactionRow hbuy rfl
    fun x hx => hdestTs x (hevents dest.id ▸ hdestKept ▸ hx)
  have hsourceKept := @ledgerEvents_createTransactionRow_of_ne _ _ _ source.id body.symbol hbuy fun
      h => hne h.1
  have hassets : db₃.assets = db₁.assets := by
    obtain ⟨_, rfl, -⟩ := createTransactionRow_ok hbuy
    obtain ⟨_, rfl, -⟩ := createTransactionRow_ok hsell
    rfl
  have hlot : ∀ p, (db'.findAsset p token.id).map Asset.lot =
      (db₁.findAsset p token.id).map Asset.lot := by
    intro p
    rw [(commit_ok hrun).1]
    show ((recalcAssetBalance N dest.id token.id _).findAsset p token.id).map Asset.lot = _
    rw [lot_recalcAssetBalance]
    show ((recalcAssetBalance N source.id token.id db₃).findAsset p token.id).map Asset.lot = _
    rw [lot_recalcAssetBalance]
    unfold Db.findAsset
    rw [hassets]
  have hsettled : ∀ p, ledgerEvents db' p body.symbol = ledgerEvents db₃ p body.symbol := by
    intro p
    apply ledgerEvents_congr
    rw [(commit_ok hrun).1]
    simp
  refine ⟨a, _, db₁.transactions.next, db₂.transactions.next, hfind, hle, rfl, ?_, ?_, ?_, ?_⟩
  · have hother := hothers source.id token.id fun h => hne (congrArg Prod.fst h).symm
    rw [hlot, hother, hfind, Option.map_some]
  · rw [hlot, hheld, Option.map_some]
  · rw [hsettled, hsourceKept]
    exact hsold.trans (congrArg (· ++ _) (hevents source.id))
  · rw [hsettled]
    refine hbought.trans (congrArg (· ++ _) ?_)
    exact hdestKept.trans (hevents dest.id)

/-! ## When a transfer conserves -/

/-- Native and erc20 rows of the portfolio move a positive amount. -/
def PositiveAmounts (p : ℕ) (t : TransactionData) : Prop :=
  t.portfolioId = p → ∀ d, t.detail.trade? = some d → 0 < d.amount

theorem rowClosed_positiveAmounts (p : ℕ) : RowClosed Numeric.exact (PositiveAmounts p) :=
  rowClosed_amounts fun _ hpos => hpos

theorem amount_pos_of_event {db : Db} {p : ℕ} {symbol : String} {e : LedgerEvent}
    (h : AllRows (PositiveAmounts p) db) (he : e ∈ ledgerEvents db p symbol) : 0 < e.amount := by
  obtain ⟨t, ht, d, hp, -, hd, htrade⟩ := row_of_event (mem_ledgerEvents.mp he)
  have hamount : e.amount = d.amount := congrArg Trade.amount htrade
  rw [hamount]
  exact h t ht hp.1 d hd

/-- Every lot of the holding has a known cost, and no sell of it took more. -/
structure CostKnown (db : Db) (portfolioId : ℕ) (token : Token) : Prop where
  lot : (heldAsset db portfolioId token.id).KnownLot
  covered : Covered
    (Totals.opening (heldAsset db portfolioId token.id).openingBalance
      (heldAsset db portfolioId token.id).openingCostBasis)
    (ledgerEvents db portfolioId token.symbol)

/-- The replay of a holding. -/
def heldTotals (db : Db) (portfolioId : ℕ) (token : Token) : Totals :=
  replay (heldAsset db portfolioId token.id) (ledgerEvents db portfolioId token.symbol)

theorem CostKnown.tracks {db : Db} {p : ℕ} {token : Token} (h : CostKnown db p token)
    (hamounts : AllRows (PositiveAmounts p) db) :
    ∃ pos, (heldTotals db p token).Tracks pos := by
  obtain ⟨pos, hpos⟩ := h.lot.tracks
  exact exists_tracks_of_covered (fun e he => amount_pos_of_event hamounts he) h.covered hpos

/-- Rows of the token that outlived a removed asset bring nothing back. -/
def NothingLeftOver (db : Db) (portfolioId : ℕ) (token : Token) : Prop :=
  db.findAsset portfolioId token.id = none →
    (heldTotals db portfolioId token).qty = 0 ∧ (heldTotals db portfolioId token).realized = 0

theorem pnlColumns_holding {db : Db} {tokens : TokenTable} {p : ℕ} {token : Token} {a : Asset}
    (h : SoundExcept Numeric.exact Derived.pnlColumns tokens p ∅ db)
    (htoken : db.findTokenById token.id = some token)
    (hfind : db.findAsset p token.id = some a) :
    (holding db p token.id).pnlColumns =
      ((replay a (ledgerEvents db p token.symbol)).stored Numeric.exact).pnlColumns := by
  obtain ⟨hmem, hkey⟩ := Table.find?_eq_some_iff.mp hfind
  have hp : a.portfolioId = p := congrArg Prod.fst hkey
  have hid : a.tokenId = token.id := congrArg Prod.snd hkey
  obtain ⟨token', htoken', hview⟩ := h.coherent a hmem hp (Set.notMem_empty _)
  rw [hid, htoken] at htoken'
  cases htoken'
  rw [hp] at hview
  rw [holding, hfind]
  exact hview

/-- What a holding shows when its columns are those of a position of known cost. -/
theorem shows_of_tracks {d : Derived} {s : Totals} {pos : Position ℚ} (h : s.Tracks pos)
    (hd : d.pnlColumns = (s.stored Numeric.exact).pnlColumns) :
    d.balance = pos.qty ∧ d.costBasis = pos.cost ∧ d.realizedPnl = s.realized ∧
      ∀ price, d.allTimePnlValue price = pos.gain price + s.realized := by
  obtain ⟨hbalance, hrealized, -, hcost⟩ := pnlColumns_eq_iff.mp hd
  have hrealized' : d.realizedPnl = s.realized := hrealized
  refine ⟨hbalance.trans h.qty, hcost.trans h.totalCost, hrealized', fun price => ?_⟩
  rw [Derived.allTimePnlValue, unrealizedPnlValue_of_tracks h hd, hrealized']

/-- The share of the net deposit is the average cost exactly when the two totals agree. -/
theorem share_eq_unitCost_iff (p : Position ℚ) {x netDeposit : ℚ} (hx : 0 < x)
    (hle : x ≤ p.qty) : x * netDeposit / p.qty = x * p.unitCost ↔ netDeposit = p.cost := by
  have hqty : p.qty ≠ 0 := (hx.trans_le hle).ne'
  rw [Position.unitCost, ← mul_div_assoc, div_left_inj' hqty, mul_right_inj' hx.ne']

section State

variable {env : Env} {source : Portfolio} {body : TransferBody} {token : Token} {db db' : Db}

/-- From a coherent state, a transfer conserves cost and profit exactly when the source's
net deposit is its cost basis and no rows of a removed asset wait in the destination. -/
theorem conserved_iff_of_sound
    (hsource : SoundExcept Numeric.exact Derived.pnlColumns db.tokens source.id ∅ db)
    (hdest : SoundExcept Numeric.exact Derived.pnlColumns db.tokens body.destPortfolioId ∅ db)
    (hsourceRows : AllRows (PositiveAmounts source.id) db)
    (hdestRows : AllRows (PositiveAmounts body.destPortfolioId) db)
    (htoken : db.findTokenBySymbol body.symbol = some token)
    (hsourceKnown : CostKnown db source.id token)
    (hdestKnown : CostKnown db body.destPortfolioId token)
    (hsourceTs : ∀ e ∈ ledgerEvents db source.id token.symbol,
      e.ts ≤ body.timestamp.getD env.now)
    (hdestTs : ∀ e ∈ ledgerEvents db body.destPortfolioId token.symbol,
      e.ts ≤ body.timestamp.getD env.now)
    (hrun : createCrossPortfolioTransfer Numeric.exact env source body db = .ok db') :
    Conserved db db' source.id body.destPortfolioId token.id ↔
      NothingLeftOver db body.destPortfolioId token ∧
        (holding db source.id token.id).netDeposit =
          (holding db source.id token.id).costBasis := by
  have hid := findTokenById_of_symbol htoken
  obtain ⟨a, usdValue, sellId, buyId, hfind, hle, husd, hlotS, hlotD, heventsS, heventsD⟩ :=
    createCrossPortfolioTransfer_ok htoken hsourceTs hdestTs hrun
  have hsource' := hsource.createCrossPortfolioTransfer hrun
  have hdest' := hdest.createCrossPortfolioTransfer hrun
  obtain ⟨a', hfind', hlotA⟩ := Option.map_eq_some_iff.mp hlotS
  obtain ⟨b', hfindD', hlotB⟩ := Option.map_eq_some_iff.mp hlotD
  have hid' : db'.findTokenById token.id = some token := by
    unfold Db.findTokenById
    rw [hsource'.catalog]
    exact hid
  -- The four holdings, each with its position.
  obtain ⟨p, hp⟩ := hsourceKnown.tracks hsourceRows
  obtain ⟨q, hq⟩ := hdestKnown.tracks hdestRows
  have hheld : heldAsset db source.id token.id = a := by rw [heldAsset, hfind, Option.getD_some]
  have hbefore := pnlColumns_holding hsource hid hfind
  rw [← hheld] at hbefore
  obtain ⟨hbalance, hcostS, hrealizedS, hpnlS⟩ := shows_of_tracks hp hbefore
  have hx : 0 < body.amount.val := body.amount.property.1
  have hqty : a.balance = p.qty := by
    rw [← hbalance, holding, hfind]
    rfl
  have hxle : body.amount.val ≤ p.qty := hqty ▸ hle
  have hsold : (holding db' source.id token.id).pnlColumns =
      (((heldTotals db source.id token).sell body.amount usdValue true).stored
        Numeric.exact).pnlColumns := by
    rw [pnlColumns_holding hsource' hid' hfind', replay_congr_lot hlotA, heventsS, ← hheld]
    unfold replay
    rw [List.foldl_append]
    rfl
  have hbought : (holding db' body.destPortfolioId token.id).pnlColumns =
      (((heldTotals db body.destPortfolioId token).buy body.amount usdValue).stored
        Numeric.exact).pnlColumns := by
    rw [pnlColumns_holding hdest' hid' hfindD', replay_congr_lot hlotB, heventsD]
    unfold replay
    rw [List.foldl_append]
    rfl
  obtain ⟨-, hcostS', hrealizedS', hpnlS'⟩ := shows_of_tracks (hp.sell hx hxle) hsold
  obtain ⟨-, hcostD', hrealizedD', hpnlD'⟩ := shows_of_tracks (hq.buy hx) hbought
  rw [hp.realized_transfer hx hxle] at hrealizedS' hpnlS'
  have hcost := Position.cost_move p q (c := usdValue) hx hxle
  have hgain := Position.gain_move p q (c := usdValue) hx hxle
  have hshare : usdValue = body.amount * p.unitCost ↔
      (holding db source.id token.id).netDeposit = (holding db source.id token.id).costBasis := by
    have husd' : usdValue = body.amount * a.netDeposit / p.qty := by
      rw [husd, hqty]
      rfl
    rw [husd', share_eq_unitCost_iff p hx hxle, hcostS, holding, hfind]
    rfl
  rw [← hshare]
  cases hfindD : db.findAsset body.destPortfolioId token.id with
  | some b =>
      have hheldD : heldAsset db body.destPortfolioId token.id = b := by
        rw [heldAsset, hfindD, Option.getD_some]
      have hbeforeD := pnlColumns_holding hdest hid hfindD
      rw [← hheldD] at hbeforeD
      obtain ⟨-, hcostD, hrealizedD, hpnlD⟩ := shows_of_tracks hq hbeforeD
      constructor
      · intro h
        have hsum := h.costBasis
        rw [hcostS', hcostD', hcostS, hcostD] at hsum
        refine ⟨fun hnone => ?_, by linarith⟩
        rw [hfindD] at hnone
        cases hnone
      · rintro ⟨-, hunit⟩
        refine ⟨?_, ?_, fun price => ?_⟩
        · rw [hcostS', hcostD', hcostS, hcostD]
          linarith
        · rw [hrealizedS', hrealizedD', hrealizedS, hrealizedD]
          rfl
        · rw [hpnlS', hpnlD', hpnlS, hpnlD]
          have hprice := hgain price
          show _ + _ + (_ + (heldTotals db body.destPortfolioId token).realized) = _
          linarith
  | none =>
      have hnothing : holding db body.destPortfolioId token.id = ⟨0, 0, 0, none, 0⟩ := by
        rw [holding, hfindD]
        rfl
      have hzero : ∀ price, (⟨0, 0, 0, none, 0⟩ : Derived).allTimePnlValue price = 0 := by
        intro price
        simp [Derived.allTimePnlValue, Derived.unrealizedPnlValue]
      constructor
      · intro h
        have hrealized := h.realizedPnl
        rw [hrealizedS', hrealizedD', hrealizedS, hnothing] at hrealized
        have hleft : (heldTotals db body.destPortfolioId token).realized = 0 := by
          change _ + (heldTotals db body.destPortfolioId token).realized = _ + 0 at hrealized
          linarith
        have hprice : ∀ price, q.gain price = usdValue - body.amount * p.unitCost := by
          intro price
          have hpnl := h.allTimePnlValue price
          rw [hpnlS', hpnlD', hpnlS, hnothing, hzero] at hpnl
          change _ + _ + (_ + (heldTotals db body.destPortfolioId token).realized) = _ at hpnl
          have hmoved := hgain price
          linarith
        have hq0 : q.qty = 0 := by
          have hat0 := hprice 0
          have hat1 := hprice 1
          unfold Position.gain at hat0 hat1
          linarith
        have hat0 := hprice 0
        rw [q.gain_of_qty_eq_zero 0 hq0] at hat0
        exact ⟨fun _ => ⟨hq.qty.trans hq0, hleft⟩, by linarith⟩
      · rintro ⟨hleft, hunit⟩
        obtain ⟨hqty0, hrealized0⟩ := hleft hfindD
        have hq0 : q.qty = 0 := hq.qty.symm.trans hqty0
        have hcost0 := q.cost_of_empty hq0
        refine ⟨?_, ?_, fun price => ?_⟩
        · rw [hcostS', hcostD', hcostS, hnothing]
          show _ = p.cost + 0
          linarith
        · rw [hrealizedS', hrealizedD', hrealizedS, hnothing]
          show _ + (heldTotals db body.destPortfolioId token).realized = _ + 0
          rw [hrealized0]
        · rw [hpnlS', hpnlD', hpnlS, hnothing, hzero]
          have hmoved := hgain price
          rw [q.gain_of_qty_eq_zero price hq0] at hmoved
          show _ + _ + (_ + (heldTotals db body.destPortfolioId token).realized) = _
          linarith

end State

/-- In every history of two manual portfolios whose lots of the token have known cost and
cover their sells, a transfer that no trade of the token is later than conserves cost and
profit exactly when the source's net deposit is its cost basis and the destination has no
rows of a removed asset that the transfer would bring back. -/
theorem transfer_conserved_iff {js : Js} {r : Request} {body : TransferBody} {token : Token}
    {db db' : Db} (hsource : Since Numeric.exact js r.portfolioId db)
    (hdest : Since Numeric.exact js body.destPortfolioId db)
    (haction : r.action = .transfer body)
    (htoken : db.findTokenBySymbol body.symbol = some token)
    (hsourceKnown : CostKnown db r.portfolioId token)
    (hdestKnown : CostKnown db body.destPortfolioId token)
    (hsourceTs : ∀ e ∈ ledgerEvents db r.portfolioId token.symbol,
      e.ts ≤ body.timestamp.getD r.env.now)
    (hdestTs : ∀ e ∈ ledgerEvents db body.destPortfolioId token.symbol,
      e.ts ≤ body.timestamp.getD r.env.now)
    (hstep : Step Numeric.exact js db r db') :
    Conserved db db' r.portfolioId body.destPortfolioId token.id ↔
      NothingLeftOver db body.destPortfolioId token ∧
        (holding db r.portfolioId token.id).netDeposit =
          (holding db r.portfolioId token.id).costBasis := by
  have hview : ∀ (d : Derived) value, { d with netDeposit := value }.pnlColumns = d.pnlColumns :=
    fun _ _ => rfl
  have hrows : ∀ p, Since Numeric.exact js p db → AllRows (PositiveAmounts p) db := fun p h =>
    h.allRows (rowClosed_positiveAmounts p) fun _ hother hp => absurd hp hother
  unfold Step handle at hstep
  obtain ⟨source, hfind, hrun⟩ := bind_eq_ok hstep
  obtain ⟨-, hid, -⟩ := ownedPortfolio_ok hfind
  rw [haction] at hrun
  rw [← hid] at hsource hsourceKnown hsourceTs ⊢
  exact conserved_iff_of_sound (hsource.sound hview).1 (hdest.sound hview).1 (hrows _ hsource)
    (hrows _ hdest) htoken hsourceKnown hdestKnown hsourceTs hdestTs hrun

/-! ### A pair of portfolios -/

instance decidableCovered : (s : Totals) → (events : List LedgerEvent) →
    Decidable (Covered s events)
  | _, [] => .isTrue trivial
  | s, e :: events =>
      have := decidableCovered (s.step e) events
      inferInstanceAs (Decidable (_ ∧ _))

instance (a : Asset) : Decidable a.KnownLot := by
  unfold Asset.KnownLot
  infer_instance

def costKnownCheck (db : Db) (p : ℕ) (token : Token) : Bool :=
  decide (heldAsset db p token.id).KnownLot &&
    decide (Covered
      (Totals.opening (heldAsset db p token.id).openingBalance
        (heldAsset db p token.id).openingCostBasis)
      (ledgerEvents db p token.symbol))

/-- The holdings and times a transfer to portfolio 4 must find in portfolios 3 and 4. -/
def transferableCheck (ts : Millis) (token : Token) (db : Db) : Bool :=
  [3, 4].all fun p =>
    costKnownCheck db p token && (ledgerEvents db p token.symbol).all fun e => decide (e.ts ≤ ts)

/-- Portfolios 3 and 4 are created, requests run, then the transfer. -/
def transferAfter (requests : List Request) (transfer : Request) (check : Db → Db → Bool) :
    Bool :=
  match createManualPortfolio Numeric.exact sampleEnv 1 none [] sampleDb with
  | .error _ => false
  | .ok (p, db₁) =>
      match createManualPortfolio Numeric.exact sampleEnv 1 none [] db₁ with
      | .error _ => false
      | .ok (q, db₂) =>
          decide (p = 3) && decide (q = 4) &&
            match handleAll Numeric.exact sampleJs requests db₂ with
            | .error _ => false
            | .ok db =>
                match handle Numeric.exact sampleJs transfer db with
                | .error _ => false
                | .ok db' => check db db'

theorem createManualPortfolio_nil {N : Numeric} {env : Env} {userId p : ℕ}
    {startingBalance : Option DecimalStr} {db db' : Db}
    (h : createManualPortfolio N env userId startingBalance [] db = .ok (p, db')) :
    db'.tokens = db.tokens ∧ db'.assets = db.assets ∧ db'.transactions = db.transactions := by
  unfold createManualPortfolio at h
  obtain ⟨⟨p', db₁⟩, hcreate, h⟩ := bind_eq_ok h
  obtain ⟨db₂, hseeds, h⟩ := bind_eq_ok h
  obtain ⟨db₃, hcommit, h⟩ := bind_eq_ok h
  cases h
  cases hseeds
  obtain ⟨-, portfolios, rfl, -⟩ := createPortfolio_ok hcreate
  rw [(commit_ok hcommit).1]
  exact ⟨rfl, rfl, rfl⟩

theorem exists_of_transferAfter {requests : List Request} {transfer : Request}
    {check : Db → Db → Bool} (hkeep : ∀ r ∈ requests, ∀ db, r.KeepsTradeOrder db)
    (h : transferAfter requests transfer check = true) :
    ∃ db db', Since Numeric.exact sampleJs 3 db ∧ Since Numeric.exact sampleJs 4 db ∧
      Step Numeric.exact sampleJs db transfer db' ∧ check db db' = true := by
  have hnamed : NamedTokens sampleDb := by
    intro token htoken
    rw [List.mem_singleton.mp htoken]
    decide
  unfold transferAfter at h
  split at h
  · cases h
  · next p db₁ hfirst =>
      split at h
      · cases h
      · next q db₂ hsecond =>
          obtain ⟨hids, hrest⟩ := Bool.and_eq_true_iff.mp h
          clear h
          obtain ⟨hp, hq⟩ := Bool.and_eq_true_iff.mp hids
          obtain rfl : p = 3 := of_decide_eq_true hp
          obtain rfl : q = 4 := of_decide_eq_true hq
          split at hrest
          · cases hrest
          · next db hrun =>
              split at hrest
              · cases hrest
              · next db' hstep =>
                  obtain ⟨htokens, hassets, hrows⟩ := createManualPortfolio_nil hfirst
                  have hforeign₀ : ForeignKeys sampleDb :=
                    ⟨fun a ha => (by cases ha), fun t ht => (by cases ht)⟩
                  have hforeign₁ : ForeignKeys db₁ := by
                    refine ⟨fun a ha => ?_, fun t ht => ?_⟩
                    · rw [hassets] at ha
                      cases ha
                    · rw [hrows] at ht
                      cases ht
                  have hrun' := @run_of_handleAll _ _ (fun s r => r.KeepsTradeOrder s) _ _ _ hkeep
                      hrun
                  have h3 := @Since.created _ sampleJs _ _ _ _ _ _ _ hforeign₀ hnamed hfirst
                  have h4 := @Since.created _ sampleJs _ _ _ _ _ _ _ hforeign₁
                      (hnamed.of_eq htokens) hsecond
                  exact ⟨db, db', (h3.createdOther hsecond).run hrun', h4.run hrun', hstep, hrest⟩

def ethToken : Token := { id := 1, symbol := "ETH", rank := some 2, currentPrice := 200 }

/-- Moving 1 ETH from portfolio 3 to portfolio 4. -/
def transferBody : TransferBody where
  destPortfolioId := 4
  symbol := eth
  amount := ⟨1, amount_1⟩
  timestamp := some 30

def pairRequest (action : Action) : Request := ⟨1, 3, sampleEnv, action⟩

def buyTwo : Request :=
  pairRequest (.createTransaction (trade .buy ⟨2, amount_2⟩ ⟨100, bounded_100⟩ 10))

def sellOne : Request :=
  pairRequest (.createTransaction (trade .sell ⟨1, amount_1⟩ ⟨300, bounded_300⟩ 20))

theorem costKnown_of_check {db : Db} {p : ℕ} {token : Token}
    (h : costKnownCheck db p token = true) : CostKnown db p token := by
  obtain ⟨hlot, hcovered⟩ := Bool.and_eq_true_iff.mp h
  exact ⟨of_decide_eq_true hlot, of_decide_eq_true hcovered⟩

theorem of_transferableCheck {ts : Millis} {token : Token} {db : Db} {p : ℕ}
    (h : transferableCheck ts token db = true) (hp : p ∈ [3, 4]) :
    CostKnown db p token ∧ ∀ e ∈ ledgerEvents db p token.symbol, e.ts ≤ ts := by
  have hcheck := List.all_eq_true.mp h p hp
  obtain ⟨hknown, hts⟩ := Bool.and_eq_true_iff.mp hcheck
  refine ⟨costKnown_of_check hknown, fun e he => ?_⟩
  simpa using List.all_eq_true.mp hts e he

/-- Two units bought at 100 and none sold: moving one conserves cost and profit. -/
theorem transfer_conserved_bought :
    ∃ db db', Step Numeric.exact sampleJs db (pairRequest (.transfer transferBody)) db' ∧
      Conserved db db' 3 4 1 := by
  have hcheck : transferAfter [buyTwo] (pairRequest (.transfer transferBody)) (fun db _ =>
      decide (db.findTokenBySymbol eth.val = some ethToken) &&
        transferableCheck 30 ethToken db &&
        decide ((heldTotals db 4 ethToken).qty = 0 ∧ (heldTotals db 4 ethToken).realized = 0) &&
        decide ((holding db 3 1).netDeposit = (holding db 3 1).costBasis)) = true := by
    decide +kernel
  obtain ⟨db, db', h3, h4, hstep, hcheck⟩ := exists_of_transferAfter
    (fun r hr s => by rw [List.mem_singleton.mp hr]; trivial) hcheck
  obtain ⟨hcheck, hbasis⟩ := Bool.and_eq_true_iff.mp hcheck
  obtain ⟨hcheck, hleft⟩ := Bool.and_eq_true_iff.mp hcheck
  obtain ⟨htoken, hable⟩ := Bool.and_eq_true_iff.mp hcheck
  obtain ⟨hknown3, hts3⟩ := of_transferableCheck hable (p := 3) (by simp)
  obtain ⟨hknown4, hts4⟩ := of_transferableCheck hable (p := 4) (by simp)
  refine ⟨db, db', hstep, ?_⟩
  exact (transfer_conserved_iff (r := pairRequest (.transfer transferBody)) h3 h4 rfl
    (of_decide_eq_true htoken) hknown3 hknown4 hts3 hts4 hstep).mpr
      ⟨fun _ => of_decide_eq_true hleft, of_decide_eq_true hbasis⟩

/-- Two units bought at 100, one sold at 300: the net deposit is -100, and moving the other
unit moves a cost basis of -100 to the destination. -/
theorem transfer_after_sale_not_conserved :
    ∃ db db', Since Numeric.exact sampleJs 3 db ∧ Since Numeric.exact sampleJs 4 db ∧
      Step Numeric.exact sampleJs db (pairRequest (.transfer transferBody)) db' ∧
      db.findTokenBySymbol eth.val = some ethToken ∧
      (∀ p ∈ [3, 4], CostKnown db p ethToken ∧
        ∀ e ∈ ledgerEvents db p ethToken.symbol, e.ts ≤ 30) ∧
      ¬ Conserved db db' 3 4 ethToken.id := by
  have hcheck : transferAfter [buyTwo, sellOne] (pairRequest (.transfer transferBody))
      (fun db db' =>
        decide (db.findTokenBySymbol eth.val = some ethToken) &&
          transferableCheck 30 ethToken db &&
          decide ((holding db' 3 1).costBasis + (holding db' 4 1).costBasis ≠
            (holding db 3 1).costBasis + (holding db 4 1).costBasis)) = true := by
    decide +kernel
  obtain ⟨db, db', h3, h4, hstep, hcheck⟩ := exists_of_transferAfter
    (fun r hr s => by rcases List.mem_pair.mp hr with rfl | rfl <;> trivial) hcheck
  obtain ⟨hcheck, hbasis⟩ := Bool.and_eq_true_iff.mp hcheck
  obtain ⟨htoken, hable⟩ := Bool.and_eq_true_iff.mp hcheck
  exact ⟨db, db', h3, h4, hstep, of_decide_eq_true htoken,
    fun p hp => of_transferableCheck hable hp,
    fun hconserved => of_decide_eq_true hbasis hconserved.costBasis⟩

end Neonfi.Ledger

import Neonfi.Ledger.Rollup
import Neonfi.Ledger.Transfers

/-!
# The two profit measures

`computeFromDb` reads the profit of a portfolio off its assets, and `toPortfolioDTO` shows
it beside the total value and the net deposit.  One measure is the cash flow, value minus
net deposit; the other comes from the lots, unrealized plus realized.  They differ by what
outgoing transfers carry over the average cost they take out.
-/

namespace Neonfi.Ledger

open Lib

/-! ## The derived fields -/

/-- The result of `computeFromDb`, without the windows that come from snapshots. -/
structure DerivedFields where
  totalValue : ℚ
  pnlAllTime : Option ℚ
  pnlAllTimeValue : Option ℚ
  unrealizedPnlValue : ℚ
  unrealizedPnlPct : ℚ
  realizedPnlValue : ℚ
  allTimePnlValue : ℚ
  costBasisTotal : ℚ
  deriving DecidableEq, Repr

/-- The price of an asset: the live tick of its symbol, else the catalog's. -/
def assetPrice (live : String → Option ℚ) (db : Db) (a : Asset) : ℚ :=
  match db.findTokenById a.tokenId with
  | some token => (live token.symbol).getD token.currentPrice
  | none => 0

def percentOf (value base : ℚ) : ℚ := if base ≠ 0 then value / base * 100 else 0

/-- A connected portfolio without any cost basis from its provider. -/
def unknownCostFields (totalValue : ℚ) : DerivedFields where
  totalValue := totalValue
  pnlAllTime := none
  pnlAllTimeValue := none
  unrealizedPnlValue := 0
  unrealizedPnlPct := 0
  realizedPnlValue := 0
  allTimePnlValue := 0
  costBasisTotal := 0

def computeFromDb (live : String → Option ℚ) (portfolioId : ℕ) (db : Db) : DerivedFields :=
  let assets := assetsOf db portfolioId
  let portfolio := db.findPortfolioById portfolioId
  let totalValue := (assets.map fun a => a.balance * assetPrice live db a).sum
  let unrealizedPnlValue :=
    (assets.map fun a => a.derived.unrealizedPnlValue (assetPrice live db a)).sum
  let costBasisSum :=
    (assets.map fun a => if a.avgCost.isSome then a.costBasis else 0).sum
  let realizedPnlValue := (assets.map Asset.realizedPnl).sum
  let unrealizedPnlPct := percentOf unrealizedPnlValue costBasisSum
  let allTimePnlValue := unrealizedPnlValue + realizedPnlValue
  let isConnected := portfolio.map Portfolio.type = some .connected
  let hasCostBasis := (assets.any fun a => a.avgCost.isSome) || realizedPnlValue ≠ 0
  if isConnected ∧ hasCostBasis = false then unknownCostFields totalValue
  else
    let netDeposit := (portfolio.map Portfolio.netDeposit).getD 0
    { totalValue, unrealizedPnlValue, unrealizedPnlPct, realizedPnlValue, allTimePnlValue
      pnlAllTime := if isConnected then none
        else some (percentOf (totalValue - netDeposit) netDeposit)
      pnlAllTimeValue := some (if isConnected then allTimePnlValue else totalValue - netDeposit)
      costBasisTotal := costBasisSum }

structure PortfolioDTO extends DerivedFields where
  id : ℕ
  userId : ℕ
  type : PortfolioType
  walletAddress : Option String
  chainId : Option ℕ
  startingBalance : Option ℚ
  netDeposit : ℚ
  deriving DecidableEq, Repr

/-- A manual portfolio shows the profit of its lots as its all-time profit. -/
def toPortfolioDTO (live : String → Option ℚ) (portfolio : Portfolio) (db : Db) :
    PortfolioDTO :=
  let derived := computeFromDb live portfolio.id db
  let isManual := portfolio.type = .manual
  { derived with
    id := portfolio.id
    userId := portfolio.userId
    type := portfolio.type
    walletAddress := portfolio.walletAddress
    chainId := portfolio.chainId
    startingBalance := portfolio.startingBalance
    netDeposit := portfolio.netDeposit
    pnlAllTimeValue := if isManual then some derived.allTimePnlValue else derived.pnlAllTimeValue
    pnlAllTime := if isManual then some derived.unrealizedPnlPct else derived.pnlAllTime }

/-! ## The difference of the measures over a replay -/

/-- The cash an event brings into its holding. -/
def LedgerEvent.cash (e : LedgerEvent) : ℚ :=
  match e.dir with
  | .buy => e.usd
  | .sell => -e.usd
  | .transfer => 0

/-- What an event carries out of the totals over the average cost it takes out: only an
outgoing transfer leg does. -/
def Totals.carriedOver (s : Totals) (e : LedgerEvent) : ℚ :=
  if e.dir = .sell ∧ e.isTransfer then e.usd - e.amount * s.avg?.getD 0 else 0

/-- The sum over the events of a replay. -/
def transferGap : Totals → List LedgerEvent → ℚ
  | _, [] => 0
  | s, e :: events => s.carriedOver e + transferGap (s.step e) events

namespace Totals

theorem netDeposit_step (s : Totals) (e : LedgerEvent) :
    (s.step e).netDeposit = s.netDeposit + e.cash := by
  unfold step LedgerEvent.cash
  cases e.dir with
  | buy => rfl
  | sell =>
      unfold sell
      cases s.avg? <;> simp [sub_eq_add_neg]
  | transfer => simp

theorem netDeposit_foldl (s : Totals) (events : List LedgerEvent) :
    (events.foldl step s).netDeposit = s.netDeposit + (events.map LedgerEvent.cash).sum := by
  induction events generalizing s with
  | nil => simp
  | cons e events ih =>
      rw [List.foldl_cons, ih, netDeposit_step, List.map_cons, List.sum_cons]
      ring

/-- The cost still held, less the profit taken and the cash paid in. -/
def unsettled (s : Totals) : ℚ := s.totalCost - s.realized - s.netDeposit

theorem unsettled_opening (openingBalance : ℚ) (openingCostBasis : Option ℚ) :
    (opening openingBalance openingCostBasis).unsettled = 0 := by
  simp only [unsettled, opening]
  ring

theorem unsettled_buy (s : Totals) (amount usd : ℚ) :
    (s.buy amount usd).unsettled = s.unsettled := by
  simp only [unsettled, buy]
  ring

namespace Tracks

variable {s : Totals} {p : Position ℚ}

/-- A covered sale realizes what it takes in over the cost it takes out; a transfer leg
takes out its cost and its cash without realizing anything. -/
theorem unsettled_sell (h : s.Tracks p) {amount usd : ℚ} {isTransfer : Bool}
    (hpos : 0 < amount) (hle : amount ≤ p.qty) :
    (s.sell amount usd isTransfer).unsettled =
      s.unsettled + if isTransfer then usd - amount * s.avg?.getD 0 else 0 := by
  have havg := h.avg?_eq (hpos.trans_le hle)
  have hsold : min amount s.costKnownQty = amount := by
    rw [h.costKnownQty]
    exact min_eq_left hle
  have hprice : amount * (usd / amount) = usd := mul_div_cancel₀ usd hpos.ne'
  unfold Totals.sell
  rw [havg]
  simp only [hsold, if_pos hpos, unsettled, Option.getD_some]
  cases isTransfer with
  | true =>
      simp only [if_true]
      ring
  | false =>
      simp only [Bool.false_eq_true, if_false, mul_sub, hprice]
      ring

theorem unsettled_step (h : s.Tracks p) {e : LedgerEvent} (hpos : 0 < e.amount)
    (hsell : e.dir = .sell → e.amount ≤ s.costKnownQty) :
    (s.step e).unsettled = s.unsettled + s.carriedOver e := by
  unfold Totals.step Totals.carriedOver
  cases hdir : e.dir with
  | buy => simp [unsettled_buy]
  | sell =>
      rw [h.unsettled_sell hpos (h.costKnownQty ▸ hsell hdir)]
      simp
  | transfer => simp

end Tracks

/-- Over a covered replay the measures drift apart by the gap of its transfers. -/
theorem unsettled_foldl {events : List LedgerEvent} {s : Totals} {p : Position ℚ}
    (hamount : ∀ e ∈ events, 0 < e.amount) (hcovered : Covered s events) (h : s.Tracks p) :
    (events.foldl step s).unsettled = s.unsettled + transferGap s events := by
  induction events generalizing s p with
  | nil => rw [List.foldl_nil, transferGap, add_zero]
  | cons e events ih =>
      obtain ⟨hsell, hrest⟩ := hcovered
      have hpos := hamount e List.mem_cons_self
      have hamount' := fun x hx => hamount x (List.mem_cons_of_mem e hx)
      have hsingle : Covered s [e] := ⟨hsell, trivial⟩
      have hone : ∀ x ∈ [e], 0 < x.amount := fun x hx => List.mem_singleton.mp hx ▸ hpos
      obtain ⟨p', hp'⟩ := exists_tracks_of_covered hone hsingle h
      rw [List.foldl_cons, ih hamount' hrest hp', h.unsettled_step hpos hsell, transferGap]
      ring

end Totals

/-! ## One holding -/

/-- The events of an asset's token. -/
def assetEvents (db : Db) (a : Asset) : List LedgerEvent :=
  match db.findTokenById a.tokenId with
  | some token => ledgerEvents db a.portfolioId token.symbol
  | none => []

/-- The cash that went into an asset: its opening cost and its rows. -/
def paidIn (db : Db) (a : Asset) : ℚ :=
  a.openingCostBasis.getD 0 + ((assetEvents db a).map LedgerEvent.cash).sum

/-- What the asset's outgoing transfers carried over its average cost. -/
def carriedGap (db : Db) (a : Asset) : ℚ :=
  transferGap (Totals.opening a.openingBalance a.openingCostBasis) (assetEvents db a)

/-- Every lot of every asset of the portfolio has a known cost, and no sell took more. -/
def PortfolioCostKnown (db : Db) (portfolioId : ℕ) : Prop :=
  ∀ a ∈ assetsOf db portfolioId, a.KnownLot ∧
    Covered (Totals.opening a.openingBalance a.openingCostBasis) (assetEvents db a)

/-- The value of a holding less its profit is the cash that went in and the gap. -/
theorem value_sub_allTimePnl {db : Db} {p : ℕ} {a : Asset} (price : ℚ)
    (hsound : SoundExcept Numeric.exact Derived.pnlColumns db.tokens p ∅ db)
    (hrows : AllRows (PositiveAmounts p) db) (hmem : a ∈ assetsOf db p) (hlot : a.KnownLot)
    (hcovered : Covered (Totals.opening a.openingBalance a.openingCostBasis)
      (assetEvents db a)) :
    a.balance * price - a.derived.allTimePnlValue price =
      paidIn db a + carriedGap db a := by
  obtain ⟨ha, hp⟩ := List.mem_filter.mp hmem
  have hp : a.portfolioId = p := by simpa using hp
  obtain ⟨token, htoken, hview⟩ := hsound.coherent a ha hp (Set.notMem_empty _)
  have hevents : assetEvents db a = ledgerEvents db a.portfolioId token.symbol := by
    unfold assetEvents
    rw [htoken]
  rw [← hevents] at hview
  have hamount : ∀ e ∈ assetEvents db a, 0 < e.amount := by
    intro e he
    rw [hevents, hp] at he
    exact amount_pos_of_event hrows he
  obtain ⟨pos₀, hpos₀⟩ := hlot.tracks
  obtain ⟨pos, hpos⟩ := exists_tracks_of_covered hamount hcovered hpos₀
  obtain ⟨hbalance, -, -, hprofit⟩ := shows_of_tracks hpos hview
  have hdrift := Totals.unsettled_foldl hamount hcovered hpos₀
  rw [Totals.unsettled_opening, zero_add] at hdrift
  have hcash := Totals.netDeposit_foldl
    (Totals.opening a.openingBalance a.openingCostBasis) (assetEvents db a)
  have hcost := hpos.totalCost
  change a.balance = pos.qty at hbalance
  change _ = paidIn db a at hcash
  rw [hprofit price, hbalance, Position.gain, carriedGap, ← hdrift, ← hcash,
    Totals.unsettled, hcost]
  ring

/-! ## The portfolio -/

theorem computeFromDb_manual {live : String → Option ℚ} {p : ℕ} {db : Db}
    (hmanual : (db.findPortfolioById p).map Portfolio.type = some .manual) :
    (computeFromDb live p db).totalValue =
        ((assetsOf db p).map fun a => a.balance * assetPrice live db a).sum ∧
      (computeFromDb live p db).allTimePnlValue =
        ((assetsOf db p).map fun a => a.derived.allTimePnlValue (assetPrice live db a)).sum := by
  unfold computeFromDb
  dsimp only
  rw [if_neg (by rw [hmanual]; simp)]
  refine ⟨rfl, ?_⟩
  exact List.sum_map_add.symm

/-- The two measures of a portfolio agree, and the profit it shows is that of its lots. -/
def PortfolioDTO.MeasuresAgree (dto : PortfolioDTO) : Prop :=
  dto.totalValue - dto.netDeposit = dto.allTimePnlValue ∧
    dto.pnlAllTimeValue = some dto.allTimePnlValue

/-- In every history of a manual portfolio whose lots all have a known cost and cover their
sells, and at all prices, value minus net deposit is unrealized plus realized profit exactly
when the portfolio's net deposit is what its rows paid in and what their outgoing transfers
carried over the average cost. -/
theorem measuresAgree_iff {js : Js} {portfolio : Portfolio} {db : Db}
    (hsince : Since Numeric.exact js portfolio.id db)
    (hfind : db.findPortfolioById portfolio.id = some portfolio)
    (hknown : PortfolioCostKnown db portfolio.id) (live : String → Option ℚ) :
    (toPortfolioDTO live portfolio db).MeasuresAgree ↔
      portfolio.netDeposit =
        ((assetsOf db portfolio.id).map fun a => paidIn db a + carriedGap db a).sum := by
  have hview : ∀ (d : Derived) value, { d with netDeposit := value }.pnlColumns = d.pnlColumns :=
    fun _ _ => rfl
  have hsound := (hsince.sound hview).1
  have hrows : AllRows (PositiveAmounts portfolio.id) db :=
    hsince.allRows (rowClosed_positiveAmounts _) fun _ hother hp => absurd hp hother
  obtain ⟨hvalue, hprofit⟩ := @computeFromDb_manual live _ _ hsound.manual
  have hmanual : portfolio.type = .manual := by
    have h := hsound.manual
    rw [hfind] at h
    exact Option.some.inj h
  have hsplit : (computeFromDb live portfolio.id db).totalValue =
      (computeFromDb live portfolio.id db).allTimePnlValue +
        ((assetsOf db portfolio.id).map fun a =>
          paidIn db a + carriedGap db a).sum := by
    rw [hvalue, hprofit, ← List.sum_map_add]
    refine congrArg List.sum (List.map_congr_left fun a ha => ?_)
    obtain ⟨hlot, hcovered⟩ := hknown a ha
    have hone := value_sub_allTimePnl (assetPrice live db a) hsound hrows ha hlot hcovered
    linarith
  have hshown : (toPortfolioDTO live portfolio db).pnlAllTimeValue =
      some (toPortfolioDTO live portfolio db).allTimePnlValue := if_pos hmanual
  constructor
  · rintro ⟨hagree, -⟩
    change (computeFromDb live portfolio.id db).totalValue - portfolio.netDeposit =
      (computeFromDb live portfolio.id db).allTimePnlValue at hagree
    linarith
  · intro hdeposit
    refine ⟨?_, hshown⟩
    change (computeFromDb live portfolio.id db).totalValue - portfolio.netDeposit =
      (computeFromDb live portfolio.id db).allTimePnlValue
    linarith

/-! ### A portfolio that has transferred -/

instance (dto : PortfolioDTO) : Decidable dto.MeasuresAgree :=
  inferInstanceAs (Decidable (_ ∧ _))

instance (db : Db) (p : ℕ) : Decidable (PortfolioCostKnown db p) :=
  inferInstanceAs (Decidable (∀ a ∈ assetsOf db p, _ ∧ _))

/-- Portfolio 3 as the sample transfer leaves it, when it was created without a starting
balance and its lots have known costs. -/
def transferredCheck (check : Portfolio → Db → Bool) (db : Db) : Bool :=
  (db.findPortfolioById 3).any fun portfolio =>
    decide (portfolio.startingBalance = none) && decide (PortfolioCostKnown db 3) &&
      check portfolio db

theorem of_transferredCheck {check : Portfolio → Db → Bool} {db : Db}
    (h : transferredCheck check db = true) :
    ∃ portfolio, db.findPortfolioById 3 = some portfolio ∧ portfolio.id = 3 ∧
      portfolio.startingBalance = none ∧ PortfolioCostKnown db 3 ∧ check portfolio db = true := by
  unfold transferredCheck at h
  rw [Option.any_eq_true] at h
  obtain ⟨portfolio, hfind, h⟩ := h
  obtain ⟨h, hcheck⟩ := Bool.and_eq_true_iff.mp h
  obtain ⟨hstart, hknown⟩ := Bool.and_eq_true_iff.mp h
  have hid : portfolio.id = 3 := (SerialTable.find?_eq_some_iff.mp hfind).2
  exact ⟨portfolio, hfind, hid, of_decide_eq_true hstart, of_decide_eq_true hknown, hcheck⟩

/-- Two units bought at 100 and one of them moved out at that cost: the measures agree. -/
theorem measuresAgree_transferBought :
    ∃ portfolio db, db.findPortfolioById 3 = some portfolio ∧
      ∀ live, (toPortfolioDTO live portfolio db).MeasuresAgree := by
  have hcheck : transferAfter [buyTwo] (pairRequest (.transfer transferBody)) (fun _ db =>
      transferredCheck (fun portfolio db => decide (portfolio.netDeposit =
        ((assetsOf db portfolio.id).map fun a => paidIn db a + carriedGap db a).sum)) db) = true := by
    decide +kernel
  obtain ⟨db₁, db, h3, -, hstep, hcheck⟩ := exists_of_transferAfter
    (fun r hr s => by rw [List.mem_singleton.mp hr]; trivial) hcheck
  obtain ⟨portfolio, hfind, hid, -, hknown, hdeposit⟩ := of_transferredCheck hcheck
  have hsince : Since Numeric.exact sampleJs 3 db := h3.request ⟨hstep, trivial⟩
  refine ⟨portfolio, db, hfind, fun live => ?_⟩
  rw [← hid] at hsince hfind hknown
  exact (measuresAgree_iff hsince hfind hknown live).mpr (of_decide_eq_true hdeposit)

/-- Two units bought at 100, one sold at 300 and the other moved out at -100: the portfolio
is empty, its net deposit is 0, and it reports a profit of 200. -/
theorem measuresDisagree_transferAfterSale :
    ∃ portfolio db, Since Numeric.exact sampleJs portfolio.id db ∧
      db.findPortfolioById portfolio.id = some portfolio ∧ portfolio.startingBalance = none ∧
      PortfolioCostKnown db portfolio.id ∧
      ∃ live, ¬ (toPortfolioDTO live portfolio db).MeasuresAgree := by
  have hcheck : transferAfter [buyTwo, sellOne] (pairRequest (.transfer transferBody))
      (fun _ db => transferredCheck (fun portfolio db =>
        decide (¬ (toPortfolioDTO (fun _ => none) portfolio db).MeasuresAgree)) db) = true := by
    decide +kernel
  obtain ⟨db₁, db, h3, -, hstep, hcheck⟩ := exists_of_transferAfter
    (fun r hr s => by rcases List.mem_pair.mp hr with rfl | rfl <;> trivial) hcheck
  obtain ⟨portfolio, hfind, hid, hstart, hknown, hagree⟩ := of_transferredCheck hcheck
  have hsince : Since Numeric.exact sampleJs 3 db := h3.request ⟨hstep, trivial⟩
  rw [← hid] at hsince hfind hknown
  exact ⟨portfolio, db, hsince, hfind, hstart, hknown, fun _ => none, of_decide_eq_true hagree⟩

end Neonfi.Ledger

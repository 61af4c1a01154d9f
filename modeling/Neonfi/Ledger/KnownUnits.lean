import Neonfi.Ledger.Moves
import Neonfi.Lib.Walk

/-!
# The profit of cost-unknown units

The replay of an asset tells the units whose cost it knows from those of an opening lot
without a cost, but no column stores how many of each are left.  `computeFromDb` and
`toAssetDTO` recover the unrealized profit from the balance and the average cost, so every
unit still held counts as one of known cost.
-/

namespace Neonfi.Ledger

open Lib

/-! ## The asset DTO -/

/-- An asset as the API shows it, without what is only copied from its token or its row. -/
structure AssetDTO where
  portfolioId : ℕ
  tokenId : ℕ
  symbol : String
  balance : ℚ
  price : ℚ
  value : ℚ
  portfolioPercentage : ℚ
  netDeposit : ℚ
  pnlAllTime : ℚ
  pnlAllTimeValue : ℚ
  avgCost : Option ℚ
  costBasis : ℚ
  costTracked : Bool
  unrealizedPnlValue : ℚ
  unrealizedPnlPct : ℚ
  realizedPnlValue : ℚ
  deriving DecidableEq, Repr

def toAssetDTO (live : String → Option ℚ) (token : Token) (portfolioTotalValue : ℚ)
    (asset : Asset) : AssetDTO :=
  let price := (live token.symbol).getD token.currentPrice
  let value := asset.balance * price
  let unrealizedPnlValue :=
    match asset.avgCost with
    | some avgCost => asset.balance * (price - avgCost)
    | none => 0
  { portfolioId := asset.portfolioId
    tokenId := asset.tokenId
    symbol := token.symbol
    balance := asset.balance
    price
    value
    portfolioPercentage := if 0 < portfolioTotalValue then value / portfolioTotalValue * 100 else 0
    netDeposit := asset.netDeposit
    pnlAllTime := percentOf (value - asset.netDeposit) asset.netDeposit
    pnlAllTimeValue := value - asset.netDeposit
    avgCost := asset.avgCost
    costBasis := asset.costBasis
    costTracked := asset.avgCost.isSome
    unrealizedPnlValue
    unrealizedPnlPct := percentOf unrealizedPnlValue asset.costBasis
    realizedPnlValue := asset.realizedPnl }

/-- The portfolio derivation adds up one profit for each asset. -/
theorem unrealizedPnlValue_computeFromDb {live : String → Option ℚ} {p : ℕ} {db : Db}
    (hmanual : (db.findPortfolioById p).map Portfolio.type = some .manual) :
    (computeFromDb live p db).unrealizedPnlValue =
      ((assetsOf db p).map fun a => a.derived.unrealizedPnlValue (assetPrice live db a)).sum := by
  unfold computeFromDb
  dsimp only
  rw [if_neg (by rw [hmanual]; simp)]

/-- Both reports have the same formula. -/
theorem unrealizedPnlValue_toAssetDTO {live : String → Option ℚ} {db : Db} {token : Token}
    {a : Asset} (htoken : db.findTokenById a.tokenId = some token) (total : ℚ) :
    (toAssetDTO live token total a).unrealizedPnlValue =
      a.derived.unrealizedPnlValue (assetPrice live db a) := by
  unfold assetPrice
  rw [htoken]
  rfl

/-! ## Known and unknown units -/

/-- The units of the opening lot, when its cost is known. -/
def Asset.knownOpening (a : Asset) : ℚ := if a.openingCostBasis.isSome then a.openingBalance else 0

/-- The units of an opening lot without a cost. -/
def Asset.unknownOpening (a : Asset) : ℚ := a.openingBalance - a.knownOpening

section Ledgers

variable (a : Asset) (events : List LedgerEvent)

/-- How far the sells of a ledger, at the worst moment, go beyond the units of known cost. -/
def oversold : ℚ := max 0 (drawdown (events.map LedgerEvent.units) - a.knownOpening)

/-- The units of known cost that a ledger leaves. -/
def knownLeft : ℚ := a.knownOpening + (events.map LedgerEvent.units).sum + oversold a events

/-- The units of unknown cost that a ledger leaves; sells take them last. -/
def unknownLeft : ℚ := a.unknownOpening - oversold a events

/-- A cost without units: an empty opening lot at a cost, and nothing bought since. -/
def Stranded : Prop :=
  a.openingBalance = 0 ∧ a.openingCostBasis.getD 0 ≠ 0 ∧ ∀ e ∈ events, e.dir ≠ .buy

instance : Decidable (Stranded a events) := inferInstanceAs (Decidable (_ ∧ _ ∧ _))

end Ledgers

namespace Totals

variable {s : Totals} {e : LedgerEvent}

/-- Known units come and go like the balance, but never fall below zero. -/
theorem costKnownQty_step (hknown : 0 ≤ s.costKnownQty) (hamount : 0 < e.amount) :
    (s.step e).costKnownQty = clampedAdd s.costKnownQty e.units := by
  unfold step LedgerEvent.units clampedAdd
  cases e.dir with
  | buy => exact (max_eq_right (add_nonneg hknown hamount.le)).symm
  | transfer =>
      dsimp only
      rw [add_zero, max_eq_right hknown]
  | sell =>
      unfold sell avg?
      by_cases hpos : 0 < s.costKnownQty
      · rw [if_pos hpos]
        show s.costKnownQty - min e.amount s.costKnownQty = max 0 (s.costKnownQty + -e.amount)
        rcases le_total e.amount s.costKnownQty with hle | hle
        · rw [min_eq_left hle, max_eq_right (by linarith), sub_eq_add_neg]
        · rw [min_eq_right hle, max_eq_left (by linarith), sub_self]
      · have hzero : s.costKnownQty = 0 := le_antisymm (not_lt.mp hpos) hknown
        rw [if_neg hpos]
        show s.costKnownQty = max 0 (s.costKnownQty + -e.amount)
        rw [hzero, max_eq_left (by linarith)]

theorem costKnownQty_foldl {events : List LedgerEvent} (hknown : 0 ≤ s.costKnownQty)
    (hamount : ∀ e ∈ events, 0 < e.amount) :
    (events.foldl step s).costKnownQty =
      (events.map LedgerEvent.units).foldl clampedAdd s.costKnownQty := by
  induction events generalizing s with
  | nil => rfl
  | cons e events ih =>
      have hstep := costKnownQty_step hknown (hamount e List.mem_cons_self)
      have hnext : 0 ≤ (s.step e).costKnownQty := by
        rw [hstep]
        exact le_max_left _ _
      rw [List.foldl_cons, List.map_cons, List.foldl_cons, ← hstep]
      exact ih hnext fun x hx => hamount x (List.mem_cons_of_mem e hx)

/-- Known units are not negative, and a cost is always one of known units. -/
structure Settled (s : Totals) : Prop where
  costKnownQty_nonneg : 0 ≤ s.costKnownQty
  cost_of_empty : s.costKnownQty = 0 → s.totalCost = 0

/-- The known units as a position. -/
def Settled.position (h : s.Settled) : Position ℚ :=
  ⟨s.costKnownQty, s.totalCost, h.costKnownQty_nonneg, h.cost_of_empty⟩

/-- A buy settles any totals. -/
theorem settled_buy (hknown : 0 ≤ s.costKnownQty) (hamount : 0 < e.amount) :
    (s.buy e.amount e.usd).Settled where
  costKnownQty_nonneg := add_nonneg hknown hamount.le
  cost_of_empty h := absurd h (add_pos_of_nonneg_of_pos hknown hamount).ne'

theorem Settled.step (h : s.Settled) (hamount : 0 < e.amount) : (s.step e).Settled := by
  unfold Totals.step
  cases e.dir with
  | buy => exact settled_buy h.costKnownQty_nonneg hamount
  | transfer => exact h
  | sell =>
      unfold Totals.sell Totals.avg?
      by_cases hpos : 0 < s.costKnownQty
      · rw [if_pos hpos]
        refine ⟨sub_nonneg.mpr (min_le_right _ _), fun hzero => ?_⟩
        -- Nothing is left exactly when everything was taken out, and then all of its cost.
        change s.costKnownQty - min e.amount s.costKnownQty = 0 at hzero
        show s.totalCost - min e.amount s.costKnownQty * (s.totalCost / s.costKnownQty) = 0
        rw [← sub_eq_zero.mp hzero, mul_div_cancel₀ _ hpos.ne', sub_self]
      · rw [if_neg hpos]
        exact ⟨h.costKnownQty_nonneg, h.cost_of_empty⟩

/-- A replay is settled from the start, or from its first buy on. -/
theorem settled_foldl {events : List LedgerEvent} (hknown : 0 ≤ s.costKnownQty)
    (hamount : ∀ e ∈ events, 0 < e.amount)
    (hstart : s.Settled ∨ ∃ e ∈ events, e.dir = .buy) : (events.foldl Totals.step s).Settled := by
  induction events generalizing s with
  | nil =>
      rcases hstart with hsettled | ⟨e, he, -⟩
      · exact hsettled
      · cases he
  | cons e events ih =>
      have hpos := hamount e List.mem_cons_self
      have hnext : 0 ≤ (s.step e).costKnownQty := by
        rw [costKnownQty_step hknown hpos]
        exact le_max_left _ _
      refine ih hnext (fun x hx => hamount x (List.mem_cons_of_mem e hx)) ?_
      rcases hstart with hsettled | ⟨x, hx, hbuy⟩
      · exact .inl (hsettled.step hpos)
      · rcases List.mem_cons.mp hx with rfl | hx
        · left
          unfold Totals.step
          rw [hbuy]
          exact settled_buy hknown hpos
        · exact .inr ⟨x, hx, hbuy⟩

/-- Sells of nothing known leave the cost alone. -/
theorem totalCost_foldl_of_none {events : List LedgerEvent} (hzero : s.costKnownQty = 0)
    (hsells : ∀ e ∈ events, e.dir ≠ .buy) :
    (events.foldl step s).costKnownQty = 0 ∧ (events.foldl step s).totalCost = s.totalCost := by
  induction events generalizing s with
  | nil => exact ⟨hzero, rfl⟩
  | cons e events ih =>
      have hkeeps : (s.step e).costKnownQty = s.costKnownQty ∧
          (s.step e).totalCost = s.totalCost := by
        have hdir := hsells e List.mem_cons_self
        unfold step
        cases hcase : e.dir with
        | buy => exact absurd hcase hdir
        | transfer => exact ⟨rfl, rfl⟩
        | sell =>
            unfold sell avg?
            rw [if_neg hzero.not_gt]
            exact ⟨rfl, rfl⟩
      rw [List.foldl_cons, ← hkeeps.2]
      exact ih (hkeeps.1.trans hzero) fun x hx => hsells x (List.mem_cons_of_mem e hx)

end Totals

/-! ## The replay of a ledger -/

section Replay

variable {a : Asset} {events : List LedgerEvent}

theorem knownOpening_nonneg (hopening : 0 ≤ a.openingBalance) : 0 ≤ a.knownOpening := by
  unfold Asset.knownOpening
  split
  · exact hopening
  · exact le_rfl

theorem costKnownQty_replay (hopening : 0 ≤ a.openingBalance)
    (hamount : ∀ e ∈ events, 0 < e.amount) :
    (replay a events).costKnownQty = knownLeft a events := by
  have hknown := knownOpening_nonneg hopening
  unfold replay
  rw [Totals.costKnownQty_foldl hknown hamount]
  exact foldl_clampedAdd _ hknown

theorem qty_replay_eq_left (a : Asset) (events : List LedgerEvent) :
    (replay a events).qty = knownLeft a events + unknownLeft a events := by
  rw [qty_replay]
  unfold knownLeft unknownLeft Asset.unknownOpening
  ring

theorem settled_replay (hopening : 0 ≤ a.openingBalance) (hamount : ∀ e ∈ events, 0 < e.amount)
    (hstranded : ¬ Stranded a events) : (replay a events).Settled := by
  have hknown := knownOpening_nonneg hopening
  refine Totals.settled_foldl hknown hamount ?_
  by_cases hbuy : ∃ e ∈ events, e.dir = .buy
  · exact .inr hbuy
  · left
    refine ⟨hknown, fun hzero => ?_⟩
    change a.knownOpening = 0 at hzero
    show a.openingCostBasis.getD 0 = 0
    by_contra hcost
    refine hstranded ⟨?_, hcost, fun e he hdir => hbuy ⟨e, he, hdir⟩⟩
    unfold Asset.knownOpening at hzero
    cases hbasis : a.openingCostBasis with
    | none => simp [hbasis] at hcost
    | some cost => simpa [hbasis] using hzero

theorem replay_of_stranded (hstranded : Stranded a events) :
    (replay a events).costKnownQty = 0 ∧ (replay a events).totalCost ≠ 0 := by
  obtain ⟨hempty, hcost, hsells⟩ := hstranded
  have hzero : (Totals.opening a.openingBalance a.openingCostBasis).costKnownQty = 0 := by
    show a.knownOpening = 0
    unfold Asset.knownOpening
    rw [hempty, ite_self]
  obtain ⟨hknown, htotal⟩ := Totals.totalCost_foldl_of_none hzero hsells
  refine ⟨hknown, ?_⟩
  unfold replay
  rw [htotal]
  exact hcost

/-! ## What the reports show -/

/-- Both reports show what the known units are worth over their cost. -/
structure ShowsKnownUnits (live : String → Option ℚ) (db : Db) (token : Token) (total : ℚ)
    (known : ℚ) (a : Asset) : Prop where
  derivation : a.derived.unrealizedPnlValue (assetPrice live db a) =
    known * assetPrice live db a - a.costBasis
  dto : (toAssetDTO live token total a).unrealizedPnlValue =
    known * assetPrice live db a - a.costBasis

theorem showsKnownUnits_iff_derivation {live : String → Option ℚ} {db : Db} {token : Token}
    {total known : ℚ} (htoken : db.findTokenById a.tokenId = some token) :
    ShowsKnownUnits live db token total known a ↔
      a.derived.unrealizedPnlValue (assetPrice live db a) =
        known * assetPrice live db a - a.costBasis := by
  constructor
  · exact ShowsKnownUnits.derivation
  · intro h
    exact ⟨h, (unrealizedPnlValue_toAssetDTO htoken total).trans h⟩

/-- The formula of the reports, over settled totals. -/
theorem unrealizedPnlValue_eq_iff {s : Totals} (hsettled : s.Settled) {d : Derived} {price : ℚ}
    (hd : d = s.stored Numeric.exact) :
    d.unrealizedPnlValue price = s.costKnownQty * price - d.costBasis ↔
      s.qty = s.costKnownQty ∨ s.costKnownQty = 0 ∨ d.avgCost = some price := by
  have hcolumns : d.avgCost = s.avg? ∧ d.balance = s.qty ∧ d.costBasis = s.totalCost := by
    rw [hd]
    refine ⟨?_, rfl, rfl⟩
    show s.avg?.map Numeric.exact.fix = s.avg?
    cases s.avg? <;> rfl
  obtain ⟨havg, hqty, hcost⟩ := hcolumns
  unfold Derived.unrealizedPnlValue
  rw [havg, hqty, hcost]
  rcases hsettled.costKnownQty_nonneg.eq_or_lt with hzero | hpos
  · have hnone : s.avg? = none := if_neg hzero.not_lt
    rw [hnone, hsettled.cost_of_empty hzero.symm, ← hzero]
    simp
  · have hsome : s.avg? = some hsettled.position.unitCost := if_pos hpos
    have hgain : s.costKnownQty * price - s.totalCost =
        s.costKnownQty * (price - hsettled.position.unitCost) :=
      hsettled.position.gain_eq_mul price hpos
    rw [hsome, hgain]
    dsimp only
    rw [← sub_eq_zero, ← sub_mul, mul_eq_zero, sub_eq_zero, sub_eq_zero, Option.some.injEq]
    simp only [hpos.ne', false_or, eq_comm]

end Replay

/-- In exact arithmetic, and whatever the opening lot, the events and the price: both reports
show what the known units are worth over their cost exactly when no cost is left without units
and no unknown unit is held beside a known one, or the price is the average cost. -/
theorem showsKnownUnits_iff {live : String → Option ℚ} {db : Db} {token : Token} {total : ℚ}
    {a : Asset} {events : List LedgerEvent}
    (htoken : db.findTokenById a.tokenId = some token)
    (hstored : a.derived = (replay a events).stored Numeric.exact)
    (hopening : 0 ≤ a.openingBalance) (hamount : ∀ e ∈ events, 0 < e.amount) :
    ShowsKnownUnits live db token total (replay a events).costKnownQty a ↔
      ¬ Stranded a events ∧
        (unknownLeft a events = 0 ∨ knownLeft a events = 0 ∨
          a.avgCost = some (assetPrice live db a)) := by
  have hknown := costKnownQty_replay hopening hamount
  rw [showsKnownUnits_iff_derivation htoken]
  by_cases hstranded : Stranded a events
  · obtain ⟨hzero, hcost⟩ := replay_of_stranded hstranded
    have havg : a.avgCost = none := by
      show a.derived.avgCost = none
      rw [hstored]
      show (replay a events).avg?.map Numeric.exact.fix = none
      unfold Totals.avg?
      rw [if_neg hzero.not_gt, Option.map_none]
    have hbasis : a.costBasis = (replay a events).totalCost := congrArg Derived.costBasis hstored
    have hshown : a.derived.unrealizedPnlValue (assetPrice live db a) = 0 := by
      unfold Derived.unrealizedPnlValue
      rw [show a.derived.avgCost = none from havg]
    constructor
    · intro h
      rw [hshown, hzero, zero_mul, zero_sub, hbasis, eq_comm, neg_eq_zero] at h
      exact absurd h hcost
    · rintro ⟨hnot, -⟩
      exact absurd hstranded hnot
  · have hsettled := settled_replay hopening hamount hstranded
    have hiff := @unrealizedPnlValue_eq_iff _ hsettled _ (assetPrice live db a) hstored
    have hqty : (replay a events).qty = (replay a events).costKnownQty ↔
        unknownLeft a events = 0 := by
      rw [qty_replay_eq_left, hknown, add_eq_left]
    rw [hqty] at hiff
    rw [← hknown]
    exact hiff.trans (and_iff_right hstranded).symm

/-- The claim of the two reports: the profit shown is that of the known units. -/
def AlwaysShowsKnownUnits : Prop :=
  ∀ (live : String → Option ℚ) (db : Db) (token : Token) (total : ℚ) (a : Asset)
    (events : List LedgerEvent), db.findTokenById a.tokenId = some token →
      a.derived = (replay a events).stored Numeric.exact → 0 ≤ a.openingBalance →
        (∀ e ∈ events, 0 < e.amount) →
          ShowsKnownUnits live db token total (replay a events).costKnownQty a

/-! ## Ten units and a buy -/

/-- One unit bought at 100. -/
def buyOneEth : List LedgerEvent := [⟨.buy, 1, 100, false, 1, 1⟩]

/-- An opening lot of ten units after that buy. -/
def tenEth (openingCostBasis : Option ℚ) : Asset :=
  let opened : Asset := { portfolioId := 1, tokenId := 1, openingBalance := 10, openingCostBasis }
  opened.setDerived ((replay opened buyOneEth).stored Numeric.exact)

/-- With a known cost, the profit is that of all eleven units. -/
theorem showsKnownUnits_knownLot :
    ShowsKnownUnits (fun _ => some 150) sampleDb ethToken 0
      (replay (tenEth (some 500)) buyOneEth).costKnownQty (tenEth (some 500)) :=
  (showsKnownUnits_iff (by decide +kernel) (by decide +kernel) (by decide +kernel)
    (by decide +kernel)).mpr ⟨by decide +kernel, by decide +kernel⟩

/-- Without a cost, the ten units show the profit of the one that was bought: at a price of
150 the reports say 550, where the known unit is worth 50 more than it cost. -/
theorem not_alwaysShowsKnownUnits : ¬ AlwaysShowsKnownUnits := by
  intro hshows
  have hdto := (hshows (fun _ => some 150) sampleDb ethToken 0 (tenEth none) buyOneEth
    (by decide +kernel) (by decide +kernel) (by decide +kernel) (by decide +kernel)).dto
  exact absurd hdto (by decide +kernel)

end Neonfi.Ledger

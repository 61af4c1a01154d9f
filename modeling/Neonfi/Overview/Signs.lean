import Neonfi.Overview.Model

/-!
# The signs of percentage and value

The all-time percentage of a manual portfolio is its unrealized profit over its cost basis, its
all-time value the unrealized and the realized profit together.  A `Book` keeps the sums that both
come from; percentage and value are on the same side of zero as long as the realized profit leaves
the total on the side of the unrealized one.
-/

namespace Neonfi.Overview

open Lib Ledger

/-! ## Rounding -/

theorem round_neg_iff {x : ℚ} : round x < 0 ↔ x < -(1 / 200) := by
  unfold round
  rw [div_lt_iff₀ (by norm_num), zero_mul, ← Int.cast_zero, Int.cast_lt, Int.floor_lt]
  push_cast
  constructor <;> intro h <;> linarith

theorem round_pos_iff {x : ℚ} : 0 < round x ↔ 1 / 200 ≤ x := by
  unfold round
  rw [lt_div_iff₀ (by norm_num), zero_mul, ← Int.cast_zero, Int.cast_lt, ← Int.add_one_le_iff,
    Int.le_floor]
  push_cast
  constructor <;> intro h <;> linarith

/-! ## Percentages -/

section

variable {value base : ℚ}

/-- A percentage has the sign of the product. -/
theorem percentOf_eq (hbase : base ≠ 0) :
    percentOf value base = value * base / base ^ 2 * 100 := by
  unfold percentOf
  rw [if_pos hbase]
  field_simp

theorem percentOf_zero : percentOf value 0 = 0 := if_neg (by simp)

theorem percentOf_lt_iff (hbase : base ≠ 0) {x : ℚ} :
    percentOf value base < x ↔ 100 * (value * base) < x * base ^ 2 := by
  have hpos : 0 < base ^ 2 := by positivity
  rw [percentOf_eq hbase, div_mul_eq_mul_div, div_lt_iff₀ hpos, mul_comm (value * base)]

theorem le_percentOf_iff (hbase : base ≠ 0) {x : ℚ} :
    x ≤ percentOf value base ↔ x * base ^ 2 ≤ 100 * (value * base) := by
  rw [← not_lt, percentOf_lt_iff hbase, not_lt]

theorem percentOf_neg_iff : percentOf value base < 0 ↔ value * base < 0 := by
  rcases eq_or_ne base 0 with rfl | hbase
  · simp [percentOf_zero]
  · rw [percentOf_lt_iff hbase]
    constructor <;> intro h <;> linarith

theorem percentOf_pos_iff : 0 < percentOf value base ↔ 0 < value * base := by
  rcases eq_or_ne base 0 with rfl | hbase
  · simp [percentOf_zero]
  · rw [← not_le, ← not_le, not_iff_not, percentOf_eq hbase]
    have hpos : 0 < base ^ 2 := by positivity
    rw [div_mul_eq_mul_div, div_le_iff₀ hpos]
    constructor <;> intro h <;> linarith

end

/-! ## The book of a portfolio -/

/-- What a portfolio is worth, what its cost-known holdings are worth and cost at their average
cost, their cost basis, and the profit taken. -/
structure Book where
  value : ℚ
  worth : ℚ
  averageCost : ℚ
  costBasis : ℚ
  realized : ℚ
  deriving DecidableEq, Repr

namespace Book

variable (b : Book)

/-- The unrealized profit. -/
def gain : ℚ := b.worth - b.averageCost

/-- The profit taken does not carry the total over to the other side of zero, also not when
percentage and value are shown with two digits. -/
structure SameSide : Prop where
  gain : 0 < b.gain * b.costBasis → -b.gain < b.realized
  loss : b.gain * b.costBasis < 0 → b.realized < -b.gain
  shownGain : b.costBasis ≠ 0 → b.costBasis ^ 2 ≤ 20000 * (b.gain * b.costBasis) →
    1 / 200 - b.gain ≤ b.realized
  shownLoss : 20000 * (b.gain * b.costBasis) < -b.costBasis ^ 2 →
    b.realized < -(1 / 200) - b.gain

end Book

/-- The book that the asset rows and the prices of a portfolio make up. -/
def bookOf (src : Sources) (portfolioId : ℕ) : Book :=
  let assets := assetsOf src.db portfolioId
  { value := (assets.map fun a => a.balance * assetPrice src.live src.db a).sum
    worth := (assets.map fun a =>
      if a.avgCost.isSome then a.balance * assetPrice src.live src.db a else 0).sum
    averageCost := (assets.map fun a => a.balance * a.avgCost.getD 0).sum
    costBasis := (assets.map fun a => if a.avgCost.isSome then a.costBasis else 0).sum
    realized := (assets.map Asset.realizedPnl).sum }

/-- The row of the portfolio table. -/
def Loaded (src : Sources) (p : PortfolioWithRelations) : Prop :=
  src.db.findPortfolioById p.id = some p.toPortfolio

instance (src : Sources) (p : PortfolioWithRelations) : Decidable (Loaded src p) :=
  inferInstanceAs (Decidable (_ = _))

section

variable {src : Sources} {p : PortfolioWithRelations}

theorem gain_bookOf (src : Sources) (portfolioId : ℕ) : (bookOf src portfolioId).gain =
    ((assetsOf src.db portfolioId).map fun a =>
      a.derived.unrealizedPnlValue (assetPrice src.live src.db a)).sum := by
  unfold Book.gain bookOf
  dsimp only
  rw [sub_eq_iff_eq_add, ← List.sum_map_add]
  refine congrArg List.sum (List.map_congr_left fun a _ => ?_)
  unfold Derived.unrealizedPnlValue Asset.derived
  dsimp only
  cases a.avgCost with
  | none => simp
  | some avgCost =>
      simp only [Option.isSome_some, if_true, Option.getD_some]
      ring

theorem computeDerived_manual (hloaded : Loaded src p) (hmanual : p.type = .manual) :
    (computeDerived src p.id).totalValue = (bookOf src p.id).value ∧
      (computeDerived src p.id).unrealizedPnlPct =
        percentOf (bookOf src p.id).gain (bookOf src p.id).costBasis ∧
      (computeDerived src p.id).allTimePnlValue =
        (bookOf src p.id).gain + (bookOf src p.id).realized := by
  have htype : ¬ ((src.db.findPortfolioById p.id).map Portfolio.type = some .connected ∧
      (((assetsOf src.db p.id).any fun a => a.avgCost.isSome) ||
        decide (((assetsOf src.db p.id).map Asset.realizedPnl).sum ≠ 0)) = false) := by
    rw [hloaded, Option.map_some, hmanual]
    simp
  rw [gain_bookOf]
  unfold computeDerived computeFromDb
  dsimp only
  rw [if_neg htype]
  exact ⟨rfl, rfl, rfl⟩

/-- A connected portfolio has no percentage. -/
theorem pnlAllTime_connected (hloaded : Loaded src p) (hconnected : p.type = .connected) :
    (computeFromDb src.live p.id src.db).pnlAllTime = none := by
  unfold computeFromDb
  dsimp only
  split
  · rfl
  · refine if_pos ?_
    rw [hloaded, Option.map_some, hconnected]

end

/-! ## Percentage and value -/

/-- A negative percentage comes with a negative value, a positive one with a positive value. -/
def SignsAgree (pct value : Option ℚ) : Prop :=
  ∀ x ∈ pct, (x < 0 → ∃ v ∈ value, v < 0) ∧ (0 < x → ∃ v ∈ value, 0 < v)

theorem signsAgree_some {x v : ℚ} :
    SignsAgree (some x) (some v) ↔ (x < 0 → v < 0) ∧ (0 < x → 0 < v) := by
  simp [SignsAgree]

theorem signsAgree_none {value : Option ℚ} : SignsAgree none value := nofun

/-- The signs agree in the DTO of a portfolio and in its row of the overview. -/
def SignsAgreeIn (src : Sources) (p : PortfolioWithRelations) : Prop :=
  let dto := toPortfolioDTO src.live p.toPortfolio src.db
  let row := (portfolioRow src p).rounded
  SignsAgree dto.pnlAllTime dto.pnlAllTimeValue ∧ SignsAgree row.pnlAllTime row.pnlAllTimeValue

namespace Book

variable {b : Book}

theorem signsAgree_iff : SignsAgree (some (percentOf b.gain b.costBasis))
    (some (b.gain + b.realized)) ↔ (0 < b.gain * b.costBasis → -b.gain < b.realized) ∧
      (b.gain * b.costBasis < 0 → b.realized < -b.gain) := by
  rw [signsAgree_some, percentOf_neg_iff, percentOf_pos_iff, and_comm]
  refine and_congr (imp_congr_right fun _ => ?_) (imp_congr_right fun _ => ?_)
  · constructor <;> intro h <;> linarith
  · constructor <;> intro h <;> linarith

theorem signsAgree_round_iff : SignsAgree (some (round (percentOf b.gain b.costBasis)))
    (some (round (b.gain + b.realized))) ↔
      (b.costBasis ≠ 0 → b.costBasis ^ 2 ≤ 20000 * (b.gain * b.costBasis) →
        1 / 200 - b.gain ≤ b.realized) ∧
      (20000 * (b.gain * b.costBasis) < -b.costBasis ^ 2 →
        b.realized < -(1 / 200) - b.gain) := by
  rw [signsAgree_some, round_neg_iff, round_neg_iff, round_pos_iff, round_pos_iff, and_comm]
  rcases eq_or_ne b.costBasis 0 with hzero | hbase
  · rw [hzero, percentOf_zero]
    norm_num
  · rw [percentOf_lt_iff hbase, le_percentOf_iff hbase]
    refine and_congr ⟨fun h _ hshown => ?_, fun h hshown => ?_⟩
      ⟨fun h hshown => ?_, fun h hshown => ?_⟩
    · have := h (by linarith)
      linarith
    · have := h hbase (by linarith)
      linarith
    · have := h (by linarith)
      linarith
    · have := h (by linarith)
      linarith

theorem sameSide_iff : b.SameSide ↔
    SignsAgree (some (percentOf b.gain b.costBasis)) (some (b.gain + b.realized)) ∧
      SignsAgree (some (round (percentOf b.gain b.costBasis)))
        (some (round (b.gain + b.realized))) := by
  rw [signsAgree_iff, signsAgree_round_iff]
  constructor
  · exact fun h => ⟨⟨h.gain, h.loss⟩, h.shownGain, h.shownLoss⟩
  · rintro ⟨⟨hgain, hloss⟩, hshownGain, hshownLoss⟩
    exact ⟨hgain, hloss, hshownGain, hshownLoss⟩

end Book

/-- Percentage and value never contradict each other. -/
def NeverContradict : Prop :=
  ∀ (src : Sources) (p : PortfolioWithRelations), Loaded src p → SignsAgreeIn src p

/-- Two units bought at 100, one of them sold at 300. -/
def soldHalf : List Request :=
  [sampleRequest (.createTransaction (trade .buy ⟨2, amount_2⟩ ⟨100, bounded_100⟩ 10)),
    sampleRequest (.createTransaction (trade .sell ⟨1, amount_1⟩ ⟨300, bounded_300⟩ 20))]

/-- The tables after some requests, at a price of the coin. -/
def sampleSources (requests : List Request) (price : ℚ) : Sources where
  db := match handleAll decimal20_8 sampleJs requests sampleDb with
    | .ok db => db
    | .error _ => sampleDb
  tick symbol := if symbol = "ETH" then some price else none
  findSnapshotNearDaysAgo _ _ := none
  toLowerCase := String.toLower
  localeLe a b := a ≤ b

def samplePortfolio (id : ℕ) (netDeposit : ℚ) : PortfolioWithRelations where
  id := id
  userId := 1
  type := .manual
  netDeposit := netDeposit
  name := "Long term"
  chainName := none
  createdAt := 0
  externalTxCount := none
  wallet := nofun

theorem loaded_soldHalf (price : ℚ) :
    Loaded (sampleSources soldHalf price) (samplePortfolio 1 (-100)) := by
  show Loaded (sampleSources soldHalf 0) (samplePortfolio 1 (-100))
  decide +kernel

end Neonfi.Overview

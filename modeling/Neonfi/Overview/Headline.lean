import Neonfi.Overview.Signs

/-!
# The headline against the rows

The headline sums the all-time values of the rows.  Its percentage is not theirs: it takes the
value over what the portfolios are worth without it, while a row takes the unrealized profit over
the cost basis.
-/

namespace Neonfi.Overview

open Lib Ledger

/-! ## The sums of the loop -/

/-- The all-time value a portfolio adds, and what it adds to the two sides of the percentage. -/
def allTimeValue (src : Sources) (p : PortfolioWithRelations) : ℚ :=
  ((portfolioRow src p).pnlAllTimeValue).getD 0

theorem pnlAllTimeValue_step (src : Sources) (s : AllTimeSums) (p : PortfolioWithRelations) :
    (s.step src p).pnlAllTimeValue = s.pnlAllTimeValue + allTimeValue src p := by
  unfold AllTimeSums.step allTimeValue portfolioRow
  dsimp only
  cases (canonicalAllTime p.type (computeDerived src p.id).toDerivedFields).value with
  | none => simp
  | some value =>
      dsimp only
      split <;> rfl

theorem pnlAllTimeValue_foldl (src : Sources) (portfolios : List PortfolioWithRelations)
    (s : AllTimeSums) : (portfolios.foldl (AllTimeSums.step src) s).pnlAllTimeValue =
      s.pnlAllTimeValue + (portfolios.map (allTimeValue src)).sum := by
  induction portfolios generalizing s with
  | nil => simp
  | cons p portfolios ih =>
      rw [List.foldl_cons, ih, pnlAllTimeValue_step, List.map_cons, List.sum_cons, add_assoc]

/-- The total value is the sum over the rows. -/
theorem pnlAllTimeValue_totals (src : Sources) (portfolios : List PortfolioWithRelations) :
    (totals src portfolios).pnlAllTimeValue = (portfolios.map (allTimeValue src)).sum := by
  unfold totals
  dsimp only
  rw [pnlAllTimeValue_foldl]
  exact zero_add _

/-! ## The percentage of one portfolio -/

/-- Of the guards only those on the base and on the size are ever met. -/
theorem aggregateAllTimePct_eq {numerator base : ℚ} : aggregateAllTimePct numerator base =
    if 0 < base ∧ -base ≤ numerator then some (numerator / base * 100) else none := by
  unfold aggregateAllTimePct
  by_cases hbase : 0 < base
  · have hsmall : numerator / base * 100 < -100 ↔ numerator < -base := by
      rw [div_mul_eq_mul_div, div_lt_iff₀ hbase]
      constructor <;> intro h <;> linarith
    have hsign : ¬ ((0 < numerator ∧ numerator / base * 100 < 0) ∨
        (numerator < 0 ∧ 0 < numerator / base * 100)) := by
      rintro (⟨hpos, hneg⟩ | ⟨hneg, hpos⟩)
      · have : 0 < numerator / base := by positivity
        linarith
      · have : numerator / base < 0 := div_neg_of_neg_of_pos hneg hbase
        linarith
    dsimp only
    rw [if_neg (not_not.mpr hbase), if_neg hsign]
    by_cases hle : -base ≤ numerator
    · rw [if_neg (mt hsmall.mp hle.not_gt), if_pos ⟨hbase, hle⟩]
    · rw [if_pos (hsmall.mpr (not_le.mp hle)), if_neg fun h => hle h.2]
  · rw [if_pos hbase, if_neg fun h => hbase h.1]

namespace Book

variable (b : Book)

/-- The unrealized and the realized profit. -/
def profit : ℚ := b.gain + b.realized

/-- The implied base of a shown percentage gives the profit the share that the cost basis gives the
unrealized profit: what the realized profit adds on one side is what the worth without the gain
exceeds the cost basis by on the other. -/
def OneBase : Prop :=
  b.profit < b.value → 0 ≤ b.value →
    (b.costBasis = 0 → b.realized = -b.gain) ∧
      (b.costBasis ≠ 0 → b.realized * (b.costBasis + b.gain) =
        b.gain * (b.value - b.gain - b.costBasis))

variable {b}

/-- The two percentages of a book. -/
theorem aggregateAllTimePct_eq_percentOf_iff :
    (∀ x ∈ aggregateAllTimePct b.profit (b.value - b.profit), x = percentOf b.gain b.costBasis) ↔
      b.OneBase := by
  rw [aggregateAllTimePct_eq]
  unfold OneBase
  by_cases hshown : 0 < b.value - b.profit ∧ -(b.value - b.profit) ≤ b.profit
  · have hlt : b.profit < b.value := by linarith [hshown.1]
    have hnonneg : 0 ≤ b.value := by linarith [hshown.2]
    have hbase : b.value - b.profit ≠ 0 := hshown.1.ne'
    rw [if_pos hshown]
    simp only [Option.mem_some_iff, forall_eq', forall_prop_of_true hlt,
      forall_prop_of_true hnonneg]
    rcases eq_or_ne b.costBasis 0 with hzero | hcost
    · rw [hzero, percentOf_zero]
      simp only [forall_prop_of_true, ne_eq, not_true_eq_false, false_implies, and_true,
        mul_eq_zero, div_eq_zero_iff, hbase, or_false, OfNat.ofNat_ne_zero]
      unfold profit
      constructor <;> intro h <;> linarith
    · have hgain : percentOf b.gain b.costBasis = b.gain / b.costBasis * 100 := if_pos hcost
      rw [hgain]
      simp only [hcost, false_implies, true_and, ne_eq, not_false_eq_true, forall_prop_of_true]
      rw [mul_left_inj' (by norm_num), div_eq_div_iff hbase hcost]
      unfold profit
      constructor <;> intro h <;> linarith
  · rw [if_neg hshown]
    refine ⟨fun _ hlt hnonneg => absurd ⟨?_, ?_⟩ hshown, fun _ => nofun⟩
    · linarith
    · linarith

end Book

/-- The total value is the sum over the rows, and the percentage of a single manual portfolio is
that of its row whenever both are shown. -/
def TotalsAgree (src : Sources) (portfolios : List PortfolioWithRelations) : Prop :=
  (totals src portfolios).pnlAllTimeValue =
      (portfolios.map fun p => ((portfolioRow src p).pnlAllTimeValue).getD 0).sum ∧
    ∀ p, portfolios = [p] → p.type = .manual → ∀ x ∈ (totals src portfolios).pnlAllTime,
      ∀ y ∈ (portfolioRow src p).pnlAllTime, x = y

section

variable {src : Sources} {p : PortfolioWithRelations}

theorem pnlAllTime_single (hloaded : Loaded src p) (hmanual : p.type = .manual) :
    (totals src [p]).pnlAllTime = aggregateAllTimePct (bookOf src p.id).profit
      ((bookOf src p.id).value - (bookOf src p.id).profit) := by
  obtain ⟨hvalue, -, hprofit⟩ := computeDerived_manual hloaded hmanual
  have hstep : AllTimeSums.step src {} p =
      ⟨(bookOf src p.id).profit, (bookOf src p.id).profit, (bookOf src p.id).value⟩ := by
    unfold AllTimeSums.step canonicalAllTime
    simp only [hmanual, reduceCtorEq, if_false, ne_eq, not_false_eq_true, if_true, zero_add]
    rw [hvalue, hprofit]
    rfl
  unfold totals
  dsimp only
  rw [List.foldl_cons, List.foldl_nil, hstep]

theorem pnlAllTime_row (hloaded : Loaded src p) (hmanual : p.type = .manual) :
    (portfolioRow src p).pnlAllTime =
      some (percentOf (bookOf src p.id).gain (bookOf src p.id).costBasis) := by
  rw [← (computeDerived_manual hloaded hmanual).2.1]
  unfold portfolioRow canonicalAllTime
  dsimp only
  rw [hmanual, if_neg (by decide)]

end

/-- Headline and rows agree. -/
def AlwaysAgree : Prop :=
  ∀ (src : Sources) (portfolios : List PortfolioWithRelations),
    (∀ p ∈ portfolios, Loaded src p) → TotalsAgree src portfolios

/-- Two units bought at 100, one of them sold at 110. -/
def soldOne : List Request :=
  [sampleRequest (.createTransaction (trade .buy ⟨2, amount_2⟩ ⟨100, bounded_100⟩ 10)),
    sampleRequest (.createTransaction (trade .sell ⟨1, amount_1⟩ ⟨110, bounded_110⟩ 20))]

end Neonfi.Overview

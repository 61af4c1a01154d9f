import Neonfi.Ledger.Removal
import Neonfi.Lib.Series
import Neonfi.Overview.Signs
import Neonfi.Snapshots.Model

/-!
# The change over a week and a month

`buildSummary` of `analytics.service.ts` compares the value of a portfolio with the observed
snapshot nearest to 7 and to 30 days ago, and so does `computeShortTermDeltas` of `derive.ts`.  Both
look the baseline up in the same way; they part where it is worth nothing.
-/

namespace Neonfi.Snapshots

open Lib
open Ledger (Millis)

/-! ## The baseline of a window -/

def observedOf (table : SnapshotTable) (portfolioId : ℕ) : List BalanceSnapshot :=
  table.rows.filter fun row => row.portfolioId = portfolioId ∧ row.approx = false

def findSnapshotAtOrBefore (table : SnapshotTable) (portfolioId : ℕ) (cutoffDate : ℤ) :
    Option BalanceSnapshot :=
  latest BalanceSnapshot.snapshotDate (observedOf table portfolioId) cutoffDate

def toleranceDays (daysAgo : ℕ) : ℚ := max 1 (daysAgo * (1 / 4))

/-- The value of the snapshot.  Dates are whole days, the tolerance need not be. -/
def findSnapshotNearDaysAgo (now : Millis) (table : SnapshotTable) (portfolioId daysAgo : ℕ) :
    Option ℚ :=
  let cutoff := dateOf now - daysAgo
  match findSnapshotAtOrBefore table portfolioId cutoff with
  | none => none
  | some snap =>
      let lowerBound := cutoff - toleranceDays daysAgo
      if snap.snapshotDate < lowerBound then none else some snap.value

/-- A baseline is the value of the latest observed snapshot up to the cutoff, if that is within the
tolerance. -/
theorem findSnapshotNearDaysAgo_eq_some_iff {now : Millis} {table : SnapshotTable}
    {portfolioId daysAgo : ℕ} {value : ℚ} :
    findSnapshotNearDaysAgo now table portfolioId daysAgo = some value ↔
      ∃ row ∈ observedOf table portfolioId, row.value = value ∧
        row.snapshotDate ≤ dateOf now - daysAgo ∧
        (dateOf now - daysAgo - toleranceDays daysAgo : ℚ) ≤ row.snapshotDate ∧
        ∀ other ∈ observedOf table portfolioId, other.snapshotDate ≤ dateOf now - daysAgo →
          other.snapshotDate ≤ row.snapshotDate := by
  have hdistinct : ∀ x ∈ observedOf table portfolioId, ∀ y ∈ observedOf table portfolioId,
      x.snapshotDate = y.snapshotDate → x = y := by
    intro x hx y hy hdate
    obtain ⟨hx, hxp⟩ := List.mem_filter.mp hx
    obtain ⟨hy, hyp⟩ := List.mem_filter.mp hy
    simp only [decide_eq_true_eq] at hxp hyp
    exact eq_of_key_eq table.nodup hx hy (Prod.ext (hxp.1.trans hyp.1.symm) hdate)
  unfold findSnapshotNearDaysAgo findSnapshotAtOrBefore
  dsimp only
  constructor
  · intro h
    split at h
    · cases h
    · next snap hsnap =>
        obtain ⟨hmem, hle, hmax⟩ := latest_spec hsnap
        split at h
        · cases h
        · next hnear =>
            refine ⟨snap, hmem, Option.some.inj h, hle, ?_, hmax⟩
            simpa using hnear
  · rintro ⟨row, hmem, rfl, hle, hnear, hmax⟩
    rw [(latest_eq_some_iff hdistinct).mpr ⟨hmem, hle, hmax⟩]
    dsimp only
    rw [if_neg]
    simpa using hnear

end Neonfi.Snapshots

namespace Neonfi.Overview

open Lib Ledger
open Snapshots (SnapshotTable dateOf)

/-- The sources with a snapshot table behind the baselines. -/
def Sources.withSnapshots (src : Sources) (now : Millis) (table : SnapshotTable) : Sources :=
  { src with findSnapshotNearDaysAgo := Snapshots.findSnapshotNearDaysAgo now table }

/-! ## The summary -/

/-- The percentage and the value. -/
def computePnlPeriod (today : ℚ) (pastValue : Option ℚ) : Option ℚ × Option ℚ :=
  match pastValue with
  | none => (none, none)
  | some pastValue =>
      if pastValue = 0 then (none, none)
      else
        let delta := today - pastValue
        (some (delta / pastValue * 100), some delta)

structure SummaryDTO where
  portfolioId : ℕ
  allTimePnlPct : Option ℚ
  allTimePnlValue : Option ℚ
  totalDeposits : Option ℚ
  totalWithdrawals : Option ℚ
  totalInvested : Option ℚ
  realizedPnl : Option ℚ
  pnl7d : Option ℚ
  pnl7dValue : Option ℚ
  pnl30d : Option ℚ
  pnl30dValue : Option ℚ
  deriving DecidableEq, Repr

def buildSummary (src : Sources) (portfolioId : ℕ) (isConnected : Bool) : SummaryDTO :=
  let derived := computeDerived src portfolioId
  let totals := if isConnected then none
    else some (getDepositWithdrawalTotals portfolioId src.db)
  let week := computePnlPeriod derived.totalValue (src.findSnapshotNearDaysAgo portfolioId 7)
  let month := computePnlPeriod derived.totalValue (src.findSnapshotNearDaysAgo portfolioId 30)
  let connectedWithCostBasis := isConnected && derived.pnlAllTimeValue.isSome
  { portfolioId
    allTimePnlPct := derived.pnlAllTime.map round
    allTimePnlValue := derived.pnlAllTimeValue.map round
    totalDeposits := totals.map fun t => round t.totalDeposits
    totalWithdrawals := totals.map fun t => round t.totalWithdrawals
    totalInvested := if connectedWithCostBasis then some (round derived.costBasisTotal) else none
    realizedPnl := if connectedWithCostBasis then some (round derived.realizedPnlValue) else none
    pnl7d := week.1.map round
    pnl7dValue := week.2.map round
    pnl30d := month.1.map round
    pnl30dValue := month.2.map round }

/-! ## The two answers for a window -/

/-- The change over one window. -/
structure PeriodPnl where
  pct : Option ℚ
  value : Option ℚ
  deriving DecidableEq, Repr

def PeriodPnl.rounded (p : PeriodPnl) : PeriodPnl := ⟨p.pct.map round, p.value.map round⟩

def SummaryDTO.week (s : SummaryDTO) : PeriodPnl := ⟨s.pnl7d, s.pnl7dValue⟩

def SummaryDTO.month (s : SummaryDTO) : PeriodPnl := ⟨s.pnl30d, s.pnl30dValue⟩

def ShortTermPnl.week (d : ShortTermPnl) : PeriodPnl := ⟨d.pnl7d, d.pnl7dValue⟩

def ShortTermPnl.month (d : ShortTermPnl) : PeriodPnl := ⟨d.pnl30d, d.pnl30dValue⟩

/-- Over a baseline that is worth something the two computations are one; over one that is worth
nothing the summary knows nothing, and the derived change is the whole value and no percentage. -/
theorem computePnlPeriod_eq (today : ℚ) (base : Option ℚ) :
    computePnlPeriod today base =
      if base = some 0 then (none, none) else (snapshotDelta today base).swap := by
  cases base with
  | none => rfl
  | some b =>
      unfold computePnlPeriod snapshotDelta percentOf
      dsimp only [Option.map_some]
      by_cases hzero : b = 0
      · rw [if_pos hzero, if_pos (congrArg some hzero)]
      · rw [if_neg hzero, if_neg fun h => hzero (Option.some.inj h)]
        rw [if_pos hzero, Prod.swap_prod_mk]

theorem snapshotDelta_zero (today : ℚ) : snapshotDelta today (some 0) = (some today, some 0) := by
  simp [snapshotDelta, percentOf]

/-- What the two answers for one window are to each other. -/
def PeriodsOf (totalValue : ℚ) (base : Option ℚ) (summary derived : PeriodPnl) : Prop :=
  (summary = derived.rounded ↔ base ≠ some 0) ∧
    (base = none → summary = ⟨none, none⟩ ∧ derived = ⟨none, none⟩) ∧
      (base = some 0 → summary = ⟨none, none⟩ ∧ derived = ⟨some 0, some totalValue⟩)

theorem periodsOf (totalValue : ℚ) (base : Option ℚ) :
    PeriodsOf totalValue base
      ⟨(computePnlPeriod totalValue base).1.map round,
        (computePnlPeriod totalValue base).2.map round⟩
      ⟨(snapshotDelta totalValue base).2, (snapshotDelta totalValue base).1⟩ := by
  rw [computePnlPeriod_eq]
  by_cases hzero : base = some 0
  · subst hzero
    rw [if_pos rfl, snapshotDelta_zero]
    exact ⟨⟨nofun, fun h => absurd rfl h⟩, nofun, fun _ => ⟨rfl, rfl⟩⟩
  · rw [if_neg hzero]
    refine ⟨⟨fun _ => hzero, fun _ => rfl⟩, ?_, fun h => absurd h hzero⟩
    rintro rfl
    exact ⟨rfl, rfl⟩

/-- For every history the 7-day and the 30-day change of the summary are the rounded derived ones,
both missing without a baseline, except over a baseline that is worth nothing. -/
theorem summary_periods (src : Sources) (now : Millis) (table : SnapshotTable) (portfolioId : ℕ)
    (isConnected : Bool) :
    let read := src.withSnapshots now table
    let summary := buildSummary read portfolioId isConnected
    let derived := computeDerived read portfolioId
    PeriodsOf derived.totalValue (Snapshots.findSnapshotNearDaysAgo now table portfolioId 7)
        summary.week derived.week ∧
      PeriodsOf derived.totalValue (Snapshots.findSnapshotNearDaysAgo now table portfolioId 30)
        summary.month derived.month :=
  ⟨periodsOf _ _, periodsOf _ _⟩

/-! ## A baseline that is worth nothing -/

/-- The 7-day and the 30-day change of the summary are always the rounded derived ones. -/
def PeriodsAgree : Prop :=
  ∀ (src : Sources) (now : Millis) (table : SnapshotTable) (portfolioId : ℕ) (isConnected : Bool),
    let read := src.withSnapshots now table
    let summary := buildSummary read portfolioId isConnected
    let derived := computeDerived read portfolioId
    summary.week = derived.week.rounded ∧ summary.month = derived.month.rounded

/-- Observed on the day of the epoch, when the portfolio was empty. -/
def emptyWeekAgo : SnapshotTable := ⟨[⟨1, 1, 0, 0, false⟩], List.nodup_singleton _⟩

/-- A week later the summary has no change and the derived one is the whole value. -/
theorem not_periodsAgree : ¬ PeriodsAgree := by
  intro hagree
  have hweek := (hagree (sampleSources soldHalf 150) (7 * Snapshots.DAY_MS) emptyWeekAgo 1
    false).1
  have hbase : Snapshots.findSnapshotNearDaysAgo (7 * Snapshots.DAY_MS) emptyWeekAgo 1 7 =
      some 0 := by decide +kernel
  have hperiods := periodsOf
    (computeDerived ((sampleSources soldHalf 150).withSnapshots (7 * Snapshots.DAY_MS)
      emptyWeekAgo) 1).totalValue
    (Snapshots.findSnapshotNearDaysAgo (7 * Snapshots.DAY_MS) emptyWeekAgo 1 7)
  exact hperiods.1.mp hweek hbase

end Neonfi.Overview

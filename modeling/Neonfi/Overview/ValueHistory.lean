import Mathlib.Data.Finset.Card
import Mathlib.Data.String.Basic
import Neonfi.Lib.Series
import Neonfi.Overview.Model

/-!
# The value history

`buildValueHistory` of `overview.private.ts` adds the snapshot series of several portfolios.  On
each date a portfolio counts with its latest snapshot up to that date.  A date is a text
`YYYY-MM-DD`; only the order of the texts is used, so they are taken from any linear order.
-/

namespace Neonfi.Overview

open Lib

variable {δ : Type*} [LinearOrder δ]

structure HistoryPoint (δ : Type*) where
  date : δ
  value : ℚ
  approx : Bool
  deriving DecidableEq, Repr

/-! ## The loops -/

/-- What the scan of one series has found. -/
structure Carried where
  v : ℚ := 0
  contributed : Bool := false
  pointApprox : Bool := false

/-- The scan ends at the first point after the date. -/
def Carried.scan (date : δ) : Carried → List (HistoryPoint δ) → Carried
  | c, [] => c
  | c, point :: s =>
      if point.date ≤ date then scan date ⟨point.value, true, point.approx⟩ s else c

structure Summed where
  sum : ℚ := 0
  approx : Bool := false

def Summed.step (date : δ) (acc : Summed) (s : List (HistoryPoint δ)) : Summed :=
  let c := Carried.scan date {} s
  { sum := acc.sum + c.v
    approx := if c.contributed && c.pointApprox then true else acc.approx }

def pointOn (series : List (List (HistoryPoint δ))) (date : δ) : HistoryPoint δ :=
  let acc := series.foldl (Summed.step date) {}
  ⟨date, round acc.sum, acc.approx⟩

def allDates (series : List (List (HistoryPoint δ))) : List δ :=
  (series.flatMap fun s => s.map HistoryPoint.date).dedup

/-- `dates.slice(-days)`, which for no days is all of them. -/
def sliceFromEnd (days : ℕ) (dates : List δ) : List δ :=
  if days = 0 then dates else dates.drop (dates.length - days)

def keptDates (series : List (List (HistoryPoint δ))) (days : ℕ) : List δ :=
  sliceFromEnd days ((allDates series).mergeSort fun a b => a ≤ b)

def trimLeading (points : List (HistoryPoint δ)) : List (HistoryPoint δ) :=
  match points.findIdx? fun p => 0 < p.value with
  | none => []
  | some firstNonZero => if firstNonZero = 0 then points else points.drop firstNonZero

def buildValueHistory (series : List (List (HistoryPoint δ))) (days : ℕ) :
    List (HistoryPoint δ) :=
  if (allDates series).length = 0 then []
  else trimLeading ((keptDates series days).map (pointOn series))

/-! ## What the history is -/

/-- The dates on which some portfolio has a snapshot. -/
def snapshotDates (series : List (List (HistoryPoint δ))) : Finset δ :=
  (allDates series).toFinset

/-- The last `days` dates in ascending order. -/
structure LastDates (series : List (List (HistoryPoint δ))) (days : ℕ) (dates : List δ) :
    Prop where
  ascending : dates.Pairwise (· < ·)
  mem_iff : ∀ d, d ∈ dates ↔
    d ∈ snapshotDates series ∧ ((snapshotDates series).filter fun e => d < e).card < days

/-- The latest snapshot of a portfolio up to a date. -/
def snapshotOn (s : List (HistoryPoint δ)) (d : δ) : Option (HistoryPoint δ) :=
  latest HistoryPoint.date s d

/-- The point of a date adds the latest values and marks those that are estimates. -/
structure TotalOf (series : List (List (HistoryPoint δ))) (p : HistoryPoint δ) : Prop where
  value_eq : p.value =
    round (series.map fun s => ((snapshotOn s p.date).map HistoryPoint.value).getD 0).sum
  approx_iff : p.approx = true ↔ ∃ s ∈ series, ∃ q, snapshotOn s p.date = some q ∧ q.approx = true

/-- The totals of the last dates without the leading ones that are not positive. -/
def IsValueHistory (series : List (List (HistoryPoint δ))) (days : ℕ)
    (history : List (HistoryPoint δ)) : Prop :=
  ∃ removed, LastDates series days ((removed ++ history).map HistoryPoint.date) ∧
    (∀ p ∈ removed ++ history, TotalOf series p) ∧ (∀ p ∈ removed, ¬ 0 < p.value) ∧
      ∀ p ∈ history.head?, 0 < p.value

/-! ## One date -/

section

variable {series : List (List (HistoryPoint δ))} {s : List (HistoryPoint δ)} {date : δ}

/-- The scan finds the latest snapshot and takes its value and its mark. -/
theorem scan_eq (h : Ascending HistoryPoint.date s) (c : Carried) :
    Carried.scan date c s =
      ((snapshotOn s date).map fun p => ⟨p.value, true, p.approx⟩).getD c := by
  unfold snapshotOn
  induction s generalizing c with
  | nil => rfl
  | cons point s ih =>
      unfold Carried.scan
      by_cases hle : point.date ≤ date
      · rw [if_pos hle, ih h.tail, h.latest_of_head_le hle]
        cases latest HistoryPoint.date s date with
        | none => rfl
        | some p => rfl
      · rw [if_neg hle, h.latest_of_head_lt (not_le.mp hle)]
        rfl

/-- The series adds its latest value. -/
theorem sum_step (h : Ascending HistoryPoint.date s) (acc : Summed) :
    (acc.step date s).sum =
      acc.sum + ((snapshotOn s date).map HistoryPoint.value).getD 0 := by
  unfold Summed.step
  rw [scan_eq h]
  cases snapshotOn s date with
  | none => rfl
  | some p => rfl

/-- The series marks the sum when its latest snapshot is an estimate. -/
theorem approx_step (h : Ascending HistoryPoint.date s) (acc : Summed) :
    (acc.step date s).approx = true ↔
      acc.approx = true ∨ ∃ q, snapshotOn s date = some q ∧ q.approx = true := by
  unfold Summed.step
  rw [scan_eq h]
  cases snapshotOn s date with
  | none => simp
  | some p => cases hp : p.approx <;> simp [hp]

theorem sum_foldl (h : ∀ s ∈ series, Ascending HistoryPoint.date s) (acc : Summed) :
    (series.foldl (Summed.step date) acc).sum =
      acc.sum + (series.map fun s =>
        ((snapshotOn s date).map HistoryPoint.value).getD 0).sum := by
  induction series generalizing acc with
  | nil => simp
  | cons s series ih =>
      obtain ⟨hs, hrest⟩ := List.forall_mem_cons.mp h
      rw [List.foldl_cons, ih hrest, sum_step hs, List.map_cons, List.sum_cons, add_assoc]

theorem approx_foldl (h : ∀ s ∈ series, Ascending HistoryPoint.date s) (acc : Summed) :
    (series.foldl (Summed.step date) acc).approx = true ↔
      acc.approx = true ∨ ∃ s ∈ series, ∃ q, snapshotOn s date = some q ∧ q.approx = true := by
  induction series generalizing acc with
  | nil => simp
  | cons s series ih =>
      obtain ⟨hs, hrest⟩ := List.forall_mem_cons.mp h
      rw [List.foldl_cons, ih hrest, approx_step hs]
      simp only [List.mem_cons, exists_eq_or_imp, or_assoc]

theorem totalOf_pointOn (h : ∀ s ∈ series, Ascending HistoryPoint.date s) (date : δ) :
    TotalOf series (pointOn series date) where
  value_eq := by
    unfold pointOn
    dsimp only
    rw [sum_foldl h, zero_add]
  approx_iff := by
    unfold pointOn
    dsimp only
    rw [approx_foldl h]
    simp

end

/-! ## The dates -/

section

variable {series : List (List (HistoryPoint δ))} {days : ℕ}

theorem sorted_allDates :
    ((allDates series).mergeSort fun a b => a ≤ b).Pairwise (· < ·) := by
  have hsorted := (allDates series).pairwise_mergeSort' (· ≤ ·)
  have hnodup : ((allDates series).mergeSort fun a b => a ≤ b).Nodup :=
    (List.mergeSort_perm _ _).nodup_iff.mpr (List.nodup_dedup _)
  exact (hsorted.and hnodup).imp fun h => lt_of_le_of_ne h.1 h.2

/-- The dates behind a date, counted in the sorted list or in the set. -/
theorem length_filter_sorted (d : δ) :
    (((allDates series).mergeSort fun a b => a ≤ b).filter fun e => d < e).length =
      ((snapshotDates series).filter fun e => d < e).card := by
  have hset : ((snapshotDates series).filter fun e => d < e) =
      ((allDates series).filter fun e => d < e).toFinset := by
    unfold snapshotDates
    ext e
    simp
  rw [((List.mergeSort_perm (allDates series) fun a b => a ≤ b).filter _).length_eq, hset,
    List.toFinset_card_of_nodup]
  exact (List.nodup_dedup _).filter _

theorem lastDates_keptDates (hdays : 1 ≤ days) :
    LastDates series days (keptDates series days) := by
  unfold keptDates sliceFromEnd
  rw [if_neg (by omega)]
  constructor
  · exact sorted_allDates.sublist (List.drop_sublist _ _)
  · intro d
    rw [mem_drop_length_sub_iff sorted_allDates, length_filter_sorted,
      (List.mergeSort_perm _ _).mem_iff]
    unfold snapshotDates
    rw [List.mem_toFinset]

end

/-! ## The trimmed history -/

omit [LinearOrder δ] in
/-- What is trimmed is not positive, and what stays begins with a positive point. -/
theorem trimLeading_spec (points : List (HistoryPoint δ)) :
    ∃ removed, points = removed ++ trimLeading points ∧ (∀ p ∈ removed, ¬ 0 < p.value) ∧
      ∀ p ∈ (trimLeading points).head?, 0 < p.value := by
  unfold trimLeading
  cases hidx : points.findIdx? fun p => 0 < p.value with
  | none =>
      rw [List.findIdx?_eq_none_iff] at hidx
      refine ⟨points, (List.append_nil points).symm, ?_, nofun⟩
      intro p hp
      simpa using hidx p hp
  | some i =>
      obtain ⟨hi, hpos, hbefore⟩ := List.findIdx?_eq_some_iff_getElem.mp hidx
      have hdrop : (if i = 0 then points else points.drop i) = points.drop i := by
        by_cases hzero : i = 0
        · rw [if_pos hzero, hzero, List.drop_zero]
        · rw [if_neg hzero]
      dsimp only
      rw [hdrop]
      refine ⟨points.take i, (List.take_append_drop i points).symm, ?_, ?_⟩
      · intro p hp
        obtain ⟨j, hj, rfl⟩ := List.mem_take_iff_getElem.mp hp
        simpa using hbefore j (by omega)
      · intro p hp
        rw [List.head?_drop, List.getElem?_eq_getElem hi] at hp
        rw [← Option.some.inj hp]
        simpa using hpos

/-- The window of two days begins with an estimate from before it. -/
def carriedIn : List (List (HistoryPoint String)) :=
  [[⟨"2024-01-01", 10, true⟩, ⟨"2024-01-04", 12, false⟩],
    [⟨"2024-01-02", 0, false⟩, ⟨"2024-01-03", 5, false⟩]]

end Neonfi.Overview

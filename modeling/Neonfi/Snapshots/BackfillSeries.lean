import Mathlib.Data.Int.SuccPred
import Neonfi.Lib.Carry
import Neonfi.Lib.LastWrite
import Neonfi.Snapshots.Model

/-!
# The price series of the demo backfill

`buildRealSeries` turns raw price points into one price for each of the last `DAYS` days.  The
dates of the points may begin before the first of these days or leave gaps, and the points of one
date count as their last.
-/

namespace Neonfi.Snapshots

open Lib
open Ledger (Millis)

/-! ## The source -/

/-- A raw point.  A price that is null or not a finite number is `none`. -/
structure PricePoint where
  ts : Millis
  price : Option ℚ
  deriving DecidableEq, Repr

/-- `dateStringForOffset`: the last index is today. -/
def ymdByIndex (today : ℤ) (i : ℕ) : ℤ := today - (DAYS - 1 - i : ℕ)

/-- The map from dates to prices; a later point of a date replaces the earlier one. -/
def byDate (prices : List PricePoint) : Table (ℤ × ℚ) ℤ Prod.fst :=
  prices.foldl
    (fun byDate p =>
      match p.price with
      | some price => byDate.set (dateOf p.ts, price)
      | none => byDate)
    .empty

def buildRealSeries (prices : List PricePoint) (ymdByIndex : ℕ → ℤ) : Option (List ℚ) :=
  let get := fun d => ((byDate prices).find? d).map Prod.snd
  if (byDate prices).rows = [] then none
  else do
    let dates := ((byDate prices).rows.map Prod.fst).insertionSort (· ≤ ·)
    let firstKnown ← dates.head?.bind get
    let latest ← dates.getLast?.bind get
    let out := carried get firstKnown ((List.range DAYS).map ymdByIndex)
    some (out.set (DAYS - 1) latest)

/-! ## The known prices -/

/-- The last price of a date. -/
def knownPrice (prices : List PricePoint) (date : ℤ) : Option ℚ :=
  (lastOn Prod.fst
    (prices.filterMap fun p => p.price.map fun price => (dateOf p.ts, price)) date).map Prod.snd

def knownDates (prices : List PricePoint) : Set ℤ := {d | knownPrice prices d ≠ none}

section Known

variable {prices : List PricePoint} {d : ℤ}

theorem find?_byDate : ((byDate prices).find? d).map Prod.snd = knownPrice prices d := by
  unfold byDate knownPrice
  rw [← find?_foldl_set, List.foldl_filterMap]
  congr 3
  funext T p
  cases p.price <;> rfl

theorem mem_knownDates_iff : d ∈ knownDates prices ↔ d ∈ (byDate prices).rows.map Prod.fst := by
  unfold knownDates
  rw [Set.mem_ofPred_eq, ← find?_byDate, ne_eq, Option.map_eq_none_iff, Table.find?_eq_none_iff]
  simp

theorem mem_knownDates_iff_exists :
    d ∈ knownDates prices ↔ ∃ p ∈ prices, p.price ≠ none ∧ dateOf p.ts = d := by
  unfold knownDates knownPrice
  rw [Set.mem_ofPred_eq, ne_eq, Option.map_eq_none_iff, lastOn_eq_none_iff]
  push Not
  constructor
  · rintro ⟨entry, hentry, rfl⟩
    obtain ⟨p, hp, hprice⟩ := List.mem_filterMap.mp hentry
    obtain ⟨price, hsome, rfl⟩ := Option.map_eq_some_iff.mp hprice
    refine ⟨p, hp, ?_, rfl⟩
    rw [hsome]
    exact Option.some_ne_none price
  · rintro ⟨p, hp, hprice, rfl⟩
    obtain ⟨price, hsome⟩ := Option.ne_none_iff_exists'.mp hprice
    refine ⟨(dateOf p.ts, price), List.mem_filterMap.mpr ⟨p, hp, ?_⟩, rfl⟩
    rw [hsome]
    rfl

/-- The first of the sorted dates is the oldest known one, and the last is the latest. -/
theorem isLeast_of_head? {dates : List ℤ} {o : ℤ}
    (h : (dates.insertionSort (· ≤ ·)).head? = some o) : IsLeast {e | e ∈ dates} o := by
  have hsorted := List.pairwise_insertionSort (· ≤ ·) dates
  have hmem : ∀ e, e ∈ dates.insertionSort (· ≤ ·) ↔ e ∈ dates :=
    fun e => List.mem_insertionSort (· ≤ ·)
  cases hlist : dates.insertionSort (· ≤ ·) with
  | nil =>
      rw [hlist] at h
      cases h
  | cons a rest =>
      rw [hlist] at h hsorted hmem
      cases h
      refine ⟨(hmem o).mp List.mem_cons_self, fun e he => ?_⟩
      rcases List.mem_cons.mp ((hmem e).mpr he) with rfl | he
      · exact le_rfl
      · exact (List.pairwise_cons.mp hsorted).1 e he

theorem isGreatest_of_getLast? {dates : List ℤ} {o : ℤ}
    (h : (dates.insertionSort (· ≤ ·)).getLast? = some o) : IsGreatest {e | e ∈ dates} o := by
  have hsorted := List.pairwise_insertionSort (· ≤ ·) dates
  have hmem : ∀ e, e ∈ dates.insertionSort (· ≤ ·) ↔ e ∈ dates :=
    fun e => List.mem_insertionSort (· ≤ ·)
  obtain ⟨init, hlist⟩ := List.getLast?_eq_some_iff.mp h
  rw [hlist] at hsorted hmem
  refine ⟨(hmem o).mp (List.mem_append_right _ List.mem_cons_self), fun e he => ?_⟩
  rcases List.mem_append.mp ((hmem e).mpr he) with he | he
  · exact (List.pairwise_append.mp hsorted).2.2 e he o List.mem_cons_self
  · exact (List.mem_singleton.mp he).le

theorem buildRealSeries_of_none (ymd : ℕ → ℤ) (h : ∀ p ∈ prices, p.price = none) :
    buildRealSeries prices ymd = none := by
  have hrows : (byDate prices).rows = [] := by
    rw [← List.map_eq_nil_iff (f := Prod.fst), List.eq_nil_iff_forall_not_mem]
    intro e he
    obtain ⟨p, hp, hprice, -⟩ := mem_knownDates_iff_exists.mp (mem_knownDates_iff.mpr he)
    exact hprice (h p hp)
  unfold buildRealSeries
  exact if_pos hrows

/-- With a known price the series starts on the oldest one and ends on the latest. -/
theorem buildRealSeries_of_known (ymd : ℕ → ℤ) (h : (knownDates prices).Nonempty) :
    ∃ o e firstKnown latest, IsLeast (knownDates prices) o ∧
      knownPrice prices o = some firstKnown ∧ IsGreatest (knownDates prices) e ∧
      knownPrice prices e = some latest ∧
      buildRealSeries prices ymd =
        some ((carried (knownPrice prices) firstKnown ((List.range DAYS).map ymd)).set (DAYS - 1)
          latest) := by
  have hdates : {e | e ∈ (byDate prices).rows.map Prod.fst} = knownDates prices :=
    Set.ext fun e => mem_knownDates_iff.symm
  have hget : (fun d => ((byDate prices).find? d).map Prod.snd) = knownPrice prices :=
    funext fun d => find?_byDate
  obtain ⟨d, hd⟩ := h
  have hrows : (byDate prices).rows ≠ [] := by
    intro hnil
    have hmem := mem_knownDates_iff.mp hd
    rw [hnil] at hmem
    cases hmem
  have hne : ((byDate prices).rows.map Prod.fst).insertionSort (· ≤ ·) ≠ [] :=
    List.ne_nil_of_mem ((List.mem_insertionSort _).mpr (mem_knownDates_iff.mp hd))
  have hhead := List.head?_eq_some_head hne
  have hlast := List.getLast?_eq_some_getLast hne
  have hleast := isLeast_of_head? hhead
  have hgreatest := isGreatest_of_getLast? hlast
  rw [hdates] at hleast hgreatest
  obtain ⟨firstKnown, hfirst⟩ := Option.ne_none_iff_exists'.mp hleast.1
  obtain ⟨latest, hlatest⟩ := Option.ne_none_iff_exists'.mp hgreatest.1
  refine ⟨_, _, firstKnown, latest, hleast, hfirst, hgreatest, hlatest, ?_⟩
  unfold buildRealSeries
  simp only [hget]
  rw [if_neg hrows, hhead, hlast]
  dsimp only [Option.bind_eq_bind, Option.bind_some]
  rw [hfirst, hlatest]
  rfl

end Known

/-! ## What the series says -/

/-- Each target day has the last price of the latest known date up to it, or the oldest price if
there is none; the series ends on the latest price, and is missing only if no price is known. -/
def FollowsKnown (prices : List PricePoint) (today : ℤ) (series : Option (List ℚ)) : Prop :=
  (series = none ↔ ∀ p ∈ prices, p.price = none) ∧
    ∀ out, series = some out →
      List.Forall₂ (Prevails (knownPrice prices)) ((List.range DAYS).map (ymdByIndex today)) out ∧
      ∃ e, IsGreatest (knownDates prices) e ∧ out.getLast? = knownPrice prices e

/-- If the first day is unknown, the latest price from before it is the oldest price. -/
def StartsOnOldest (prices : List PricePoint) (first : ℤ) : Prop :=
  knownPrice prices first = none → ∀ o e, IsLeast (knownDates prices) o →
    IsGreatest {e | e ∈ knownDates prices ∧ e < first} e →
      knownPrice prices e = knownPrice prices o

section Series

variable {prices : List PricePoint} {today first o : ℤ} {firstKnown : ℚ}

theorem ymdByIndex_covBy {i : ℕ} (h : i + 1 < DAYS) :
    ymdByIndex today i ⋖ ymdByIndex today (i + 1) := by
  rw [Order.covBy_iff_add_one_eq]
  unfold ymdByIndex
  omega

/-- The target days before today are consecutive, from the first one on. -/
theorem targetDays_eq :
    ∃ days, (List.range DAYS).map (ymdByIndex today) =
        (ymdByIndex today 0 :: days) ++ [today] ∧
      (ymdByIndex today 0 :: days).length = DAYS - 1 ∧
      (ymdByIndex today 0 :: days).IsChain (· ⋖ ·) := by
  have hlast : ymdByIndex today (DAYS - 1) = today := by
    unfold ymdByIndex
    simp
  have hfirst : (List.range (DAYS - 1)).map (ymdByIndex today) =
      ymdByIndex today 0 :: (List.range (DAYS - 2)).map fun i => ymdByIndex today (i + 1) := by
    rw [show DAYS - 1 = DAYS - 2 + 1 from rfl, List.range_succ_eq_map, List.map_cons, List.map_map]
    rfl
  refine ⟨(List.range (DAYS - 2)).map fun i => ymdByIndex today (i + 1), ?_, ?_, ?_⟩
  · rw [← hfirst, show DAYS = DAYS - 1 + 1 from rfl, List.range_succ, List.map_append,
      List.map_singleton]
    rw [hlast]
    rfl
  · rw [← hfirst, List.length_map, List.length_range]
  · rw [← hfirst, List.isChain_iff_getElem]
    intro i hi
    rw [List.length_map, List.length_range] at hi
    simp only [List.getElem_map, List.getElem_range]
    exact ymdByIndex_covBy (by omega)

theorem exists_latest_before (hunknown : knownPrice prices first = none)
    (hearly : ∃ d ∈ knownDates prices, d ≤ first) :
    ∃ e, IsGreatest {e | e ∈ knownDates prices ∧ e < first} e := by
  obtain ⟨d, hd, hle⟩ := hearly
  have hne : d ≠ first := by
    rintro rfl
    exact hd hunknown
  obtain ⟨e, he, hmax⟩ := Int.exists_greatest_of_bdd
    (P := fun e => e ∈ knownDates prices ∧ e < first) ⟨first, fun e he => he.2.le⟩
    ⟨d, hd, lt_of_le_of_ne hle hne⟩
  exact ⟨e, he, hmax⟩

/-- On an unknown day the latest price from before it prevails. -/
theorem prevails_of_latest_before {e : ℤ} {v : ℚ} (hunknown : knownPrice prices first = none)
    (he : IsGreatest {e | e ∈ knownDates prices ∧ e < first} e)
    (hv : knownPrice prices e = some v) : Prevails (knownPrice prices) first v := by
  refine ⟨e, hv, .inl ⟨⟨he.1.1, he.1.2.le⟩, fun f hf => ?_⟩⟩
  have hne : f ≠ first := by
    rintro rfl
    exact hf.1 hunknown
  exact he.2 ⟨hf.1, lt_of_le_of_ne hf.2 hne⟩

/-- The oldest price prevails on an unknown first day exactly when it is the latest price from
before that day, or there is none. -/
theorem startsOnOldest_iff (hleast : IsLeast (knownDates prices) o)
    (hfirst : knownPrice prices o = some firstKnown) :
    StartsOnOldest prices first ↔
      (knownPrice prices first = none → Prevails (knownPrice prices) first firstKnown) := by
  constructor
  · intro hstarts hunknown
    by_cases hearly : ∃ d ∈ knownDates prices, d ≤ first
    · obtain ⟨e, he⟩ := exists_latest_before hunknown hearly
      exact prevails_of_latest_before hunknown he ((hstarts hunknown o e hleast he).trans hfirst)
    · push Not at hearly
      exact ⟨o, hfirst, .inr ⟨hearly, hleast⟩⟩
  · intro hprevails hunknown o' e hleast' he
    obtain rfl := hleast.unique hleast'
    obtain ⟨v, hv⟩ := Option.ne_none_iff_exists'.mp he.1.1
    have hlatest := prevails_of_latest_before hunknown he hv
    rw [hv, hfirst, hlatest.unique (hprevails hunknown)]

/-- On the last target day the latest price prevails. -/
theorem prevails_today {e : ℤ} {latest : ℚ} (hwindow : ∀ p ∈ prices, dateOf p.ts ≤ today)
    (hgreatest : IsGreatest (knownDates prices) e) (hlatest : knownPrice prices e = some latest) :
    Prevails (knownPrice prices) today latest := by
  have hle : ∀ f ∈ knownDates prices, f ≤ today := by
    intro f hf
    obtain ⟨p, hp, -, rfl⟩ := mem_knownDates_iff_exists.mp hf
    exact hwindow p hp
  exact ⟨e, hlatest, .inl ⟨⟨hgreatest.1, hle e hgreatest.1⟩, fun f hf => hgreatest.2 hf.1⟩⟩

/-- For points that are not after today the series gives every target day its price exactly when
an unknown first day is not preceded by a latest price other than the oldest. -/
theorem buildRealSeries_follows_iff (prices : List PricePoint) (today : ℤ)
    (hwindow : ∀ p ∈ prices, dateOf p.ts ≤ today) :
    FollowsKnown prices today (buildRealSeries prices (ymdByIndex today)) ↔
      StartsOnOldest prices (ymdByIndex today 0) := by
  by_cases hknown : (knownDates prices).Nonempty
  · obtain ⟨o, e, firstKnown, latest, hleast, hfirst, hgreatest, hlatest, hseries⟩ :=
      buildRealSeries_of_known (ymdByIndex today) hknown
    obtain ⟨days, hdays, hlength, hchain⟩ := @targetDays_eq today
    have hout : (carried (knownPrice prices) firstKnown
        ((List.range DAYS).map (ymdByIndex today))).set (DAYS - 1) latest =
        carried (knownPrice prices) firstKnown (ymdByIndex today 0 :: days) ++ [latest] := by
      rw [hdays, ← hlength, set_carried_concat]
    have htoday := prevails_today hwindow hgreatest hlatest
    rw [hseries, hout, startsOnOldest_iff hleast hfirst, ← forall₂_carried_iff hchain]
    constructor
    · rintro ⟨-, hfollows⟩
      have hall := (hfollows _ rfl).1
      rw [hdays, forall₂_concat_iff (length_carried _).symm] at hall
      exact hall.1
    · intro hinit
      refine ⟨iff_of_false nofun fun hnone => ?_, ?_⟩
      · obtain ⟨p, hp, hprice, -⟩ := mem_knownDates_iff_exists.mp hleast.1
        exact hprice (hnone p hp)
      · rintro _ ⟨⟩
        refine ⟨?_, e, hgreatest, ?_⟩
        · rw [hdays, forall₂_concat_iff (length_carried _).symm]
          exact ⟨hinit, htoday⟩
        · rw [List.getLast?_concat, hlatest]
  · have hnone : ∀ p ∈ prices, p.price = none := by
      intro p hp
      by_contra hprice
      exact hknown ⟨_, mem_knownDates_iff_exists.mpr ⟨p, hp, hprice, rfl⟩⟩
    rw [buildRealSeries_of_none _ hnone]
    refine iff_of_true ⟨iff_of_true rfl hnone, nofun⟩ ?_
    intro _ o e hleast _
    exact absurd ⟨o, hleast.1⟩ hknown

end Series

/-- A price at the noon of a day. -/
def noonPoint (day : ℤ) (price : ℚ) : PricePoint := ⟨day * DAY_MS + 43200000, some price⟩

/-- The history begins on the first target day. -/
theorem follows_coveredHistory :
    FollowsKnown [noonPoint 636 1, noonPoint 700 3] 1000
      (buildRealSeries [noonPoint 636 1, noonPoint 700 3] (ymdByIndex 1000)) := by
  refine (buildRealSeries_follows_iff _ 1000 (by decide +kernel)).mpr fun hunknown => ?_
  exact absurd hunknown (by decide +kernel)

/-! ## Two dates before the window -/

/-- The last point before the first target day, 636, is of day 620. -/
def earlyHistory : List PricePoint := [noonPoint 600 1, noonPoint 620 2, noonPoint 700 3]

theorem earlyHistory_starts_stale :
    earlyHistory.Pairwise (fun p q => p.ts < q.ts) ∧ (∀ p ∈ earlyHistory, dateOf p.ts ≤ 1000) ∧
      ymdByIndex 1000 0 = 636 ∧ Prevails (knownPrice earlyHistory) 636 2 ∧
      (buildRealSeries earlyHistory (ymdByIndex 1000)).bind List.head? = some 1 ∧
      ¬ FollowsKnown earlyHistory 1000 (buildRealSeries earlyHistory (ymdByIndex 1000)) := by
  have hknown : knownDates earlyHistory = {600, 620, 700} := by
    ext d
    rw [mem_knownDates_iff_exists]
    simp [earlyHistory, noonPoint, dateOf, DAY_MS, eq_comm]
  have hprevails : Prevails (knownPrice earlyHistory) 636 2 := by
    refine ⟨620, by decide +kernel, .inl ⟨⟨by decide +kernel, by decide⟩, ?_⟩⟩
    rintro e ⟨he, hle⟩
    have hmem : e ∈ knownDates earlyHistory := he
    rw [hknown] at hmem
    simp at hmem
    omega
  have hhead : (buildRealSeries earlyHistory (ymdByIndex 1000)).bind List.head? = some 1 := by
    decide +kernel
  refine ⟨by decide +kernel, by decide +kernel, by decide, hprevails, hhead, fun hfollows => ?_⟩
  obtain ⟨out, hout, hfirst⟩ := Option.bind_eq_some_iff.mp hhead
  have hall := (hfollows.2 out hout).1
  obtain ⟨days, hdays, -, -⟩ := @targetDays_eq 1000
  obtain ⟨rest, rfl⟩ := List.head?_eq_some_iff.mp hfirst
  rw [hdays, List.cons_append] at hall
  have hone : Prevails (knownPrice earlyHistory) 636 1 := (List.forall₂_cons.mp hall).1
  exact absurd (hone.unique hprevails) (by decide)

end Neonfi.Snapshots

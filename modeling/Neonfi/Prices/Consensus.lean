import Neonfi.Prices.Resolver

/-!
# Which price is published

The candidates that agree with their median decide: two or more of them keep the others out,
and the one of the highest priority among them is written.  An interval with a strict majority
of the candidates bounds the written price; where fewer than two agree with the median, the
candidate of the highest priority is written.
-/

namespace Neonfi.Prices

open Lib
open Ledger (Millis)

/-! ## The highest priority -/

/-- The source of the highest priority. -/
structure Top (fresh : Sources) (s : Source) : Prop where
  mem : s ∈ fresh.rows
  le : ∀ t ∈ fresh.rows, sourcePriority s.1 ≤ sourcePriority t.1

namespace Top

variable {fresh : Sources} {s t : Source}

theorem unique (hs : Top fresh s) (ht : Top fresh t) : s = t := by
  have hkey : s.1 = t.1 :=
    sourcePriority_injective (le_antisymm (hs.le t ht.mem) (ht.le s hs.mem))
  exact eq_of_key_eq fresh.nodup hs.mem ht.mem hkey

/-- A top source that a filter keeps is the top of what is left. -/
theorem filter {p : Source → Bool} (hs : Top fresh s) (hp : p s = true) :
    Top (fresh.filter p) s where
  mem := List.mem_filter.mpr ⟨hs.mem, hp⟩
  le t ht := hs.le t (List.mem_of_mem_filter ht)

end Top

theorem bestSource_cons (s : Source) (rows : List Source) :
    ∃ best, bestSource (s :: rows) = some best ∧ best ∈ s :: rows ∧
      ∀ t ∈ s :: rows, sourcePriority best.1 ≤ sourcePriority t.1 := by
  show ∃ best, rows.foldl _ (some s) = some best ∧ _
  induction rows generalizing s with
  | nil => exact ⟨s, rfl, by simp, by simp⟩
  | cons x rows ih =>
      rw [List.foldl_cons]
      by_cases hlt : sourcePriority x.1 < sourcePriority s.1
      · obtain ⟨best, hbest, hmem, hle⟩ := ih x
        refine ⟨best, by simpa [hlt] using hbest, List.mem_cons_of_mem s hmem, ?_⟩
        intro t ht
        rcases List.mem_cons.mp ht with rfl | ht
        · exact (hle x List.mem_cons_self).trans hlt.le
        · exact hle t ht
      · obtain ⟨best, hbest, hmem, hle⟩ := ih s
        refine ⟨best, by simpa [hlt] using hbest, ?_, ?_⟩
        · rcases List.mem_cons.mp hmem with rfl | hmem
          · exact List.mem_cons_self
          · exact List.mem_cons_of_mem s (List.mem_cons_of_mem x hmem)
        · intro t ht
          have hs := hle s List.mem_cons_self
          rcases List.mem_cons.mp ht with rfl | ht
          · exact hs
          · rcases List.mem_cons.mp ht with rfl | ht
            · omega
            · exact hle t (List.mem_cons_of_mem s ht)

theorem exists_top {fresh : Sources} (h : fresh.rows ≠ []) :
    ∃ s, bestSource fresh.rows = some s ∧ Top fresh s := by
  cases hrows : fresh.rows with
  | nil => exact absurd hrows h
  | cons x rows =>
      obtain ⟨best, hbest, hmem, hle⟩ := bestSource_cons x rows
      exact ⟨best, hbest, ⟨hrows ▸ hmem, hrows ▸ hle⟩⟩

instance : Std.Total byPriority where
  total a b := by
    rcases lt_trichotomy (sourcePriority a.1) (sourcePriority b.1) with hlt | heq | hlt
    · exact .inl (.inl hlt)
    · rcases le_total a.2.ts b.2.ts with hts | hts
      · exact .inr (.inr ⟨heq.symm, hts⟩)
      · exact .inl (.inr ⟨heq, hts⟩)
    · exact .inr (.inl hlt)

instance : IsTrans Source byPriority where
  trans a b c hab hbc := by
    rcases hab with hab | ⟨hab, hts⟩
    · rcases hbc with hbc | ⟨hbc, -⟩
      · exact .inl (hab.trans hbc)
      · exact .inl (hbc ▸ hab)
    · rcases hbc with hbc | ⟨hbc, hts'⟩
      · exact .inl (hab ▸ hbc)
      · exact .inr ⟨hab.trans hbc, hts'.trans hts⟩

theorem top_of_head? {fresh : Sources} {s : Source}
    (h : (fresh.rows.insertionSort byPriority).head? = some s) : Top fresh s := by
  have hsorted := List.pairwise_insertionSort byPriority fresh.rows
  have hmem : ∀ t, t ∈ fresh.rows.insertionSort byPriority ↔ t ∈ fresh.rows :=
    fun t => List.mem_insertionSort byPriority
  cases hlist : fresh.rows.insertionSort byPriority with
  | nil => simp [hlist] at h
  | cons x rest =>
      rw [hlist] at h hsorted hmem
      obtain rfl : x = s := by simpa using h
      refine ⟨(hmem x).mp List.mem_cons_self, fun t ht => ?_⟩
      rcases List.mem_cons.mp ((hmem t).mpr ht) with rfl | ht
      · exact le_rfl
      · rcases (List.pairwise_cons.mp hsorted).1 t ht with hlt | ⟨heq, -⟩
        · exact hlt.le
        · exact heq.le

theorem exists_winner {ratio : ℚ} {now : Millis} {raws : Exchange → Option Raw}
    (h : (dropOutliers ratio (candidates now raws)).rows ≠ []) :
    ∃ s, winner ratio now raws = some s := by
  have hne : (dropOutliers ratio (candidates now raws)).rows.insertionSort byPriority ≠ [] :=
    fun hnil => h (by simpa using congrArg List.length hnil)
  exact ⟨_, List.head?_eq_some_head hne⟩

/-! ## What a resolution writes -/

/-- The values that the commands put under the canonical key. -/
def written (writes : List Write) : List Canonical :=
  writes.filterMap fun
    | .set _ payload _ => some payload
    | _ => none

theorem written_resolveCanonical (ratio : ℚ) (sym : String) (now : Millis)
    (raws : Exchange → Option Raw) (book : Bookkeeping) :
    written (resolveCanonical ratio sym now raws book).1 =
      ((winner ratio now raws).map
        (canonicalOf now (mergeKraken (freshSources now raws)).2)).toList := by
  unfold resolveCanonical
  cases winner ratio now raws with
  | none => rfl
  | some s =>
      have hpublish : ∀ (book : Bookkeeping) payload,
          written (book.publish sym payload).1 = [] := by
        intro book payload
        unfold Bookkeeping.publish
        split <;> rfl
      have hsample : ∀ book : Bookkeeping, written (book.sample sym now s.2.price).1 = [] := by
        intro book
        unfold Bookkeeping.sample
        dsimp only
        split <;> rfl
      have happend : ∀ xs ys, written (xs ++ ys) = written xs ++ written ys :=
        fun _ _ => List.filterMap_append
      dsimp only
      show _ :: written (_ ++ _) = _
      rw [happend, hpublish, hsample]
      rfl

section Resolution

variable {ratio : ℚ} {now : Millis} {raws : Exchange → Option Raw} {s : Source}

theorem length_keptSources_le (ratio : ℚ) (fresh : Sources) :
    (keptSources ratio fresh).rows.length ≤ fresh.rows.length :=
  List.length_filter_le _ _

/-- Two or more candidates that agree with the median decide. -/
theorem winner_top_kept (hkept : 2 ≤ (keptSources ratio (candidates now raws)).rows.length)
    (hwinner : winner ratio now raws = some s) :
    Top (keptSources ratio (candidates now raws)) s := by
  have hfresh := hkept.trans (length_keptSources_le ratio (candidates now raws))
  have hdrop : dropOutliers ratio (candidates now raws) =
      keptSources ratio (candidates now raws) := by
    unfold dropOutliers
    rw [if_pos hfresh]
    exact if_pos hkept
  unfold winner at hwinner
  rw [hdrop] at hwinner
  exact top_of_head? hwinner

/-- With at most one that does, the highest priority decides. -/
theorem winner_top (hkept : (keptSources ratio (candidates now raws)).rows.length ≤ 1)
    (hwinner : winner ratio now raws = some s) : Top (candidates now raws) s := by
  have htop := top_of_head? hwinner
  unfold dropOutliers at htop
  split at htop
  · next hfresh =>
      have hne : (candidates now raws).rows ≠ [] := by
        intro hnil
        simp [hnil] at hfresh
      have hfew : ¬ 2 ≤ (keptSources ratio (candidates now raws)).rows.length := by omega
      rw [if_neg hfew] at htop
      obtain ⟨best, hbest, hbestTop⟩ := exists_top hne
      have hs := (List.mem_filter.mp htop.mem).2
      rw [hbest] at hs
      have heq : best = s := by simpa using hs
      exact heq ▸ hbestTop
  · exact htop

end Resolution

/-! ## A majority bounds the price -/

/-- A strict majority of the sources are priced in `[a, b]`. -/
def MajorityIn (fresh : Sources) (a b : ℚ) : Prop :=
  fresh.rows.length < 2 * fresh.rows.countP fun s => decide (a ≤ s.2.price ∧ s.2.price ≤ b)

instance (fresh : Sources) (a b : ℚ) : Decidable (MajorityIn fresh a b) :=
  inferInstanceAs (Decidable (_ < _))

theorem MajorityIn.median {fresh : Sources} {a b : ℚ} (h : MajorityIn fresh a b) :
    a ≤ medianPrice fresh ∧ medianPrice fresh ≤ b := by
  refine median_mem_of_majority ?_
  rw [List.length_map, List.countP_map]
  exact h

theorem within_of_mem {ratio : OutlierRatio} {a b m p : ℚ} (ha : 0 < a) (hab : b ≤ ratio * a)
    (hm : a ≤ m ∧ m ≤ b) (hp : a ≤ p ∧ p ≤ b) : Within ratio m p := by
  have hratio : (0 : ℚ) < ratio := by linarith [ratio.property]
  constructor
  · calc m / ratio ≤ ratio * a / ratio := by gcongr; exact hm.2.trans hab
      _ = a := by field_simp
      _ ≤ p := hp.1
  · calc p ≤ ratio * a := hp.2.trans hab
      _ = a * ratio := mul_comm _ _
      _ ≤ m * ratio := by gcongr; exact hm.1

/-- A majority within the ratio of each other all agree with the median. -/
theorem MajorityIn.countP_le_kept {ratio : OutlierRatio} {fresh : Sources} {a b : ℚ} (ha : 0 < a)
    (hab : b ≤ ratio * a) (h : MajorityIn fresh a b) :
    fresh.rows.countP (fun s => decide (a ≤ s.2.price ∧ s.2.price ≤ b)) ≤
      (keptSources ratio fresh).rows.length := by
  rw [List.countP_eq_length_filter]
  refine (List.monotone_filter_right fresh.rows fun s hs => ?_).length_le
  rw [decide_eq_true_eq] at hs ⊢
  exact within_of_mem ha hab h.median hs

theorem price_mem_of_majority {ratio : OutlierRatio} {now : Millis}
    {raws : Exchange → Option Raw} {s : Source} {a b : ℚ} (ha : 0 < a) (hab : b ≤ ratio * a)
    (h : MajorityIn (candidates now raws) a b) (hwinner : winner ratio now raws = some s) :
    a / ratio ≤ s.2.price ∧ s.2.price ≤ b * ratio := by
  have hratio : (0 : ℚ) < ratio := by linarith [ratio.property]
  have hle := h.countP_le_kept ha hab
  have hmajority := h
  unfold MajorityIn at hmajority
  by_cases hkept : 2 ≤ (keptSources ratio (candidates now raws)).rows.length
  · -- the winner agrees with a median between `a` and `b`
    have hmem := (winner_top_kept hkept hwinner).mem
    obtain ⟨hlow, hhigh⟩ : Within ratio (medianPrice (candidates now raws)) s.2.price := by
      simpa using (List.mem_filter.mp hmem).2
    obtain ⟨ham, hmb⟩ := h.median
    constructor
    · exact le_trans (by gcongr) hlow
    · exact hhigh.trans (by gcongr)
  · -- one candidate, and it is the majority
    have htop := winner_top (by omega) hwinner
    have hall : (candidates now raws).rows.countP
        (fun s => decide (a ≤ s.2.price ∧ s.2.price ≤ b)) = (candidates now raws).rows.length := by
      have := List.countP_le_length (l := (candidates now raws).rows)
        (p := fun s => decide (a ≤ s.2.price ∧ s.2.price ≤ b))
      omega
    have hs := List.countP_eq_length.mp hall s htop.mem
    rw [decide_eq_true_eq] at hs
    constructor
    · calc a / ratio ≤ a := div_le_self ha.le ratio.property
        _ ≤ s.2.price := hs.1
    · calc s.2.price ≤ b := hs.2
        _ ≤ b * ratio := le_mul_of_one_le_right (by linarith) ratio.property

theorem dropOutliers_ne_nil {ratio : ℚ} {fresh : Sources} (h : fresh.rows ≠ []) :
    (dropOutliers ratio fresh).rows ≠ [] := by
  unfold dropOutliers
  split
  · dsimp only
    split
    · next hkept =>
        intro hnil
        simp [hnil] at hkept
    · obtain ⟨best, hbest, htop⟩ := exists_top h
      refine List.ne_nil_of_mem (a := best) (List.mem_filter.mpr ⟨htop.mem, ?_⟩)
      simpa using hbest
  · exact h

/-- What the keys of one symbol hold: the given prices, all written at `0`. -/
def quoted (price : Exchange → Option ℚ) (e : Exchange) : Option Raw :=
  (price e).map fun p => .tick (some p) 0 "USDT" 0

/-- Kraken is off by a hundred. -/
def badKraken : Exchange → Option ℚ
  | .binance => some 65000
  | .coinbase => some 65010
  | .kraken => some 6500000
  | _ => none

/-- A strict majority of the sources lie within the ratio of a price. -/
def MajorityNear (ratio : ℚ) (fresh : Sources) (price : ℚ) : Prop :=
  fresh.rows.length < 2 * fresh.rows.countP fun s => decide (Within ratio price s.2.price)

instance (ratio : ℚ) (fresh : Sources) (price : ℚ) : Decidable (MajorityNear ratio fresh price) :=
  inferInstanceAs (Decidable (_ < _))

/-- Two sources around 1 and two around 100, the cheap ones of higher priority. -/
def splitMarket : Exchange → Option ℚ
  | .binance => some 1
  | .coinbase => some 1
  | .okx => some 100
  | .bybit => some 100
  | _ => none

theorem Within.symm {ratio : OutlierRatio} {m p : ℚ} (h : Within ratio m p) :
    Within ratio p m := by
  have hratio : (0 : ℚ) < ratio := by linarith [ratio.property]
  constructor
  · rw [div_le_iff₀ hratio]
    exact h.2
  · rw [← div_le_iff₀ hratio]
    exact h.1

/-- Whatever is within the ratio of something is within the ratio of itself. -/
theorem Within.self {ratio : OutlierRatio} {m p : ℚ} (h : Within ratio m p) :
    Within ratio p p := by
  have hratio : (0 : ℚ) < ratio := by linarith [ratio.property]
  have hle : p ≤ p * ratio * ratio := by
    calc p ≤ m * ratio := h.2
      _ ≤ p * ratio * ratio := by gcongr; exact (div_le_iff₀ hratio).mp h.1
  have hprod : 0 ≤ (p * (ratio - 1)) * (ratio + 1) := by linarith
  have hstep : 0 ≤ p * (ratio - 1) := nonneg_of_mul_nonneg_left hprod (by linarith)
  have hself : p ≤ p * ratio := by linarith
  exact ⟨(div_le_iff₀ hratio).mpr hself, hself⟩

/-- Two different sources that satisfy a test count for two. -/
theorem two_le_countP {fresh : Sources} {p : Source → Bool} {s t : Source}
    (hs : s ∈ fresh.rows) (ht : t ∈ fresh.rows) (hne : s ≠ t) (hps : p s = true)
    (hpt : p t = true) : 2 ≤ fresh.rows.countP p := by
  rw [List.countP_eq_length_filter]
  have hs' : s ∈ fresh.rows.filter p := List.mem_filter.mpr ⟨hs, hps⟩
  have ht' : t ∈ fresh.rows.filter p := List.mem_filter.mpr ⟨ht, hpt⟩
  match hrows : fresh.rows.filter p with
  | [] => simp [hrows] at hs'
  | [x] =>
      rw [hrows, List.mem_singleton] at hs' ht'
      exact absurd (hs'.trans ht'.symm) hne
  | x :: y :: rest => simp

section Amended

variable {ratio : OutlierRatio} {now : Millis} {raws : Exchange → Option Raw} {s top : Source}

/-- An overruled top source disagrees with the median. -/
theorem not_within_of_ne (hwinner : winner ratio now raws = some s)
    (htop : Top (candidates now raws) top) (hne : s ≠ top) :
    2 ≤ (keptSources ratio (candidates now raws)).rows.length ∧
      ¬ Within ratio (medianPrice (candidates now raws)) top.2.price := by
  have hkept : 2 ≤ (keptSources ratio (candidates now raws)).rows.length := by
    by_contra hfew
    exact hne ((winner_top (by omega) hwinner).unique htop)
  refine ⟨hkept, fun hwithin => hne ?_⟩
  have htop' : Top (keptSources ratio (candidates now raws)) top :=
    htop.filter (by simpa using hwithin)
  exact (winner_top_kept hkept hwinner).unique htop'

/-- Two or more sources leave one besides any given one. -/
theorem exists_other {fresh : Sources} (h : 2 ≤ fresh.rows.length) (s : Source) :
    ∃ t ∈ fresh.rows, t ≠ s := by
  match hrows : fresh.rows with
  | [] => simp [hrows] at h
  | [x] => simp [hrows] at h
  | x :: y :: rest =>
      have hnodup := fresh.nodup
      rw [hrows, List.map_cons, List.nodup_cons] at hnodup
      have hne : x ≠ y := by
        rintro rfl
        exact hnodup.1 (by simp)
      by_cases hx : x = s
      · exact ⟨y, by simp, fun hy => hne (hx.trans hy.symm)⟩
      · exact ⟨x, by simp, hx⟩

theorem mem_keptSources {ratio : ℚ} {fresh : Sources} :
    s ∈ (keptSources ratio fresh).rows ↔
      s ∈ fresh.rows ∧ Within ratio (medianPrice fresh) s.2.price := by
  unfold keptSources
  rw [Table.rows_filter, List.mem_filter, decide_eq_true_eq]

/-- Of three sources two that agree with the median are a majority near either. -/
theorem majorityNear_of_three (hwinner : winner ratio now raws = some s)
    (hkept : 2 ≤ (keptSources ratio (candidates now raws)).rows.length)
    (hthree : (candidates now raws).rows.length = 3) :
    MajorityNear ratio (candidates now raws) s.2.price := by
  obtain ⟨hs, hwithin⟩ := mem_keptSources.mp (winner_top_kept hkept hwinner).mem
  have hodd : ((candidates now raws).rows.map fun s => s.2.price).length % 2 = 1 := by
    rw [List.length_map, hthree]
  obtain ⟨t, ht, htm⟩ := List.mem_map.mp (median_mem hodd)
  have htm : t.2.price = medianPrice (candidates now raws) := htm
  have htwo : 2 ≤ (candidates now raws).rows.countP fun u =>
      decide (Within ratio s.2.price u.2.price) := by
    by_cases hst : s = t
    · -- the winner is the median, and another source agrees with it
      subst hst
      obtain ⟨u, hu, hne⟩ := exists_other hkept s
      obtain ⟨hu, huwithin⟩ := mem_keptSources.mp hu
      refine two_le_countP hs hu hne.symm ?_ ?_
      · simpa using hwithin.self
      · rw [decide_eq_true_eq, htm]
        exact huwithin
    · refine two_le_countP hs ht hst ?_ ?_
      · simpa using hwithin.self
      · rw [decide_eq_true_eq, htm]
        exact hwithin.symm
  unfold MajorityNear
  omega

end Amended

end Neonfi.Prices

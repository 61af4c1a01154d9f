import Mathlib.Data.List.MinMax
import Mathlib.Data.List.Sort

/-!
# Dated series

Entries with a date.  The latest entry at or before a date is what a reader sees at that date; in
an ascending series it is the last one a scan passes before it meets a later date.  The last dates
of an ascending list are those with few dates after them.
-/

namespace Lib

variable {α δ : Type*} [LinearOrder δ]

/-! ## The latest entry -/

section Latest

variable {date : α → δ} {entries : List α} {a : α} {d : δ}

/-- The latest of the entries at or before a date. -/
def latest (date : α → δ) (entries : List α) (d : δ) : Option α :=
  (entries.filter fun a => date a ≤ d).argmax date

@[simp] theorem latest_nil : latest date [] d = none :=
  rfl

theorem latest_eq_none_iff : latest date entries d = none ↔ ∀ a ∈ entries, d < date a := by
  unfold latest
  rw [List.argmax_eq_none, List.filter_eq_nil_iff]
  simp

theorem latest_spec (h : latest date entries d = some a) :
    a ∈ entries ∧ date a ≤ d ∧ ∀ b ∈ entries, date b ≤ d → date b ≤ date a := by
  unfold latest at h
  have hmem := List.mem_filter.mp (List.argmax_mem h)
  refine ⟨hmem.1, by simpa using hmem.2, ?_⟩
  intro b hb hbd
  apply List.le_of_mem_argmax (List.mem_filter.mpr ⟨hb, _⟩) h
  simpa using hbd

/-- Where no two entries have one date, the latest entry is told by its date. -/
theorem latest_eq_some_iff (hdistinct : ∀ x ∈ entries, ∀ y ∈ entries, date x = date y → x = y) :
    latest date entries d = some a ↔
      a ∈ entries ∧ date a ≤ d ∧ ∀ b ∈ entries, date b ≤ d → date b ≤ date a := by
  constructor
  · exact latest_spec
  · rintro ⟨ha, hle, hmax⟩
    cases hlatest : latest date entries d with
    | none =>
        have hlt := latest_eq_none_iff.mp hlatest a ha
        exact absurd hle (not_le.mpr hlt)
    | some b =>
        obtain ⟨hb, hbd, hbmax⟩ := latest_spec hlatest
        have hdate : date b = date a := le_antisymm (hmax b hb hbd) (hbmax a ha hle)
        rw [hdistinct b hb a ha hdate]

end Latest

/-! ## Ascending series -/

/-- The dates ascend, and no two are the same. -/
def Ascending (date : α → δ) (entries : List α) : Prop :=
  entries.Pairwise fun a b => date a < date b

namespace Ascending

variable {date : α → δ} {entries : List α} {a : α} {d : δ}

theorem tail (h : Ascending date (a :: entries)) : Ascending date entries :=
  (List.pairwise_cons.mp h).2

theorem head_lt (h : Ascending date (a :: entries)) {b : α} (hb : b ∈ entries) :
    date a < date b :=
  (List.pairwise_cons.mp h).1 b hb

theorem distinct (h : Ascending date entries) :
    ∀ x ∈ entries, ∀ y ∈ entries, date x = date y → x = y := by
  have hnodup : (entries.map date).Nodup := List.pairwise_map.mpr (h.imp ne_of_lt)
  intro x hx y hy hxy
  exact List.inj_on_of_nodup_map hnodup hx hy hxy

/-- A scan may stop at the first later date. -/
theorem latest_of_head_lt (h : Ascending date (a :: entries)) (hlt : d < date a) :
    latest date (a :: entries) d = none := by
  rw [latest_eq_none_iff]
  intro b hb
  rcases List.mem_cons.mp hb with rfl | hb
  · exact hlt
  · exact hlt.trans (h.head_lt hb)

/-- An entry that is not too late gives way to the entries behind it. -/
theorem latest_of_head_le (h : Ascending date (a :: entries)) (hle : date a ≤ d) :
    latest date (a :: entries) d = (latest date entries d).or (some a) := by
  cases hrest : latest date entries d with
  | none =>
      rw [Option.none_or, latest_eq_some_iff h.distinct]
      refine ⟨List.mem_cons_self, hle, ?_⟩
      intro b hb hbd
      rcases List.mem_cons.mp hb with rfl | hb
      · exact le_rfl
      · exact absurd hbd (not_le.mpr (latest_eq_none_iff.mp hrest b hb))
  | some b =>
      obtain ⟨hb, hbd, hmax⟩ := latest_spec hrest
      rw [Option.some_or, latest_eq_some_iff h.distinct]
      refine ⟨List.mem_cons_of_mem a hb, hbd, ?_⟩
      intro c hc hcd
      rcases List.mem_cons.mp hc with rfl | hc
      · exact (h.head_lt hb).le
      · exact hmax c hc hcd

end Ascending

/-! ## The last dates -/

/-- The last `n` entries of an ascending list are those with fewer than `n` behind them. -/
theorem mem_drop_length_sub_iff {dates : List δ} (hsorted : dates.Pairwise (· < ·)) (n : ℕ)
    (d : δ) :
    d ∈ dates.drop (dates.length - n) ↔
      d ∈ dates ∧ (dates.filter fun e => d < e).length < n := by
  induction dates with
  | nil => simp
  | cons a dates ih =>
      obtain ⟨hlt, htail⟩ := List.pairwise_cons.mp hsorted
      have hall : (dates.filter fun e => a < e) = dates := by
        rw [List.filter_eq_self]
        intro e he
        simpa using hlt e he
      have hhead : ((a :: dates).filter fun e => a < e).length = dates.length := by
        rw [List.filter_cons_of_neg (by simp), hall]
      have hrest : ∀ d ∈ dates, ((a :: dates).filter fun e => d < e) =
          dates.filter fun e => d < e := by
        intro d hd
        exact List.filter_cons_of_neg (by simpa using (hlt d hd).le)
      by_cases hn : n ≤ dates.length
      · have hdrop : (a :: dates).drop ((a :: dates).length - n) =
            dates.drop (dates.length - n) := by
          rw [List.length_cons, Nat.sub_add_comm hn, List.drop_succ_cons]
        rw [hdrop, ih htail]
        constructor
        · rintro ⟨hd, hcount⟩
          exact ⟨List.mem_cons_of_mem a hd, by rwa [hrest d hd]⟩
        · rintro ⟨hd, hcount⟩
          rcases List.mem_cons.mp hd with rfl | hd
          · omega
          · exact ⟨hd, by rwa [hrest d hd] at hcount⟩
      · have hdrop : (a :: dates).length - n = 0 := by
          rw [List.length_cons]
          omega
        rw [hdrop, List.drop_zero]
        constructor
        · intro hd
          refine ⟨hd, ?_⟩
          rcases List.mem_cons.mp hd with rfl | hd
          · omega
          · rw [hrest d hd]
            have hle := List.length_filter_le (fun e => decide (d < e)) dates
            omega
        · exact And.left

end Lib

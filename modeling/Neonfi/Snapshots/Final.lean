import Mathlib.Data.Int.Range
import Neonfi.Snapshots.Model

/-!
# Observed snapshots are final

Every statement of every writer leaves an observed row (`approx = false`) observed, and leaves
it as it is once its date is past.  The exceptions are the retention, which drops rows, and the
reclassification, which marks the rows older than the newest streak of consecutive dates: the
rows of the daily job are final as long as no date is missing between them and the newest row
when the script runs.
-/

namespace Neonfi.Snapshots

open Lib

/-- Under the keys in `K` observed rows stay observed, and unchanged under past dates. -/
def Keeps (today : ℤ) (K : ℕ × ℤ → Prop) (table table' : SnapshotTable) : Prop :=
  ∀ k row, K k → table.find? k = some row → row.approx = false →
    ∃ row', table'.find? k = some row' ∧ row'.approx = false ∧ (k.2 < today → row' = row)

section Statements

variable {today : ℤ} {K : ℕ × ℤ → Prop} {table table' table'' : SnapshotTable}

theorem Keeps.refl (table : SnapshotTable) : Keeps today K table table :=
  fun _ row _ hfind hreal => ⟨row, hfind, hreal, fun _ => rfl⟩

theorem Keeps.trans (h : Keeps today K table table') (h' : Keeps today K table' table'') :
    Keeps today K table table'' := by
  intro k row hk hfind hreal
  obtain ⟨row', hfind', hreal', hsame⟩ := h k row hk hfind hreal
  obtain ⟨row'', hfind'', hreal'', hsame'⟩ := h' k row' hk hfind' hreal'
  exact ⟨row'', hfind'', hreal'', fun hpast => (hsame' hpast).trans (hsame hpast)⟩

theorem Keeps.mono {K' : ℕ × ℤ → Prop} (h : Keeps today K table table')
    (hsub : ∀ k, K' k → K k) : Keeps today K' table table' :=
  fun k row hk => h k row (hsub k hk)

/-- A loop keeps what each of its passes keeps. -/
theorem Keeps.foldl {α σ : Type} {f : σ → α → σ} (tableOf : σ → SnapshotTable) {xs : List α}
    (hstep : ∀ x ∈ xs, ∀ s, Keeps today K (tableOf s) (tableOf (f s x))) (s : σ) :
    Keeps today K (tableOf s) (tableOf (xs.foldl f s)) := by
  induction xs generalizing s with
  | nil => exact Keeps.refl _
  | cons x xs ih =>
      have hhead := hstep x List.mem_cons_self s
      exact hhead.trans (ih (fun y hy => hstep y (List.mem_cons_of_mem x hy)) (f s x))

/-- The upsert of an observed value touches today's row only, and leaves it observed. -/
theorem keeps_upsertObserved {row : BalanceSnapshot} (htoday : row.snapshotDate = today) :
    Keeps today K table (upsertObserved row table) := by
  intro k old _ hfind hreal
  by_cases hkey : row.key = k
  · subst hkey
    unfold upsertObserved
    rw [hfind]
    have hold : old.key = row.key := (Table.find?_eq_some_iff.mp hfind).2
    refine ⟨_, Table.find?_set.trans (if_pos hold), rfl, fun hpast => ?_⟩
    exact absurd htoday (ne_of_lt hpast)
  · have hother : (upsertObserved row table).find? k = table.find? k := by
      unfold upsertObserved
      cases hrow : table.find? row.key with
      | none => exact Table.find?_set.trans (if_neg hkey)
      | some r =>
          have hr : r.key = row.key := (Table.find?_eq_some_iff.mp hrow).2
          exact Table.find?_set.trans (if_neg fun heq => hkey (hr.symm.trans heq))
    exact ⟨old, hother.trans hfind, hreal, fun _ => rfl⟩

/-- The guarded insert changes no observed row at all. -/
theorem keeps_insertUnlessObserved {row : BalanceSnapshot} :
    Keeps today K table (insertUnlessObserved table row) := by
  intro k old _ hfind hreal
  refine ⟨old, ?_, hreal, fun _ => rfl⟩
  unfold insertUnlessObserved
  cases hrow : table.find? row.key with
  | none =>
      have hne : row.key ≠ k := by
        rintro rfl
        rw [hrow] at hfind
        cases hfind
      exact (Table.find?_set.trans (if_neg hne)).trans hfind
  | some r =>
      dsimp only
      split
      · next happrox =>
          have hr := (Table.find?_eq_some_iff.mp hrow).2
          have hne : r.key ≠ k := by
            rintro rfl
            rw [← hr, hfind] at hrow
            cases hrow
            rw [hreal] at happrox
            cases happrox
          refine Eq.trans (Table.find?_set.trans (if_neg ?_)) hfind
          exact hne
      · exact hfind

theorem keeps_execute {statements : List (SnapshotTable → SnapshotTable)} {failsAt : Option ℕ}
    (h : ∀ statement ∈ statements, ∀ t, Keeps today K t (statement t)) :
    Keeps today K table (execute statements failsAt table) := by
  unfold execute
  refine Keeps.foldl (fun t => t) (fun statement hmem t => h statement ?_ t) table
  cases failsAt with
  | none => exact hmem
  | some k => exact List.mem_of_mem_take hmem

theorem keeps_bulkInsert {size : ℕ} {rows : List BalanceSnapshot} :
    ∀ statement ∈ bulkInsert size rows, ∀ t, Keeps today K t (statement t) := by
  intro statement hmem t
  obtain ⟨chunk, -, rfl⟩ := List.mem_map.mp hmem
  exact Keeps.foldl (fun t => t) (fun _ _ _ => keeps_insertUnlessObserved) t

end Statements

/-! ## The writers -/

section Writers

variable {K : ℕ × ℤ → Prop} {table : SnapshotTable} {now : Ledger.Millis}

theorem keeps_dailyLoop {today : ℤ} {inputs : DailyInputs} :
    Keeps today K table (dailyLoop today inputs table).table := by
  refine Keeps.foldl DailyState.table (fun portfolio _ state => ?_) { table }
  unfold snapshotPortfolio
  split
  · exact Keeps.refl _
  · dsimp only
    split
    · exact Keeps.refl _
    · split
      · exact Keeps.refl _
      · exact keeps_upsertObserved rfl

theorem keeps_backfill {portfolio : Ledger.Portfolio} {fullHistory : Bool}
    {inputs : HistoryInputs} :
    Keeps (dateOf now) K table
      (backfillConnectedSnapshots now portfolio fullHistory inputs table) := by
  refine keeps_execute fun statement hmem t => ?_
  unfold backfillStatements at hmem
  split at hmem
  · rcases List.mem_append.mp hmem with hbulk | htoday
    · exact keeps_bulkInsert statement hbulk t
    · obtain ⟨p, hfind, rfl⟩ := Option.map_eq_some_iff.mp (Option.mem_toList.mp htoday)
      exact keeps_upsertObserved (by simpa using List.find?_some hfind)
  · rw [List.mem_singleton.mp hmem]
    exact keeps_upsertObserved rfl

theorem keeps_rebuild {dryRun : Bool} {portfolios : List Ledger.Portfolio}
    {inputs : ℕ → HistoryInputs} :
    Keeps (dateOf now) K table
      (runRebuildConnectedHistory now dryRun portfolios inputs table).1 := by
  refine Keeps.foldl Prod.fst (fun portfolio _ state => ?_) (table, 0)
  cases dryRun with
  | true => exact Keeps.refl _
  | false =>
      show Keeps _ _ state.1 (rebuildConnectedHistory now portfolio (inputs portfolio.id) state.1).1
      unfold rebuildConnectedHistory
      split
      · exact Keeps.refl _
      · exact keeps_backfill

theorem keeps_demo {portfolios : List DemoPortfolio} {series : ℕ → Option (ℕ → ℚ)}
    {failsAt : Option ℕ} {today : ℤ} :
    Keeps today K table (runSnapshotsBackfill now portfolios series failsAt table) :=
  keeps_execute keeps_bulkInsert

theorem keeps_runSnapshotJob {chunkEnd : ℤ → ℤ} {inputs : DailyInputs} :
    Keeps (dateOf now)
      (fun k => ¬(inputs.dropChunksSucceeded = true ∧ Expired chunkEnd (dateOf now) k.2)) table
      (runSnapshotJob chunkEnd now inputs table).table := by
  refine (@keeps_dailyLoop _ _ _ inputs).trans ?_
  unfold runSnapshotJob
  cases hdrop : inputs.dropChunksSucceeded with
  | false => exact Keeps.refl _
  | true =>
      intro k row hk hfind hreal
      have hfresh : ¬ Expired chunkEnd (dateOf now) k.2 := fun h => hk ⟨rfl, h⟩
      refine ⟨row, ?_, hreal, fun _ => rfl⟩
      refine (Table.find?_filter fun r hr => ?_).trans hfind
      subst hr
      exact decide_eq_true hfresh

end Writers

/-! ## The reclassification and the streak -/

/-- Every date from this one to the newest row of the portfolio has a row. -/
def NoGapAfter (table : SnapshotTable) (k : ℕ × ℤ) : Prop :=
  ∀ row ∈ table.rows, row.portfolioId = k.1 → ∀ date, k.2 ≤ date → date ≤ row.snapshotDate →
    ∃ row' ∈ table.rows, row'.key = (k.1, date)

instance (table : SnapshotTable) (k : ℕ × ℤ) : Decidable (NoGapAfter table k) :=
  inferInstanceAs (Decidable (∀ row ∈ table.rows, row.portfolioId = k.1 → ∀ date, k.2 ≤ date →
    date ≤ row.snapshotDate → ∃ row' ∈ table.rows, row'.key = (k.1, date)))

theorem runOldestDate_le (newest : ℤ) (older : List ℤ) :
    runOldestDate newest older ≤ newest := by
  induction older generalizing newest with
  | nil => exact le_refl _
  | cons date older ih =>
      unfold runOldestDate
      split
      · next hgap => exact (ih date).trans (by omega)
      · exact le_refl _

/-- The streak reaches back to a date exactly when no date from it to the newest is missing. -/
theorem runOldestDate_le_iff {newest : ℤ} {older : List ℤ} {date : ℤ}
    (hsorted : (newest :: older).Pairwise fun d e => e < d) (hmem : date ∈ newest :: older) :
    runOldestDate newest older ≤ date ↔
      ∀ d, date ≤ d → d ≤ newest → d ∈ newest :: older := by
  induction older generalizing newest with
  | nil =>
      have heq : date = newest := List.mem_singleton.mp hmem
      subst heq
      refine ⟨fun _ d hle hge => ?_, fun _ => le_refl _⟩
      exact List.mem_singleton.mpr (le_antisymm hge hle)
  | cons next older ih =>
      obtain ⟨hhead, htail⟩ := List.pairwise_cons.mp hsorted
      have hnext : next < newest := hhead next List.mem_cons_self
      have hle : ∀ d ∈ next :: older, d ≤ next := by
        intro d hd
        rcases List.mem_cons.mp hd with rfl | hd
        · exact le_refl _
        · exact ((List.pairwise_cons.mp htail).1 d hd).le
      rcases List.mem_cons.mp hmem with rfl | hmem
      · refine ⟨fun _ d hd hge => ?_, fun _ => runOldestDate_le _ _⟩
        exact List.mem_cons.mpr (.inl (le_antisymm hge hd))
      · have hdate : date ≤ next := hle date hmem
        unfold runOldestDate
        split
        · next hgap =>
            rw [ih htail hmem]
            constructor
            · intro hall d hd hge
              rcases eq_or_lt_of_le hge with rfl | hlt
              · exact List.mem_cons_self
              · exact List.mem_cons_of_mem _ (hall d hd (by omega))
            · intro hall d hd hge
              rcases List.mem_cons.mp (hall d hd (hge.trans hnext.le)) with rfl | hd'
              · omega
              · exact hd'
        · next hgap =>
            constructor
            · intro hreach
              omega
            · intro hall
              have hbefore := hall (newest - 1) (by omega) (by omega)
              rcases List.mem_cons.mp hbefore with heq | hmem'
              · omega
              · have := hle _ hmem'
                omega

theorem mem_datesDesc {portfolioId : ℕ} {table : SnapshotTable} {date : ℤ} :
    date ∈ datesDesc portfolioId table ↔ ∃ row ∈ table.rows, row.key = (portfolioId, date) := by
  unfold datesDesc
  rw [List.mem_insertionSort, List.mem_map]
  constructor
  · rintro ⟨row, hrow, rfl⟩
    obtain ⟨hmem, hid⟩ := List.mem_filter.mp hrow
    exact ⟨row, hmem, Prod.ext (of_decide_eq_true hid) rfl⟩
  · rintro ⟨row, hmem, hkey⟩
    obtain ⟨hid, hdate⟩ := Prod.mk.inj hkey
    exact ⟨row, List.mem_filter.mpr ⟨hmem, decide_eq_true hid⟩, hdate⟩

/-- The dates of one portfolio are pairwise different, so newest first is strictly descending. -/
theorem pairwise_datesDesc (portfolioId : ℕ) (table : SnapshotTable) :
    (datesDesc portfolioId table).Pairwise fun d e => e < d := by
  have hnodup : (datesDesc portfolioId table).Nodup := by
    unfold datesDesc
    rw [(List.perm_insertionSort _ _).nodup_iff]
    refine List.Nodup.map_on ?_ ((List.Nodup.of_map _ table.nodup).filter _)
    intro r hr s hs hdate
    obtain ⟨hrmem, hrid⟩ := List.mem_filter.mp hr
    obtain ⟨hsmem, hsid⟩ := List.mem_filter.mp hs
    refine eq_of_key_eq table.nodup hrmem hsmem (Prod.ext ?_ hdate)
    exact (of_decide_eq_true hrid).trans (of_decide_eq_true hsid).symm
  have hsorted : (datesDesc portfolioId table).Pairwise fun d e => e ≤ d :=
    List.pairwise_insertionSort _ _
  exact (hsorted.and hnodup).imp fun h => lt_of_le_of_ne h.1 (Ne.symm h.2)

/-- An observed row is marked exactly when a date after it has no row. -/
theorem beforeStreak_iff {portfolioId : ℕ} {table : SnapshotTable} {row : BalanceSnapshot}
    (hmem : row ∈ table.rows) (hreal : row.approx = false) :
    beforeStreak portfolioId table row = true ↔
      row.portfolioId = portfolioId ∧ ¬ NoGapAfter table row.key := by
  have hsorted := pairwise_datesDesc portfolioId table
  have hdates := @mem_datesDesc portfolioId table
  unfold beforeStreak
  by_cases hid : row.portfolioId = portfolioId
  · subst hid
    have hrow : row.snapshotDate ∈ datesDesc row.portfolioId table := hdates.mpr ⟨row, hmem, rfl⟩
    cases hlist : datesDesc row.portfolioId table with
    | nil =>
        rw [hlist] at hrow
        cases hrow
    | cons newest older =>
        rw [hlist] at hsorted hrow hdates
        have hreach := runOldestDate_le_iff hsorted hrow
        have hgap : NoGapAfter table row.key ↔ runOldestDate newest older ≤ row.snapshotDate := by
          rw [hreach]
          constructor
          · intro hall d hle hge
            obtain ⟨top, htop, hkey⟩ := hdates.mp List.mem_cons_self
            obtain ⟨hid, hdate⟩ := Prod.mk.inj hkey
            exact hdates.mpr (hall top htop hid d hle (hge.trans hdate.ge))
          · intro hall top htop hid d hle hge
            refine hdates.mp (hall d hle (hge.trans ?_))
            have hkey : top.key = (row.portfolioId, top.snapshotDate) := Prod.ext hid rfl
            have hnewest := hdates.mpr ⟨top, htop, hkey⟩
            rcases List.mem_cons.mp hnewest with heq | hold
            · exact heq.le
            · exact ((List.pairwise_cons.mp hsorted).1 _ hold).le
        rw [hgap, hreal]
        simp
  · constructor
    · intro h
      split at h
      · cases h
      · simp [hid] at h
    · exact fun h => absurd h.1 hid

/-- One portfolio of the script keeps the observed rows of every other, and of its own those
with no missing date after them. -/
theorem keeps_reclassifyPortfolio {dryRun : Bool} {portfolioId : ℕ} {today : ℤ}
    {state : SnapshotTable × ReclassifyResult} :
    Keeps today (fun k => k.1 = portfolioId → NoGapAfter state.1 k) state.1
      (reclassifyPortfolio dryRun state portfolioId).1 := by
  cases dryRun with
  | true => exact Keeps.refl _
  | false =>
      intro k row hk hfind hreal
      refine ⟨row, ?_, hreal, fun _ => rfl⟩
      obtain ⟨hmem, rfl⟩ := Table.find?_eq_some_iff.mp hfind
      have hspared : beforeStreak portfolioId state.1 row = false := by
        refine Bool.eq_false_iff.mpr fun hmarked => ?_
        obtain ⟨hid, hgap⟩ := (beforeStreak_iff hmem hreal).mp hmarked
        exact hgap (hk hid)
      show (markApprox (beforeStreak portfolioId state.1) state.1).find? row.key = some row
      unfold markApprox
      rw [Table.find?_modify, hfind, Option.map_some, hspared]
      rfl

/-- The script adds and removes no row. -/
theorem keys_reclassifyPortfolio {dryRun : Bool} {portfolioId : ℕ}
    {state : SnapshotTable × ReclassifyResult} :
    (reclassifyPortfolio dryRun state portfolioId).1.rows.map BalanceSnapshot.key =
      state.1.rows.map BalanceSnapshot.key := by
  cases dryRun with
  | true => rfl
  | false =>
      show (markApprox _ state.1).rows.map BalanceSnapshot.key = _
      unfold markApprox
      rw [Table.rows_modify, List.map_map]
      refine List.map_congr_left fun row _ => ?_
      rw [Function.comp_apply]
      split <;> rfl

theorem noGapAfter_congr {table table' : SnapshotTable}
    (h : table'.rows.map BalanceSnapshot.key = table.rows.map BalanceSnapshot.key)
    {k : ℕ × ℤ} (hgap : NoGapAfter table k) : NoGapAfter table' k := by
  have hmem : ∀ {t t' : SnapshotTable},
      t'.rows.map BalanceSnapshot.key = t.rows.map BalanceSnapshot.key →
      ∀ row ∈ t'.rows, ∃ row' ∈ t.rows, row'.key = row.key := by
    intro t t' hkeys row hrow
    exact List.mem_map.mp (hkeys ▸ List.mem_map_of_mem hrow)
  intro top htop hid date hle hge
  obtain ⟨top', htop', hkey⟩ := hmem h top htop
  obtain ⟨hid', hdate'⟩ := Prod.mk.inj hkey
  obtain ⟨row, hrow, hrowkey⟩ := hgap top' htop' (hid'.trans hid) date hle (hge.trans hdate'.ge)
  obtain ⟨row', hrow', hkey'⟩ := hmem h.symm row hrow
  exact ⟨row', hrow', hkey'.trans hrowkey⟩

theorem keeps_reclassify {dryRun : Bool} {connected : List ℕ} {today : ℤ}
    {table : SnapshotTable} :
    Keeps today (fun k => k.1 ∈ connected → NoGapAfter table k) table
      (runReclassifyConnectedSnapshots dryRun connected table).1 := by
  unfold runReclassifyConnectedSnapshots
  generalize ({ dryRun } : ReclassifyResult) = result
  induction connected generalizing table result with
  | nil => exact Keeps.refl _
  | cons portfolioId connected ih =>
      rw [List.foldl_cons]
      have hhead := @keeps_reclassifyPortfolio dryRun portfolioId today (table, result)
      refine (hhead.mono fun k hk hid => hk (hid ▸ List.mem_cons_self)).trans ?_
      refine (ih _).mono fun k hk hmem => ?_
      exact noGapAfter_congr keys_reclassifyPortfolio (hk (List.mem_cons_of_mem _ hmem))

/-- A marked row stays marked. -/
theorem marked_reclassifyPortfolio {portfolioId : ℕ} {state : SnapshotTable × ReclassifyResult}
    {k : ℕ × ℤ} {row : BalanceSnapshot} (hfind : state.1.find? k = some row)
    (hmarked : row.approx = true ∨ beforeStreak portfolioId state.1 row = true) :
    (reclassifyPortfolio false state portfolioId).1.find? k =
      some { row with approx := true } := by
  show (markApprox (beforeStreak portfolioId state.1) state.1).find? k = _
  unfold markApprox
  rw [Table.find?_modify, hfind, Option.map_some]
  rcases hmarked with happrox | hstreak
  · split
    · rfl
    · rw [← happrox]
  · rw [if_pos hstreak]

theorem marked_reclassify {connected : List ℕ} {table : SnapshotTable} {k : ℕ × ℤ}
    {row : BalanceSnapshot} (hfind : table.find? k = some row) (result : ReclassifyResult)
    (hmarked : row.approx = true ∨ k.1 ∈ connected ∧ ¬ NoGapAfter table k) :
    (connected.foldl (reclassifyPortfolio false) (table, result)).1.find? k =
      some { row with approx := true } := by
  induction connected generalizing table row result with
  | nil =>
      rcases hmarked with happrox | ⟨hmem, -⟩
      · show table.find? k = _
        rw [hfind, ← happrox]
      · cases hmem
  | cons portfolioId connected ih =>
      rw [List.foldl_cons]
      obtain ⟨hmem, rfl⟩ := Table.find?_eq_some_iff.mp hfind
      by_cases hnow : row.approx = true ∨ beforeStreak portfolioId table row = true
      · have hhead := @marked_reclassifyPortfolio portfolioId (table, result) _ _ hfind hnow
        exact ih hhead _ (.inl rfl)
      · have hreal : row.approx = false := by
          have hfalse : ¬ row.approx = true := fun h => hnow (.inl h)
          simpa using hfalse
        have hkept : (reclassifyPortfolio false (table, result) portfolioId).1.find? row.key =
            some row := by
          show (markApprox (beforeStreak portfolioId table) table).find? row.key = _
          unfold markApprox
          rw [Table.find?_modify, hfind, Option.map_some, if_neg fun h => hnow (.inr h)]
        refine ih hkept _ (.inr ?_)
        rcases hmarked with happrox | ⟨hconnected, hgap⟩
        · rw [hreal] at happrox
          cases happrox
        · refine ⟨?_, fun hclosed => hgap (noGapAfter_congr keys_reclassifyPortfolio.symm hclosed)⟩
          rcases List.mem_cons.mp hconnected with hid | hrest
          · exact absurd (.inr ((beforeStreak_iff hmem hreal).mpr ⟨hid, hgap⟩)) hnow
          · exact hrest

/-- The script relabels an observed row of a connected portfolio exactly when a later date, up to
the newest row, has none. -/
theorem relabelled_iff {connected : List ℕ} {table : SnapshotTable} {k : ℕ × ℤ}
    {row : BalanceSnapshot} (hfind : table.find? k = some row) (hreal : row.approx = false) :
    (∃ row', (runReclassifyConnectedSnapshots false connected table).1.find? k = some row' ∧
        row'.approx = true) ↔
      k.1 ∈ connected ∧ ¬ NoGapAfter table k := by
  constructor
  · rintro ⟨row', hfind', happrox⟩
    by_contra hspared
    have hgap : k.1 ∈ connected → NoGapAfter table k := by
      intro hmem
      by_contra hgap
      exact hspared ⟨hmem, hgap⟩
    obtain ⟨row'', hfind'', hreal'', -⟩ :=
      @keeps_reclassify false connected 0 table k row hgap hfind hreal
    rw [hfind''] at hfind'
    cases hfind'
    rw [hreal''] at happrox
    cases happrox
  · intro hmarked
    exact ⟨_, marked_reclassify hfind _ (.inr hmarked), rfl⟩

theorem reclassify_dryRun (connected : List ℕ) (table : SnapshotTable) :
    (runReclassifyConnectedSnapshots true connected table).1 = table := by
  unfold runReclassifyConnectedSnapshots
  generalize ({ dryRun := true } : ReclassifyResult) = result
  induction connected generalizing result with
  | nil => rfl
  | cons portfolioId connected ih => exact ih _

/-! ## Runs -/

/-- The rows that the daily job wrote are observed ones. -/
def World.Observed (world : World) : Prop :=
  ∀ k ∈ world.jobWrote, ∃ row, world.table.find? k = some row ∧ row.approx = false

/-- A run that marks no row of the daily job: the reclassification of a connected portfolio finds
no date missing between a row the job wrote and the portfolio's newest row. -/
def SparesObserved (world : World) (run : WriterRun) : Prop :=
  match run.writer with
  | .reclassify false connected =>
      ∀ k ∈ world.jobWrote, k.1 ∈ connected → NoGapAfter world.table k
  | _ => True

def Step (chunkEnd : ℤ → ℤ) (world : World) (run : WriterRun) (world' : World) : Prop :=
  world' = world.step chunkEnd run

variable {chunkEnd : ℤ → ℤ} {world world' : World} {run : WriterRun}

theorem keeps_write (hspares : SparesObserved world run) :
    Keeps run.today (fun k => k ∈ world.jobWrote ∧ run.drops chunkEnd k.2 = false) world.table
      (run.write chunkEnd world.table) := by
  obtain ⟨now, writer⟩ := run
  cases writer with
  | daily inputs =>
      refine keeps_runSnapshotJob.mono fun k hk hdrop => ?_
      have hkept : (inputs.dropChunksSucceeded &&
          decide (Expired chunkEnd (dateOf now) k.2)) = false := hk.2
      rw [hdrop.1, decide_eq_true hdrop.2] at hkept
      cases hkept
  | backfill portfolio fullHistory inputs => exact keeps_backfill
  | rebuild dryRun portfolios inputs => exact keeps_rebuild
  | demo portfolios series failsAt => exact keeps_demo
  | reclassify dryRun connected =>
      cases dryRun with
      | true =>
          show Keeps _ _ _ (runReclassifyConnectedSnapshots true connected world.table).1
          rw [reclassify_dryRun]
          exact Keeps.refl _
      | false => exact keeps_reclassify.mono fun k hk => hspares k hk.1

theorem observed_upsertObserved (row : BalanceSnapshot) (table : SnapshotTable) :
    ∃ row', (upsertObserved row table).find? row.key = some row' ∧ row'.approx = false := by
  unfold upsertObserved
  cases hfind : table.find? row.key with
  | none => exact ⟨_, Table.find?_set.trans (if_pos rfl), rfl⟩
  | some old =>
      have hold : old.key = row.key := (Table.find?_eq_some_iff.mp hfind).2
      exact ⟨_, Table.find?_set.trans (if_pos hold), rfl⟩

/-- The keys the job reports as written lead to observed rows. -/
def DailyState.Reports (today : ℤ) (state : DailyState) : Prop :=
  ∀ portfolioId ∈ state.snapshotted,
    ∃ row, state.table.find? (portfolioId, today) = some row ∧ row.approx = false

theorem DailyState.Reports.step {today : ℤ} {state : DailyState} (h : state.Reports today)
    (inputs : DailyInputs) (portfolio : ℕ × ℕ) :
    (snapshotPortfolio today inputs state portfolio).Reports today := by
  unfold snapshotPortfolio
  split
  · exact h
  · dsimp only
    split
    · exact h
    · split
      · exact h
      · next totalValue _ =>
          intro portfolioId hmem
          rcases List.mem_cons.mp hmem with rfl | hmem
          · exact observed_upsertObserved ⟨portfolio.1, portfolio.2, totalValue, today, false⟩ _
          · obtain ⟨row, hfind, hreal⟩ := h portfolioId hmem
            obtain ⟨row', hfind', hreal', -⟩ :=
              keeps_upsertObserved (K := fun _ => True) rfl (portfolioId, today) row trivial
                hfind hreal
            exact ⟨row', hfind', hreal'⟩

theorem reports_dailyLoop (today : ℤ) (inputs : DailyInputs) (table : SnapshotTable) :
    (dailyLoop today inputs table).Reports today := by
  have hfold : ∀ (portfolios : List (ℕ × ℕ)) (state : DailyState), state.Reports today →
      (portfolios.foldl (snapshotPortfolio today inputs) state).Reports today := by
    intro portfolios
    induction portfolios with
    | nil => exact fun _ h => h
    | cons portfolio portfolios ih => exact fun state h => ih _ (h.step inputs portfolio)
  exact hfold inputs.portfolios { table } fun _ hmem => by cases hmem

/-- The retention leaves what its run does not drop. -/
theorem observed_wrote {k : ℕ × ℤ} (hwrote : k ∈ run.wrote world.table)
    (hkept : run.drops chunkEnd k.2 = false) :
    ∃ row, (run.write chunkEnd world.table).find? k = some row ∧ row.approx = false := by
  obtain ⟨now, writer⟩ := run
  cases writer with
  | daily inputs =>
      obtain ⟨portfolioId, hmem, rfl⟩ := List.mem_map.mp hwrote
      obtain ⟨row, hfind, hreal⟩ := reports_dailyLoop _ inputs world.table portfolioId hmem
      refine ⟨row, ?_, hreal⟩
      show (runSnapshotJob chunkEnd now inputs world.table).table.find? _ = _
      unfold runSnapshotJob
      cases hdrop : inputs.dropChunksSucceeded with
      | false => exact hfind
      | true =>
          have hfresh : (inputs.dropChunksSucceeded &&
              decide (Expired chunkEnd (dateOf now) (dateOf now))) = false := hkept
          rw [hdrop, Bool.true_and, decide_eq_false_iff_not] at hfresh
          refine (Table.find?_filter fun r hr => ?_).trans hfind
          have hdate : r.snapshotDate = dateOf now := congrArg Prod.snd hr
          rw [hdate]
          exact decide_eq_true hfresh
  | backfill portfolio fullHistory inputs => cases hwrote
  | rebuild dryRun portfolios inputs => cases hwrote
  | demo portfolios series failsAt => cases hwrote
  | reclassify dryRun connected => cases hwrote

/-- One run: every row of the daily job stays observed, and one of a past date stays as it is. -/
theorem observed_step (hworld : world.Observed) (hspares : SparesObserved world run) :
    (world.step chunkEnd run).Observed ∧
      ∀ k ∈ world.jobWrote, run.drops chunkEnd k.2 = false →
        k ∈ (world.step chunkEnd run).jobWrote ∧
          (k.2 < run.today → (world.step chunkEnd run).table.find? k = world.table.find? k) := by
  have hkeeps := @keeps_write chunkEnd _ _ hspares
  constructor
  · intro k hk
    obtain ⟨hmem, hkept⟩ := List.mem_filter.mp hk
    have hkept' : run.drops chunkEnd k.2 = false := by simpa using hkept
    rcases List.mem_append.mp hmem with hwrote | hold
    · exact observed_wrote hwrote hkept'
    · obtain ⟨row, hfind, hreal⟩ := hworld k hold
      obtain ⟨row', hfind', hreal', -⟩ := hkeeps k row ⟨hold, hkept'⟩ hfind hreal
      exact ⟨row', hfind', hreal'⟩
  · intro k hk hkept
    refine ⟨List.mem_filter.mpr ⟨List.mem_append_right _ hk, by rw [hkept]; rfl⟩, ?_⟩
    intro hpast
    obtain ⟨row, hfind, hreal⟩ := hworld k hk
    obtain ⟨row', hfind', -, hsame⟩ := hkeeps k row ⟨hk, hkept⟩ hfind hreal
    rw [hfind, ← hsame hpast]
    exact hfind'

/-- A row of the daily job, as it stands in `world`, is final over the later runs: while they
come after its date it is neither overwritten nor relabelled, until the retention drops it. -/
def Final (chunkEnd : ℤ → ℤ) (world : World) (later : List WriterRun) (world' : World) : Prop :=
  ∀ k ∈ world.jobWrote, ∃ row, world.table.find? k = some row ∧ row.approx = false ∧
    ((∀ run ∈ later, k.2 < run.today) →
      world'.table.find? k = some row ∨ ∃ run ∈ later, run.drops chunkEnd k.2 = true)

theorem observed_run {runs : List WriterRun} (hworld : world.Observed)
    (hruns : Run (Guarded (Step chunkEnd) SparesObserved) world runs world') :
    world'.Observed := by
  refine Run.invariant (fun w run w' hw hstep => ?_) hruns hworld
  obtain ⟨rfl, hspares⟩ := hstep
  exact (observed_step hw hspares).1

theorem final_run {later : List WriterRun} (hworld : world.Observed)
    (hlater : Run (Guarded (Step chunkEnd) SparesObserved) world later world') :
    Final chunkEnd world later world' := by
  induction hlater with
  | nil world =>
      intro k hk
      obtain ⟨row, hfind, hreal⟩ := hworld k hk
      exact ⟨row, hfind, hreal, fun _ => .inl hfind⟩
  | cons hstep _ ih =>
      obtain ⟨rfl, hspares⟩ := hstep
      next world _ run runs _ =>
      obtain ⟨hobserved, hkeep⟩ := @observed_step chunkEnd _ _ hworld hspares
      intro k hk
      obtain ⟨row, hfind, hreal⟩ := hworld k hk
      refine ⟨row, hfind, hreal, fun hpast => ?_⟩
      cases hdrops : run.drops chunkEnd k.2 with
      | true => exact .inr ⟨run, List.mem_cons_self, hdrops⟩
      | false =>
          obtain ⟨hmem, hsame⟩ := hkeep k hk hdrops
          obtain ⟨row', hfind', -, hrest⟩ := ih hobserved k hmem
          rw [hsame (hpast run List.mem_cons_self), hfind] at hfind'
          cases hfind'
          rcases hrest fun r hr => hpast r (List.mem_cons_of_mem _ hr) with hkept | ⟨r, hr, hdrop⟩
          · exact .inl hkept
          · exact .inr ⟨r, List.mem_cons_of_mem _ hr, hdrop⟩

/-- As long as no reclassification runs while a date is missing after a row of the daily job,
the rows of the daily job are final in every world a run reaches. -/
theorem final_of_sparesObserved {start : World} {earlier later : List WriterRun}
    (hstart : start.Observed)
    (hearlier : Run (Guarded (Step chunkEnd) SparesObserved) start earlier world)
    (hlater : Run (Guarded (Step chunkEnd) SparesObserved) world later world') :
    Final chunkEnd world later world' :=
  final_run (observed_run hstart hearlier) hlater

/-! ### A missed day -/

/-- Hypertable chunks of a week. -/
def weekly (date : ℤ) : ℤ := (date / 7 + 1) * 7

def World.after (chunkEnd : ℤ → ℤ) (world : World) (runs : List WriterRun) : World :=
  runs.foldl (fun w run => w.step chunkEnd run) world

theorem World.run_after (world : World) (runs : List WriterRun) :
    Run (Step chunkEnd) world runs (world.after chunkEnd runs) := by
  induction runs generalizing world with
  | nil => exact .nil _
  | cons run runs ih => exact .cons rfl (ih _)

/-- The daily job sees the one wallet of a pro user at this value. -/
def jobOn (date : ℤ) (totalValue : ℚ) : WriterRun where
  now := date * DAY_MS
  writer := .daily
    { portfolios := [(1, 1)]
      getEffectivePlan := fun _ => some .pro
      derive := fun _ => some totalValue }

def reclassifyOn (date : ℤ) : WriterRun := ⟨date * DAY_MS, .reclassify false [1]⟩

/-- A rebuild on day 1095 samples day 0 first. -/
def resampleOn1095 : WriterRun where
  now := 1095 * DAY_MS
  writer := .backfill
    { id := 1, userId := 1, type := .connected, walletAddress := some "0xa", chainId := some 1 }
    true
    { currentValue := 9
      walletValueAt := fun ts => if ts = 0 then some 7 else none }

theorem final_consecutiveDays :
    Final weekly (World.empty.after weekly [jobOn 0 5, jobOn 1 6])
      [reclassifyOn 2, resampleOn1095]
      ((World.empty.after weekly [jobOn 0 5, jobOn 1 6]).after weekly
        [reclassifyOn 2, resampleOn1095]) := by
  have hearlier : Run (Guarded (Step weekly) SparesObserved) World.empty [jobOn 0 5, jobOn 1 6]
      (World.empty.after weekly [jobOn 0 5, jobOn 1 6]) :=
    .cons ⟨rfl, trivial⟩ (.cons ⟨rfl, trivial⟩ (.nil _))
  refine final_of_sparesObserved (fun k hk => by cases hk) hearlier ?_
  refine .cons ⟨rfl, ?_⟩ (.cons ⟨rfl, trivial⟩ (.nil _))
  show ∀ k ∈ (World.empty.after weekly [jobOn 0 5, jobOn 1 6]).jobWrote, k.1 ∈ [1] →
    NoGapAfter (World.empty.after weekly [jobOn 0 5, jobOn 1 6]).table k
  decide +kernel

/-- The job does not run on day 1: the row of day 0 is relabelled, and an estimate replaces it. -/
theorem not_final_missedDay :
    ¬ ∀ (earlier later : List WriterRun) (world world' : World),
      Run (Step weekly) World.empty earlier world → Run (Step weekly) world later world' →
        Final weekly world later world' := by
  intro hfinal
  obtain ⟨row, hfind, -, hlater⟩ := hfinal [jobOn 0 5, jobOn 2 6] [reclassifyOn 2, resampleOn1095]
    _ _ (World.run_after _ _) (World.run_after _ _) (1, 0) (by decide +kernel)
  have hold : row = ⟨1, 1, 5, 0, false⟩ := by
    have hsome : (World.empty.after weekly [jobOn 0 5, jobOn 2 6]).table.find? (1, 0) =
        some ⟨1, 1, 5, 0, false⟩ := by decide +kernel
    rw [hsome] at hfind
    exact (Option.some_inj.mp hfind).symm
  have hnew : ((World.empty.after weekly [jobOn 0 5, jobOn 2 6]).after weekly
      [reclassifyOn 2, resampleOn1095]).table.find? (1, 0) = some ⟨1, 1, 7, 0, true⟩ := by
    decide +kernel
  have hdropped : ¬ ∃ run ∈ [reclassifyOn 2, resampleOn1095], run.drops weekly 0 = true := by
    decide +kernel
  rcases hlater (by decide +kernel) with hsame | hdrop
  · rw [hnew, hold] at hsame
    cases hsame
  · exact hdropped hdrop

end Neonfi.Snapshots

import Mathlib.Data.List.Sort
import Neonfi.Ledger.Model
import Neonfi.Lib.Run
import Neonfi.Wallet.Summary

/-!
# Balance snapshots and their writers

The `balance_snapshot` table and everything that writes it: the daily job with its retention,
the value history of a connected wallet, the demo backfill and the reclassification of old
rows.  A run reads one clock.  What it fetches or reads from other tables is an input of the
run, and so is the statement at which the database fails it.
-/

namespace Neonfi.Snapshots

open Lib
open Ledger (Millis Plan Portfolio)
open Wallet (column toDecimalString)

/-! ## The table -/

def DAY_MS : ℤ := 86400000

/-- `toISOString().slice(0, 10)`; a date is the number of its day since the epoch. -/
def dateOf (ms : Millis) : ℤ := ms / DAY_MS

structure BalanceSnapshot where
  portfolioId : ℕ
  userId : ℕ
  value : ℚ
  snapshotDate : ℤ
  approx : Bool
  deriving DecidableEq, Repr

def BalanceSnapshot.key (s : BalanceSnapshot) : ℕ × ℤ := (s.portfolioId, s.snapshotDate)

abbrev SnapshotTable := Table BalanceSnapshot (ℕ × ℤ) BalanceSnapshot.key

/-- `balanceSnapshot.upsert` of an observed value: both branches write `approx = false`. -/
def upsertObserved (row : BalanceSnapshot) (table : SnapshotTable) : SnapshotTable :=
  match table.find? row.key with
  | none => table.set { row with approx := false }
  | some old => table.set { old with value := row.value, approx := false }

/-- One row of `INSERT … ON CONFLICT … DO UPDATE … WHERE approx = true`. -/
def insertUnlessObserved (table : SnapshotTable) (row : BalanceSnapshot) : SnapshotTable :=
  match table.find? row.key with
  | none => table.set row
  | some old =>
      if old.approx then table.set { old with value := row.value, approx := row.approx }
      else table

/-- The statements of a pass, one after the other, up to the one the database fails. -/
def execute (statements : List (SnapshotTable → SnapshotTable)) (failsAt : Option ℕ)
    (table : SnapshotTable) : SnapshotTable :=
  (failsAt.elim statements fun k => statements.take k).foldl (fun t statement => statement t)
    table

/-- The rows in slices of at most `size`, one statement each. -/
def slices (size : ℕ) (rows : List BalanceSnapshot) : List (List BalanceSnapshot) :=
  (List.range ((rows.length + size - 1) / size)).map fun i => (rows.drop (i * size)).take size

def bulkInsert (size : ℕ) (rows : List BalanceSnapshot) :
    List (SnapshotTable → SnapshotTable) :=
  (slices size rows).map fun chunk table => chunk.foldl insertUnlessObserved table

/-! ## The daily job -/

def SNAPSHOT_RETENTION_DAYS : ℤ := 730

/-- What a run of the job reads: the portfolios with their owners, the plan and the derived
value it would be told of each (none where the call throws) and whether `drop_chunks` works. -/
structure DailyInputs where
  portfolios : List (ℕ × ℕ)
  getEffectivePlan : ℕ → Option Plan
  derive : ℕ → Option ℚ
  dropChunksSucceeded : Bool := true

/-- The loop state of `runSnapshotJob`, with the portfolios behind its two counters. -/
structure DailyState where
  table : SnapshotTable
  planByUser : ℕ → Option Plan := fun _ => none
  snapshotted : List ℕ := []
  failed : List ℕ := []

/-- One portfolio of the loop; the plan is asked once for each owner. -/
def snapshotPortfolio (today : ℤ) (inputs : DailyInputs) (state : DailyState)
    (portfolio : ℕ × ℕ) : DailyState :=
  match (state.planByUser portfolio.2).or (inputs.getEffectivePlan portfolio.1) with
  | none => { state with failed := portfolio.1 :: state.failed }
  | some plan =>
      let planByUser := Function.update state.planByUser portfolio.2 (some plan)
      if plan ≠ .pro then { state with planByUser }
      else
        match inputs.derive portfolio.1 with
        | none => { state with planByUser, failed := portfolio.1 :: state.failed }
        | some totalValue =>
            { state with
              planByUser
              table := upsertObserved ⟨portfolio.1, portfolio.2, totalValue, today, false⟩
                state.table
              snapshotted := portfolio.1 :: state.snapshotted }

def dailyLoop (today : ℤ) (inputs : DailyInputs) (table : SnapshotTable) : DailyState :=
  inputs.portfolios.foldl (snapshotPortfolio today inputs) { table }

/-- A chunk is dropped when all its dates are older than the retention: `chunkEnd` is the end
of the hypertable chunk of a date. -/
def Expired (chunkEnd : ℤ → ℤ) (today date : ℤ) : Prop :=
  chunkEnd date ≤ today - SNAPSHOT_RETENTION_DAYS

instance (chunkEnd : ℤ → ℤ) (today date : ℤ) : Decidable (Expired chunkEnd today date) :=
  inferInstanceAs (Decidable (_ ≤ _))

def dropChunks (chunkEnd : ℤ → ℤ) (today : ℤ) (table : SnapshotTable) : SnapshotTable :=
  table.filter fun row => ¬ Expired chunkEnd today row.snapshotDate

def runSnapshotJob (chunkEnd : ℤ → ℤ) (now : Millis) (inputs : DailyInputs)
    (table : SnapshotTable) : DailyState :=
  let state := dailyLoop (dateOf now) inputs table
  if inputs.dropChunksSucceeded then
    { state with table := dropChunks chunkEnd (dateOf now) state.table }
  else state

/-! ## The value history of a connected wallet -/

def VALUE_HISTORY_DAYS : ℤ := 1095

def MAX_MORALIS_VALUE_SAMPLES : ℤ := 50

structure ValuePoint where
  date : ℤ
  value : ℚ
  approx : Bool
  deriving DecidableEq, Repr

/-- What a pass over one wallet reads: its current value, the provider's priced history, and
what the sampler would be told the wallet was worth at an instant. -/
structure HistoryInputs where
  currentValue : ℚ
  valueHistory : Option (List (ℤ × ℚ)) := none
  moralisApiKey : Bool := true
  walletValueAt : Millis → Option ℚ := fun _ => none
  failsAt : Option ℕ := none

def sampleMoralisValueHistory (inputs : HistoryInputs) (fromMs toMs : Millis)
    (maxSamples : ℤ) : List (ℤ × ℚ) :=
  if inputs.moralisApiKey = false ∨ toMs ≤ fromMs ∨ maxSamples ≤ 0 then []
  else
    let span := toMs - fromMs
    let n := min maxSamples (max 1 (span / DAY_MS))
    (List.range n.toNat).filterMap fun i =>
      let ts := fromMs + span * i / n
      ((inputs.walletValueAt ts).filter fun value => decide (0 < value)).map fun value =>
        (dateOf ts, value)

/-- The points by date, a later source over an earlier one: the sampled tail, the priced
history, the current value. -/
def pointsByDate (now : Millis) (inputs : HistoryInputs) (days : ℤ) :
    Table ValuePoint ℤ ValuePoint.date :=
  let priced := inputs.valueHistory.getD []
  let windowStartMs := now - days * DAY_MS
  let earliestMs := (priced.head?.map fun p => p.1 * DAY_MS).getD now
  let tail :=
    if earliestMs > windowStartMs + 7 * DAY_MS then
      sampleMoralisValueHistory inputs windowStartMs earliestMs MAX_MORALIS_VALUE_SAMPLES
    else []
  let sampled := tail.foldl (fun byDate p => byDate.set ⟨p.1, p.2, true⟩) Table.empty
  let known := priced.foldl (fun byDate p => byDate.set ⟨p.1, p.2, false⟩) sampled
  known.set ⟨dateOf now, inputs.currentValue, false⟩

def buildConnectedValueHistory (now : Millis) (inputs : HistoryInputs) (days : ℤ) :
    List ValuePoint :=
  let points := (pointsByDate now inputs days).rows.filter fun p => p.date ≤ dateOf now
  (points.insertionSort fun p q => p.date ≤ q.date).dropWhile fun p => p.value ≤ 0

/-- The statements of `backfillConnectedSnapshots`; without the full history it writes today's
value only. -/
def backfillStatements (now : Millis) (portfolio : Portfolio) (fullHistory : Bool)
    (inputs : HistoryInputs) : List (SnapshotTable → SnapshotTable) :=
  let today := dateOf now
  let row (p : ValuePoint) : BalanceSnapshot :=
    ⟨portfolio.id, portfolio.userId, toDecimalString p.value, p.date, p.approx⟩
  if fullHistory then
    let series := buildConnectedValueHistory now inputs VALUE_HISTORY_DAYS
    bulkInsert 500 ((series.filter fun p => p.date < today).map row) ++
      ((series.find? fun p => p.date = today).map fun p => upsertObserved (row p)).toList
  else [upsertObserved (row ⟨today, inputs.currentValue, false⟩)]

def backfillConnectedSnapshots (now : Millis) (portfolio : Portfolio) (fullHistory : Bool)
    (inputs : HistoryInputs) : SnapshotTable → SnapshotTable :=
  execute (backfillStatements now portfolio fullHistory inputs) inputs.failsAt

def rebuildConnectedHistory (now : Millis) (portfolio : Portfolio) (inputs : HistoryInputs)
    (table : SnapshotTable) : SnapshotTable × Bool :=
  if portfolio.walletAddress.filter (· ≠ "") = none ∨ portfolio.chainId = none then (table, false)
  else (backfillConnectedSnapshots now portfolio true inputs table, true)

/-- The rebuild script: the table and the number of wallets it rebuilt, or would have. -/
def runRebuildConnectedHistory (now : Millis) (dryRun : Bool) (portfolios : List Portfolio)
    (inputs : ℕ → HistoryInputs) (table : SnapshotTable) : SnapshotTable × ℕ :=
  (portfolios.filter fun p => p.type = .connected).foldl
    (fun acc portfolio =>
      let rebuilt := rebuildConnectedHistory now portfolio (inputs portfolio.id) acc.1
      (if dryRun then acc.1 else rebuilt.1, if rebuilt.2 then acc.2 + 1 else acc.2))
    (table, 0)

/-! ## The demo backfill -/

def DAYS : ℕ := 365

structure DemoPortfolio where
  id : ℕ
  userId : ℕ
  assets : List (ℕ × ℚ)

/-- The balance rows of `runSnapshotsBackfill`: the current balances times the price series,
index `DAYS - 1` being today. -/
def demoRows (now : Millis) (series : ℕ → Option (ℕ → ℚ)) (portfolio : DemoPortfolio) :
    List BalanceSnapshot :=
  (List.range DAYS).map fun i =>
    let value :=
      (portfolio.assets.filterMap fun a => (series a.1).map fun prices => a.2 * prices i).sum
    ⟨portfolio.id, portfolio.userId, column.fix value, dateOf now - (DAYS - 1 - i : ℕ), true⟩

def CHUNK : ℕ := 1000

def runSnapshotsBackfill (now : Millis) (portfolios : List DemoPortfolio)
    (series : ℕ → Option (ℕ → ℚ)) (failsAt : Option ℕ) : SnapshotTable → SnapshotTable :=
  execute (bulkInsert CHUNK (portfolios.flatMap (demoRows now series))) failsAt

/-! ## The reclassification -/

/-- The oldest date of the streak of consecutive days that starts at the newest row. -/
def runOldestDate : ℤ → List ℤ → ℤ
  | newest, [] => newest
  | newest, date :: older => if newest - date = 1 then runOldestDate date older else newest

/-- The dates of a portfolio's rows, newest first. -/
def datesDesc (portfolioId : ℕ) (table : SnapshotTable) : List ℤ :=
  ((table.rows.filter fun row => row.portfolioId = portfolioId).map
    BalanceSnapshot.snapshotDate).insertionSort fun d e => e ≤ d

/-- The rows a reclassification of this portfolio marks. -/
def beforeStreak (portfolioId : ℕ) (table : SnapshotTable) (row : BalanceSnapshot) : Bool :=
  match datesDesc portfolioId table with
  | [] => false
  | newest :: older =>
      row.portfolioId = portfolioId && !row.approx &&
        decide (row.snapshotDate < runOldestDate newest older)

structure ReclassifyResult where
  portfolios : ℕ := 0
  touched : ℕ := 0
  rowsMarked : ℕ := 0
  dryRun : Bool
  deriving DecidableEq, Repr

/-- `updateMany … data: { approx: true }`. -/
def markApprox (marked : BalanceSnapshot → Bool) (table : SnapshotTable) : SnapshotTable :=
  table.modify (fun row => if marked row then { row with approx := true } else row)
    fun row => by split <;> rfl

/-- One portfolio of the loop: the rows older than its streak become approximate. -/
def reclassifyPortfolio (dryRun : Bool) (state : SnapshotTable × ReclassifyResult)
    (portfolioId : ℕ) : SnapshotTable × ReclassifyResult :=
  let marked := beforeStreak portfolioId state.1
  let count := state.1.rows.countP marked
  (if dryRun then state.1 else markApprox marked state.1,
    { state.2 with
      portfolios := state.2.portfolios + 1
      touched := state.2.touched + if 0 < count then 1 else 0
      rowsMarked := state.2.rowsMarked + count })

/-- `connected` are the ids of the connected portfolios. -/
def runReclassifyConnectedSnapshots (dryRun : Bool) (connected : List ℕ)
    (table : SnapshotTable) : SnapshotTable × ReclassifyResult :=
  connected.foldl (reclassifyPortfolio dryRun) (table, { dryRun })

/-! ## Runs of the writers -/

inductive Writer
  | daily (inputs : DailyInputs)
  | backfill (portfolio : Portfolio) (fullHistory : Bool) (inputs : HistoryInputs)
  | rebuild (dryRun : Bool) (portfolios : List Portfolio) (inputs : ℕ → HistoryInputs)
  | demo (portfolios : List DemoPortfolio) (series : ℕ → Option (ℕ → ℚ)) (failsAt : Option ℕ)
  | reclassify (dryRun : Bool) (connected : List ℕ)

structure WriterRun where
  now : Millis
  writer : Writer

def WriterRun.today (run : WriterRun) : ℤ := dateOf run.now

/-- The table and, as history, the keys of the rows in it that the daily job wrote. -/
structure World where
  table : SnapshotTable
  jobWrote : List (ℕ × ℤ)

def World.empty : World := ⟨Table.empty, []⟩

/-- What a run does to the table. -/
def WriterRun.write (chunkEnd : ℤ → ℤ) (run : WriterRun) (table : SnapshotTable) :
    SnapshotTable :=
  match run.writer with
  | .daily inputs => (runSnapshotJob chunkEnd run.now inputs table).table
  | .backfill portfolio fullHistory inputs =>
      backfillConnectedSnapshots run.now portfolio fullHistory inputs table
  | .rebuild dryRun portfolios inputs =>
      (runRebuildConnectedHistory run.now dryRun portfolios inputs table).1
  | .demo portfolios series failsAt => runSnapshotsBackfill run.now portfolios series failsAt table
  | .reclassify dryRun connected => (runReclassifyConnectedSnapshots dryRun connected table).1

/-- The retention of this run drops the rows of this date. -/
def WriterRun.drops (chunkEnd : ℤ → ℤ) (run : WriterRun) (date : ℤ) : Bool :=
  match run.writer with
  | .daily inputs => inputs.dropChunksSucceeded && decide (Expired chunkEnd run.today date)
  | _ => false

/-- The keys of the rows this run of the daily job writes. -/
def WriterRun.wrote (run : WriterRun) (table : SnapshotTable) : List (ℕ × ℤ) :=
  match run.writer with
  | .daily inputs =>
      (dailyLoop run.today inputs table).snapshotted.map fun portfolioId => (portfolioId, run.today)
  | _ => []

def World.step (chunkEnd : ℤ → ℤ) (run : WriterRun) (world : World) : World where
  table := run.write chunkEnd world.table
  jobWrote := (run.wrote world.table ++ world.jobWrote).filter fun k => !run.drops chunkEnd k.2

end Neonfi.Snapshots

import Neonfi.Ledger.Bulk
import Neonfi.Lib.Run

/-!
# Write transactions, statement by statement

The routes that post transactions run concurrently, each in one PostgreSQL transaction at
READ COMMITTED: a statement sees the rows that are committed when it starts and those of its
own transaction, and a row lock is held to the end.  Only the columns a balance depends on
are kept.  The portfolio total is left out: no balance reads it, and waiting for its row
lock only removes interleavings.
-/

namespace Neonfi.Ledger

open Lib

/-! ## Committed rows -/

/-- The columns of an asset that its balance is made of. -/
structure Holding where
  openingBalance : ℚ := 0
  balance : ℚ := 0
  deriving DecidableEq, Repr

inductive DetailTable
  | native
  | erc20
  deriving DecidableEq, Repr

/-- A native or erc20 transaction as the quantity fold reads it.  `key` is the portfolio and
the token whose symbol the row is booked under. -/
structure Entry where
  key : ℕ × ℕ
  direction : Direction
  table : DetailTable
  amount : ℚ
  deriving DecidableEq, Repr

/-- What an amount in this direction adds to a quantity. -/
def Direction.signed (direction : Direction) (amount : ℚ) : ℚ :=
  match direction with
  | .buy => amount
  | .sell => -amount
  | .transfer => 0

def Entry.signed (e : Entry) : ℚ := e.direction.signed e.amount

structure Store where
  holding : ℕ × ℕ → Option Holding
  entries : List Entry

/-- What the rows of one detail table add to a holding. -/
def moved (table : DetailTable) (key : ℕ × ℕ) (entries : List Entry) : ℚ :=
  ((entries.filter fun e => e.table = table ∧ e.key = key).map Entry.signed).sum

/-! ## Sessions -/

/-- The statements before the recalculations. -/
inductive Stmt
  | lock (key : ℕ × ℕ)
  | check (key : ℕ × ℕ) (amount : ℚ)
  | ensureAsset (key : ℕ × ℕ)
  | createAsset (key : ℕ × ℕ)
  | insert (entry : Entry)
  deriving DecidableEq, Repr

/-- The next statement of `recalcAssetBalance`, with the quantity summed so far. -/
inductive RecalcStage
  | lock
  | readAsset
  | readNative (qty : ℚ)
  | readErc20 (qty : ℚ)
  | update (qty : ℚ)
  deriving DecidableEq, Repr

/-- An open transaction: the statements it has still to run, then the assets it has still to
recalculate, and the rows it has written. -/
structure Session where
  todo : List Stmt
  recalcs : List (ℕ × ℕ)
  stage : RecalcStage := .lock
  own : ℕ × ℕ → Option Holding := fun _ => none
  inserted : List Entry := []
  /-- The balances a bulk import loaded before its transaction. -/
  loaded : Option (ℕ × ℕ → ℚ) := none

structure State where
  store : Store
  locks : ℕ × ℕ → Option ℕ
  sessions : ℕ → Option Session

namespace State

/-- No transaction is open. -/
def idle (store : Store) : State where
  store := store
  locks _ := none
  sessions _ := none

variable (s : State) (i : ℕ)

/-- The asset row a statement of the session sees. -/
def row (c : Session) (key : ℕ × ℕ) : Option Holding := (c.own key).or (s.store.holding key)

/-- Nobody else holds the row lock. -/
def Free (key : ℕ × ℕ) : Prop := s.locks key = none ∨ s.locks key = some i

instance (key : ℕ × ℕ) : Decidable (s.Free i key) :=
  inferInstanceAs (Decidable (s.locks key = none ∨ s.locks key = some i))

def take (key : ℕ × ℕ) : State :=
  { s with locks := Function.update s.locks key (some i) }

def put (c : Session) : State :=
  { s with sessions := Function.update s.sessions i (some c) }

/-- End of a transaction: its session and its locks are gone. -/
def close : State :=
  { s with
    locks := fun key => if s.locks key = some i then none else s.locks key
    sessions := Function.update s.sessions i none }

/-- The committed rows after the session's transaction commits. -/
def merge (c : Session) : Store where
  holding := s.row c
  entries := s.store.entries ++ c.inserted

/-- One statement; `c` is the session without it.  `none` is a statement that waits. -/
def exec (c : Session) : Stmt → Option State
  | .lock key =>
      if (s.row c key).isNone then some (s.put i c)
      else if s.Free i key then some ((s.take i key).put i c)
      else none
  | .check key amount =>
      match s.row c key with
      | some h => if amount ≤ h.balance then some (s.put i c) else some (s.close i)
      | none => some (s.close i)
  | .ensureAsset key =>
      if (s.row c key).isSome then some (s.put i c)
      else some (s.put i { c with todo := .createAsset key :: c.todo })
  | .createAsset key =>
      -- a committed row is a unique violation, an uncommitted one of another session a wait
      if (s.row c key).isSome then some (s.close i)
      else if s.Free i key then
        some ((s.take i key).put i { c with own := Function.update c.own key (some {}) })
      else none
  | .insert entry => some (s.put i { c with inserted := c.inserted ++ [entry] })

section Recalc

variable (N : Numeric)

/-- One statement of `recalcAssetBalance` on `key`; `rest` are the assets after it. -/
def recalc (c : Session) (key : ℕ × ℕ) (rest : List (ℕ × ℕ)) : Option State :=
  match c.stage with
  | .lock =>
      if (s.row c key).isNone then some (s.put i { c with stage := .readAsset })
      else if s.Free i key then some ((s.take i key).put i { c with stage := .readAsset })
      else none
  | .readAsset =>
      match s.row c key with
      | some h => some (s.put i { c with stage := .readNative h.openingBalance })
      | none => some (s.put i { c with recalcs := rest, stage := .lock })
  | .readNative qty =>
      let sum := moved .native key (s.store.entries ++ c.inserted)
      some (s.put i { c with stage := .readErc20 (qty + sum) })
  | .readErc20 qty =>
      let sum := moved .erc20 key (s.store.entries ++ c.inserted)
      some (s.put i { c with stage := .update (qty + sum) })
  | .update qty =>
      match s.row c key with
      | some h =>
          if s.Free i key then
            let own := Function.update c.own key (some { h with balance := N.fix qty })
            some ((s.take i key).put i { c with own, recalcs := rest, stage := .lock })
          else none
      | none => some (s.put i { c with recalcs := rest, stage := .lock })

/-- The next statement of a session. -/
def next (c : Session) : Option State :=
  match c.todo, c.recalcs with
  | stmt :: todo, _ => s.exec i { c with todo } stmt
  | [], key :: rest => s.recalc i N c key rest
  | [], [] => none

end Recalc

end State

/-! ## Requests -/

/-- A row of a bulk import whose cells and hash are fine; it is a buy or a sell. -/
structure BulkTrade where
  token : Token
  direction : Direction
  amountCell : String
  amount : AmountStr
  moves : direction ≠ .transfer

inductive PostRequest
  | create (portfolioId : ℕ) (plan : Plan) (token : Token) (table : DetailTable)
      (direction : Direction) (amount : AmountStr)
  | createNft
  | transfer (sourceId destId tokenId : ℕ) (amount : AmountStr)
  | bulk (portfolioId : ℕ) (js : Js) (plan : Plan) (mode : BulkMode) (trades : List BulkTrade)

namespace Store

variable (store : Store)

def balance (key : ℕ × ℕ) : ℚ := ((store.holding key).map Holding.balance).getD 0

/-- The maps a bulk import loads. -/
def load (portfolioId : ℕ) : Batch where
  heldTokens tokenId := (store.holding (portfolioId, tokenId)).isSome
  runningBalance tokenId := store.balance (portfolioId, tokenId)

end Store

/-- The rows that pass the business rules on the running balance, each with whether it
creates its asset. -/
def acceptedTrades (js : Js) (plan : Plan) : List BulkTrade → Batch → List (BulkTrade × Bool)
  | [], _ => []
  | trade :: trades, b =>
      match applyRunning js plan trade.token trade.direction trade.amountCell trade.amount b with
      | .error _ => acceptedTrades js plan trades b
      | .ok (b, createAsset) => (trade, createAsset) :: acceptedTrades js plan trades b

section Requests

variable (N : Numeric)

def BulkTrade.entry (portfolioId : ℕ) (trade : BulkTrade) : Entry where
  key := (portfolioId, trade.token.id)
  direction := trade.direction
  table := .native
  amount := N.fix trade.amount

def insertTrade (portfolioId : ℕ) (accepted : BulkTrade × Bool) : List Stmt :=
  let entry := accepted.1.entry N portfolioId
  if accepted.2 then [.createAsset entry.key, .insert entry] else [.insert entry]

/-- The transaction a request opens, from what it read before; `none` is a refusal. -/
def PostRequest.session (store : Store) : PostRequest → Option Session
  | .create portfolioId plan token table direction amount =>
      let entry : Entry := ⟨(portfolioId, token.id), direction, table, N.fix amount⟩
      if (store.holding entry.key).isSome then
        if direction = .sell then
          some { todo := [.lock entry.key, .check entry.key amount, .insert entry]
                 recalcs := [entry.key] }
        else some { todo := [.insert entry], recalcs := [entry.key] }
      else if direction = .buy ∧ planRefuses plan token = false then
        some { todo := [.createAsset entry.key, .insert entry], recalcs := [entry.key] }
      else none
  | .createNft => some { todo := [], recalcs := [] }
  | .transfer sourceId destId tokenId amount =>
      if sourceId = destId then none
      else
        let source : Entry := ⟨(sourceId, tokenId), .sell, .native, N.fix amount⟩
        let dest : Entry := ⟨(destId, tokenId), .buy, .native, N.fix amount⟩
        some
          { todo := [.lock source.key, .check source.key amount, .ensureAsset dest.key,
              .insert source, .insert dest]
            recalcs := [source.key, dest.key] }
  | .bulk portfolioId js plan mode trades =>
      let accepted := acceptedTrades js plan trades (store.load portfolioId)
      if mode = .allOrNothing ∧ accepted.length ≠ trades.length then none
      else
        some
          { todo := accepted.flatMap (insertTrade N portfolioId)
            recalcs := (accepted.map fun a => (a.1.entry N portfolioId).key).dedup
            loaded := some store.balance }

/-! ## Interleavings -/

inductive SessionEvent
  | begin (i : ℕ) (request : PostRequest)
  | exec (i : ℕ)
  | commit (i : ℕ)
  | abort (i : ℕ)

/-- One step of one session.  A transaction can be rolled back at any moment: by an error of
a statement that is not modelled, a deadlock, a timeout or a crash. -/
def State.step (s : State) : SessionEvent → Option State
  | .begin i request =>
      match s.sessions i with
      | some _ => none
      | none => (request.session N s.store).map (s.put i)
  | .exec i =>
      match s.sessions i with
      | some c => s.next i N c
      | none => none
  | .commit i =>
      match s.sessions i with
      | some c =>
          if c.todo = [] ∧ c.recalcs = [] then some { s.close i with store := s.merge c }
          else none
      | none => none
  | .abort i =>
      match s.sessions i with
      | some _ => some (s.close i)
      | none => none

def Interleaves (s : State) (e : SessionEvent) (s' : State) : Prop := s.step N e = some s'

end Requests

end Neonfi.Ledger

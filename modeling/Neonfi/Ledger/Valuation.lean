import Neonfi.Ledger.CreateDelete

/-!
# The value of a transaction under concurrent edits

`usdValue` is derived from the amount and the entered price of its row.  A PATCH reads the row
before its transaction begins, and combines what it patches with what it has read: the three
columns stay in step as long as the row still has the values that were read.
-/

namespace Neonfi.Valuation

open Lib
open Ledger

/-! ## Requests in two parts -/

/-- What a creation finds out before its transaction. -/
structure PreparedTrade where
  trade : TradeFields
  token : Token
  autoCreateAsset : Bool
  usdValue : ℚ

/-- What an update has read: the row, and the tokens to recalculate. -/
structure PreparedUpdate where
  existing : Transaction
  oldTokenId : Option ℕ
  newTokenId : Option ℕ

/-- Prisma's missing record. -/
def recordNotFound : Failure := .database "P2025"

section

variable (N : Numeric)

/-- `createTransaction` before its transaction; there is nothing to prepare for an NFT. -/
def prepareCreate (env : Env) (portfolio : Portfolio) (body : CreateTransactionBody) (db : Db) :
    Except Failure (Option PreparedTrade) := do
  assertManualPortfolio portfolio
  match body.payload.trade? with
  | none => return none
  | some trade =>
      let token ← resolveToken db trade.symbol
      let autoCreateAsset ← resolveAutoCreate env portfolio body.direction token db
      let usdValue := computeUsdValue N env db trade.symbol trade.amount
        (trade.priceAtTime.map Subtype.val)
      return some ⟨trade, token, autoCreateAsset, usdValue⟩

/-- The transaction of `createTransaction`. -/
def commitCreate (portfolio : Portfolio) (body : CreateTransactionBody) (db : Db) :
    Option PreparedTrade → Except Failure Db
  | none => do
      let db ← insertTransaction (body.row N portfolio.id 0) db
      db.commit N
  | some prepared => do
      let tokenId := prepared.token.id
      guardOversell portfolio.id tokenId body.direction prepared.trade.amount db
      let db ← createIfNeeded prepared.autoCreateAsset portfolio.id tokenId db
      let db ← insertTransaction (body.row N portfolio.id prepared.usdValue) db
      let db := recalcAssetBalance N portfolio.id tokenId db
      let db := recalcPortfolioNetDeposit N portfolio.id db
      db.commit N

/-- `updateTransaction` before its transaction. -/
def prepareUpdate (portfolio : Portfolio) (txId : ℕ) (body : UpdateTransactionBody) (db : Db) :
    Except Failure PreparedUpdate := do
  assertManualPortfolio portfolio
  let existing ← findOwnTransaction portfolio txId db
  ensure (existing.transferGroupId = none) transferEditUnsupported
  let (oldTokenId, newTokenId) ← resolvePatchedTokens portfolio body existing db
  return ⟨existing, oldTokenId, newTokenId⟩

/-- The detail columns after a PATCH: those of the body over those of the row, and the USD value
from what was read. -/
def patchTrade (env : Env) (db : Db) (body : UpdateTransactionBody) (read row : TradeDetail) :
    TradeDetail :=
  let patched := body.applyTrade N env db read
  { amount := (body.amount.map fun amount => N.fix amount).getD row.amount
    symbol := (body.symbol.map Subtype.val).getD row.symbol
    usdValue := if body.usdAffected && patched.symbol ≠ "" then patched.usdValue else row.usdValue
    priceAtTime := (body.priceAtTime.map fun price => N.fix price).or row.priceAtTime }

/-- The detail table is that of the row that was read. -/
def patchDetail (env : Env) (db : Db) (body : UpdateTransactionBody) :
    Detail → Detail → Option Detail
  | .native read, .native row => some (.native (patchTrade N env db body read row))
  | .erc20 read _, .erc20 row info =>
      some (.erc20 (patchTrade N env db body read row)
        { tokenContractAddress := body.tokenContractAddress.getD info.tokenContractAddress
          tokenName := body.tokenName.getD info.tokenName
          tokenSymbol := body.tokenSymbol.getD info.tokenSymbol })
  | .nft _, .nft row => some (body.applyDetail N env db (.nft row))
  | _, _ => none

/-- The transaction of `updateTransaction`. -/
def commitUpdate (env : Env) (portfolio : Portfolio) (txId : ℕ) (body : UpdateTransactionBody)
    (prepared : PreparedUpdate) (db : Db) : Except Failure Db := do
  let row ← require (db.findTransactionById txId) recordNotFound
  let detail ← require (patchDetail N env db body prepared.existing.detail row.detail)
    recordNotFound
  let patched := db.updateTransactionRow txId (fun t => { body.apply N env db t with detail })
    (fun _ => rfl) fun _ => rfl
  if (body.balanceAffected || body.usdAffected) && prepared.existing.detail.trade?.isSome then
    (recalcPatched N portfolio.id prepared.oldTokenId prepared.newTokenId patched).commit N
  else patched.commit N

end

/-! ## Requests, step by step -/

inductive Work
  | createTransaction (portfolio : Portfolio) (body : CreateTransactionBody)
  | creating (portfolio : Portfolio) (body : CreateTransactionBody)
      (prepared : Option PreparedTrade)
  | updateTransaction (portfolio : Portfolio) (txId : ℕ) (body : UpdateTransactionBody)
  | updating (portfolio : Portfolio) (txId : ℕ) (body : UpdateTransactionBody)
      (prepared : PreparedUpdate)

def Work.isNew : Work → Bool
  | .createTransaction _ _ => true
  | .updateTransaction _ _ _ => true
  | _ => false

def Work.portfolio : Work → Portfolio
  | .createTransaction portfolio _ => portfolio
  | .creating portfolio _ _ => portfolio
  | .updateTransaction portfolio _ _ => portfolio
  | .updating portfolio _ _ _ => portfolio

structure State where
  db : Db
  requests : ℕ → Option Work := fun _ => none
  answers : List (ℕ × Except Failure Unit) := []

/-- Nothing is in flight. -/
def State.start (db : Db) : State := { db }

/-- A request comes in with the portfolio its middleware has loaded, makes its next step with the
prices of that moment, or breaks off. -/
inductive Act
  | request (id : ℕ) (work : Work)
  | go (id : ℕ) (env : Env)
  | fail (id : ℕ) (e : Failure)

namespace State

variable (N : Numeric) (s : State) (id : ℕ)

def put (work : Work) : State :=
  { s with requests := Function.update s.requests id (some work) }

def finish (answer : Except Failure Unit) : State :=
  { s with
    requests := Function.update s.requests id none
    answers := s.answers ++ [(id, answer)] }

/-- A part that only reads, and what is to be done with its result. -/
def prepare {α : Type} (work : α → Work) : Except Failure α → State
  | .error e => s.finish id (.error e)
  | .ok prepared => s.put id (work prepared)

/-- The end of a request. -/
def commit : Except Failure Db → State
  | .error e => s.finish id (.error e)
  | .ok db => { s with db }.finish id (.ok ())

def go (env : Env) : Work → State
  | .createTransaction portfolio body =>
      s.prepare id (.creating portfolio body) (prepareCreate N env portfolio body s.db)
  | .creating portfolio body prepared => s.commit id (commitCreate N portfolio body s.db prepared)
  | .updateTransaction portfolio txId body =>
      s.prepare id (.updating portfolio txId body) (prepareUpdate portfolio txId body s.db)
  | .updating portfolio txId body prepared =>
      s.commit id (commitUpdate N env portfolio txId body prepared s.db)

def step : Act → Option State
  | .request id work =>
      if work.isNew ∧ s.requests id = none ∧
          s.db.findPortfolioById work.portfolio.id = some work.portfolio then
        some (s.put id work)
      else none
  | .go id env => (s.requests id).map (s.go N id env)
  | .fail id e => (s.requests id).map fun _ => s.finish id (.error e)

end State

def Steps (N : Numeric) (s : State) (act : Act) (s' : State) : Prop := s.step N act = some s'

/-! ## The parts make up the requests -/

section

variable {N : Numeric} {env : Env} {portfolio : Portfolio} {db db' : Db}

/-- The two parts of a creation, one right after the other. -/
theorem createTransaction_eq {body : CreateTransactionBody} :
    createTransaction N env portfolio body db =
      prepareCreate N env portfolio body db >>= commitCreate N portfolio body db := by
  have htrade : ∀ trade, createTrade N env portfolio body trade db =
      (do
        let token ← resolveToken db trade.symbol
        let autoCreateAsset ← resolveAutoCreate env portfolio body.direction token db
        let usdValue := computeUsdValue N env db trade.symbol trade.amount
          (trade.priceAtTime.map Subtype.val)
        return some ⟨trade, token, autoCreateAsset, usdValue⟩) >>=
          commitCreate N portfolio body db := by
    intro trade
    unfold createTrade
    cases resolveToken db trade.symbol with
    | error e => rfl
    | ok token =>
        cases hauto : resolveAutoCreate env portfolio body.direction token db with
        | error e =>
            rw [ok_bind, ok_bind, hauto]
            rfl
        | ok auto =>
            rw [ok_bind, ok_bind, hauto]
            rfl
  unfold createTransaction prepareCreate
  cases assertManualPortfolio portfolio with
  | error e => rfl
  | ok _ =>
      rw [ok_bind, ok_bind]
      cases body.payload with
      | native trade => exact htrade trade
      | erc20 trade info => exact htrade trade
      | nft nft => rfl

theorem patchTrade_self {body : UpdateTransactionBody} {d : TradeDetail} :
    patchTrade N env db body d d = body.applyTrade N env db d := by
  unfold patchTrade UpdateTransactionBody.applyTrade
  dsimp only
  congr 1
  split <;> rfl

theorem patchDetail_self {body : UpdateTransactionBody} {d : Detail} :
    patchDetail N env db body d d = some (body.applyDetail N env db d) := by
  cases d with
  | native d => exact congrArg (some ∘ Detail.native) patchTrade_self
  | erc20 d info =>
      unfold patchDetail UpdateTransactionBody.applyDetail
      dsimp only
      rw [patchTrade_self]
  | nft nft => rfl

/-- Only the row with the number is rewritten. -/
theorem updateTransactionRow_congr {txId : ℕ} {f g : Transaction → Transaction}
    {hf : ∀ t, (f t).id = t.id} {hf' : ∀ t, (f t).hashKey = t.hashKey}
    {hg : ∀ t, (g t).id = t.id} {hg' : ∀ t, (g t).hashKey = t.hashKey} {row : Transaction}
    (hrow : db.findTransactionById txId = some row) (h : f row = g row) :
    db.updateTransactionRow txId f hf hf' = db.updateTransactionRow txId g hg hg' := by
  obtain ⟨hmem, hid⟩ := SerialTable.find?_eq_some_iff.mp hrow
  have hrows : (db.transactions.rows.map fun t => if t.id = txId then f t else t) =
      db.transactions.rows.map fun t => if t.id = txId then g t else t := by
    refine List.map_congr_left fun t ht => ?_
    split
    · next htx => rw [SerialTable.eq_of_id_eq ht hmem (htx.trans hid.symm), h]
    · rfl
  unfold Db.updateTransactionRow SerialTable.modify
  simp only [hrows]

/-- The two parts of an update, one right after the other. -/
theorem updateTransaction_eq {txId : ℕ} {body : UpdateTransactionBody} :
    updateTransaction N env portfolio txId body db =
      prepareUpdate portfolio txId body db >>= fun prepared =>
        commitUpdate N env portfolio txId body prepared db := by
  unfold updateTransaction prepareUpdate
  cases assertManualPortfolio portfolio with
  | error e => rfl
  | ok _ =>
      cases hown : findOwnTransaction portfolio txId db with
      | error e => rfl
      | ok existing =>
          obtain ⟨hmem, hid, -⟩ := SoundExcept.findOwnTransaction_ok hown
          have hrow : db.findTransactionById txId = some existing :=
            SerialTable.find?_eq_some_iff.mpr ⟨hmem, hid⟩
          rw [ok_bind, ok_bind, ok_bind, ok_bind]
          cases ensure (existing.transferGroupId = none) transferEditUnsupported with
          | error e => rfl
          | ok _ =>
              rw [ok_bind, ok_bind]
              cases resolvePatchedTokens portfolio body existing db with
              | error e => rfl
              | ok tokens =>
                  obtain ⟨oldTokenId, newTokenId⟩ := tokens
                  have hpatched : db.updateTransactionRow txId
                      (fun t => { body.apply N env db t with
                        detail := body.applyDetail N env db existing.detail })
                      (fun _ => rfl) (fun _ => rfl) =
                      db.updateTransactionRow txId (body.apply N env db) (fun _ => rfl)
                        fun _ => rfl :=
                    updateTransactionRow_congr hrow rfl
                  unfold commitUpdate
                  rw [ok_bind, ok_bind]
                  dsimp only
                  rw [hrow]
                  show _ = require (patchDetail N env db body existing.detail existing.detail)
                    recordNotFound >>= _
                  rw [patchDetail_self]
                  show _ = if _ then _ else _
                  rw [hpatched]

end

/-! ## Rows in step -/

section

variable (N : Numeric)

/-- The value of a row with an entered price is its amount at that price. -/
def Valued (d : TradeDetail) : Prop :=
  ∀ price, d.priceAtTime = some price → d.usdValue = N.fix (d.amount * price)

/-- A row names a token, and no price is negative. -/
def Entered (d : TradeDetail) : Prop :=
  d.symbol ≠ "" ∧ ∀ price, d.priceAtTime = some price → 0 ≤ price

/-- The type of every portfolio. -/
def portfolioType (db : Db) (p : ℕ) : Option PortfolioType :=
  (db.findPortfolioById p).map Portfolio.type

/-- A row of a manual portfolio, by the types of the portfolios. -/
def ManualRow (P : TradeDetail → Prop) (types : ℕ → Option PortfolioType)
    (t : TransactionData) : Prop :=
  types t.portfolioId = some .manual → ∀ d, t.detail.trade? = some d → P d

/-- Every manual row of a state is `P`. -/
def ManualRows (P : TradeDetail → Prop) (db : Db) : Prop :=
  AllRows (ManualRow P (portfolioType db)) db

/-- A row that names a token and has its value in step. -/
def Priced (d : TradeDetail) : Prop := Entered d ∧ Valued N d

/-- The amount and the price of a creation have at most the digits of the column. -/
def CreateOnGrid (body : CreateTransactionBody) : Prop :=
  ∀ trade ∈ body.payload.trade?, N.OnGrid trade.amount ∧ ∀ price ∈ trade.priceAtTime, N.OnGrid price

/-- The patched amount and price have at most the digits of the column. -/
def PatchOnGrid (body : UpdateTransactionBody) : Prop :=
  (∀ amount ∈ body.amount, N.OnGrid amount) ∧ ∀ price ∈ body.priceAtTime, N.OnGrid price

def Work.OnGrid : Work → Prop
  | .createTransaction _ body => CreateOnGrid N body
  | .updateTransaction _ _ body => PatchOnGrid N body
  | _ => True

def Act.OnGrid : Act → Prop
  | .request _ work => work.OnGrid N
  | _ => True

/-- What a PATCH does not set but takes over into the value of a priced row is still in the row. -/
def ReadHolds (body : UpdateTransactionBody) (read row : TradeDetail) : Prop :=
  body.usdAffected → (body.priceAtTime.isSome ∨ row.priceAtTime.isSome) →
    (body.amount = none → row.amount = read.amount) ∧
      (body.priceAtTime = none → row.priceAtTime = read.priceAtTime)

/-- A PATCH that writes finds in its row what it has read. -/
def Work.InStep (db : Db) : Work → Prop
  | .updating _ txId body prepared =>
      ∀ t ∈ db.findTransactionById txId, ∀ read ∈ prepared.existing.detail.trade?,
        ∀ row ∈ t.detail.trade?, ReadHolds body read row
  | _ => True

def InStep (s : State) : Act → Prop
  | .go id _ => ∀ work ∈ s.requests id, work.InStep s.db
  | _ => True

/-! Both conditions can be evaluated. -/

instance (body : CreateTransactionBody) : Decidable (CreateOnGrid N body) :=
  inferInstanceAs (Decidable (∀ trade ∈ body.payload.trade?, N.fix trade.amount = trade.amount ∧
    ∀ price ∈ trade.priceAtTime, N.fix price = price))

instance (body : UpdateTransactionBody) : Decidable (PatchOnGrid N body) :=
  inferInstanceAs (Decidable ((∀ amount ∈ body.amount, N.fix amount = amount) ∧
    ∀ price ∈ body.priceAtTime, N.fix price = price))

instance : (work : Work) → Decidable (work.OnGrid N)
  | .createTransaction _ body => inferInstanceAs (Decidable (CreateOnGrid N body))
  | .creating _ _ _ => isTrue trivial
  | .updateTransaction _ _ body => inferInstanceAs (Decidable (PatchOnGrid N body))
  | .updating _ _ _ _ => isTrue trivial

instance : (act : Act) → Decidable (act.OnGrid N)
  | .request _ work => inferInstanceAs (Decidable (work.OnGrid N))
  | .go _ _ => isTrue trivial
  | .fail _ _ => isTrue trivial

instance (body : UpdateTransactionBody) (read row : TradeDetail) :
    Decidable (ReadHolds body read row) :=
  inferInstanceAs (Decidable (body.usdAffected = true →
    (body.priceAtTime.isSome = true ∨ row.priceAtTime.isSome = true) →
    (body.amount = none → row.amount = read.amount) ∧
      (body.priceAtTime = none → row.priceAtTime = read.priceAtTime)))

instance (db : Db) : (work : Work) → Decidable (work.InStep db)
  | .createTransaction _ _ => isTrue trivial
  | .creating _ _ _ => isTrue trivial
  | .updateTransaction _ _ _ => isTrue trivial
  | .updating _ txId body prepared =>
      inferInstanceAs (Decidable (∀ t ∈ db.findTransactionById txId,
        ∀ read ∈ prepared.existing.detail.trade?, ∀ row ∈ t.detail.trade?,
          ReadHolds body read row))

instance (s : State) : (act : Act) → Decidable (InStep s act)
  | .request _ _ => isTrue trivial
  | .go id _ => inferInstanceAs (Decidable (∀ work ∈ s.requests id, work.InStep s.db))
  | .fail _ _ => isTrue trivial

end

section

variable {N : Numeric} {env : Env} {db : Db}

theorem entered_stored {trade : TradeFields} {usdValue : ℚ} :
    Entered (trade.stored N usdValue) := by
  refine ⟨symbolStr_ne_empty trade.symbol, fun price hprice => ?_⟩
  unfold TradeFields.stored at hprice
  cases hentered : trade.priceAtTime with
  | none =>
      rw [hentered] at hprice
      cases hprice
  | some entered =>
      rw [hentered] at hprice
      cases hprice
      exact Numeric.fix_nonneg entered.property.1

theorem valued_stored {trade : TradeFields} {usdValue : ℚ} (hamount : N.OnGrid trade.amount)
    (hprice : ∀ price, trade.priceAtTime = some price → N.OnGrid price)
    (husd : ∀ price, trade.priceAtTime = some price →
      usdValue = N.fix (trade.amount * price)) : Valued N (trade.stored N usdValue) := by
  intro price h
  unfold TradeFields.stored at h
  cases hentered : trade.priceAtTime with
  | none =>
      rw [hentered] at h
      cases h
  | some entered =>
      rw [hentered] at h
      cases h
      calc usdValue = N.fix (trade.amount * entered) := husd entered hentered
        _ = N.fix (N.fix trade.amount * N.fix entered) := by rw [hamount, hprice entered hentered]

theorem entered_patchTrade {body : UpdateTransactionBody} {read row : TradeDetail}
    (hrow : Entered row) : Entered (patchTrade N env db body read row) := by
  constructor
  · show (body.symbol.map Subtype.val).getD row.symbol ≠ ""
    cases body.symbol with
    | none => exact hrow.1
    | some symbol => exact symbolStr_ne_empty symbol
  · intro price hprice
    change (body.priceAtTime.map fun price => N.fix price).or row.priceAtTime = some price at hprice
    cases hbody : body.priceAtTime with
    | none =>
        rw [hbody] at hprice
        exact hrow.2 price hprice
    | some entered =>
        rw [hbody] at hprice
        cases hprice
        exact Numeric.fix_nonneg entered.property.1

/-- A PATCH keeps the value in step when what it takes over from its read is still in the row. -/
theorem valued_patchTrade {body : UpdateTransactionBody} {read row : TradeDetail}
    (hgrid : PatchOnGrid N body) (hread : Entered read) (hrow : Priced N row)
    (hholds : ReadHolds body read row) : Valued N (patchTrade N env db body read row) := by
  obtain ⟨hamounts, hprices⟩ := hgrid
  intro price hprice
  change (body.priceAtTime.map fun price => N.fix price).or row.priceAtTime = some price at hprice
  by_cases husd : body.usdAffected = true
  · have hpriced : body.priceAtTime.isSome ∨ row.priceAtTime.isSome := by
      cases hbody : body.priceAtTime with
      | none =>
          rw [hbody] at hprice
          exact .inr (Option.isSome_of_eq_some hprice)
      | some entered => exact .inl rfl
    obtain ⟨hamount, hsame⟩ := hholds husd hpriced
    have hsymbol : (body.symbol.map Subtype.val).getD read.symbol ≠ "" := by
      cases body.symbol with
      | none => exact hread.1
      | some symbol => exact symbolStr_ne_empty symbol
    have hused : (body.priceAtTime.map Subtype.val).or read.priceAtTime = some price ∧
        0 ≤ price := by
      cases hbody : body.priceAtTime with
      | none =>
          rw [hbody] at hprice
          exact ⟨(hsame hbody).symm.trans hprice, hrow.1.2 price hprice⟩
      | some entered =>
          rw [hbody] at hprice
          cases hprice
          have hfix := hprices entered hbody
          exact ⟨congrArg some hfix.symm, Numeric.fix_nonneg entered.property.1⟩
    have hstored : (body.amount.map fun amount => N.fix amount).getD row.amount =
        (body.amount.map Subtype.val).getD read.amount := by
      cases hbody : body.amount with
      | none => exact hamount hbody
      | some amount => exact hamounts amount hbody
    have hrecomputed : (body.usdAffected &&
        decide ((body.symbol.map Subtype.val).getD read.symbol ≠ "")) = true := by
      rw [husd, Bool.true_and]
      exact decide_eq_true hsymbol
    calc (patchTrade N env db body read row).usdValue
        = (body.applyTrade N env db read).usdValue := if_pos hrecomputed
      _ = computeUsdValue N env db ((body.symbol.map Subtype.val).getD read.symbol)
            ((body.amount.map Subtype.val).getD read.amount)
            ((body.priceAtTime.map Subtype.val).or read.priceAtTime) := if_pos hrecomputed
      _ = N.fix ((body.amount.map Subtype.val).getD read.amount * price) := by
          rw [hused.1, computeUsdValue_entered hused.2]
      _ = N.fix ((patchTrade N env db body read row).amount * price) := by rw [← hstored]; rfl
  · have hnone : body.amount = none ∧ body.priceAtTime = none := by
      unfold UpdateTransactionBody.usdAffected at husd
      simp only [Bool.or_eq_true, not_or, Bool.not_eq_true, Option.isSome_eq_false_iff,
        Option.isNone_iff_eq_none] at husd
      exact ⟨husd.1.1, husd.2⟩
    rw [hnone.2] at hprice
    calc (patchTrade N env db body read row).usdValue = row.usdValue :=
          if_neg (by simp [husd])
      _ = N.fix (row.amount * price) := hrow.2 price hprice
      _ = N.fix ((patchTrade N env db body read row).amount * price) := by
          unfold patchTrade
          rw [hnone.1]
          rfl

theorem manualRow_row {P : TradeDetail → Prop} {types : ℕ → Option PortfolioType}
    {body : CreateTransactionBody} {portfolioId : ℕ} {usdValue : ℚ}
    (h : ∀ trade, body.payload.trade? = some trade → P (trade.stored N usdValue)) :
    ManualRow P types (body.row N portfolioId usdValue) := by
  intro _ d hd
  unfold CreateTransactionBody.row at hd
  cases hpayload : body.payload with
  | native trade =>
      rw [hpayload] at hd h
      cases hd
      exact h trade rfl
  | erc20 trade info =>
      rw [hpayload] at hd h
      cases hd
      exact h trade rfl
  | nft nft =>
      rw [hpayload] at hd
      cases hd

theorem trade_patchDetail {body : UpdateTransactionBody} {read row detail : Detail}
    {d : TradeDetail} (h : patchDetail N env db body read row = some detail)
    (hd : detail.trade? = some d) :
    ∃ r w, read.trade? = some r ∧ row.trade? = some w ∧ d = patchTrade N env db body r w := by
  unfold patchDetail at h
  split at h
  · cases h
    cases hd
    exact ⟨_, _, rfl, rfl, rfl⟩
  · cases h
    cases hd
    exact ⟨_, _, rfl, rfl, rfl⟩
  · cases h
    cases hd
  · cases h

end

/-! ## Portfolios keep their types -/

section

variable {N : Numeric} {env : Env} {db db' : Db}

@[simp] theorem portfolioType_recalcAssetBalance {portfolioId tokenId : ℕ} :
    portfolioType (recalcAssetBalance N portfolioId tokenId db) = portfolioType db := by
  unfold recalcAssetBalance
  split
  · rfl
  · split <;> rfl

@[simp] theorem portfolioType_recalcPortfolioNetDeposit {portfolioId : ℕ} :
    portfolioType (recalcPortfolioNetDeposit N portfolioId db) = portfolioType db :=
  funext fun p =>
    (@Drifts.recalcTotal N [portfolioId] 0 db _ (List.mem_singleton_self portfolioId)).type_eq p

@[simp] theorem portfolioType_recalcPatched {portfolioId : ℕ} {old new : Option ℕ} :
    portfolioType (recalcPatched N portfolioId old new db) = portfolioType db := by
  unfold recalcPatched
  cases old with
  | none => cases new <;> simp
  | some o =>
      cases new with
      | none => simp
      | some n =>
          dsimp only
          split <;> simp

theorem portfolioType_insertTransaction {data : TransactionData}
    (h : insertTransaction data db = .ok db') : portfolioType db' = portfolioType db := by
  obtain ⟨transactions, rfl, -⟩ := createTransactionRow_ok (insertTransaction_ok h)
  rfl

theorem portfolioType_createIfNeeded {needed : Bool} {portfolioId tokenId : ℕ}
    (h : createIfNeeded needed portfolioId tokenId db = .ok db') :
    portfolioType db' = portfolioType db := by
  rcases createIfNeeded_ok h with rfl | hcreate
  · rfl
  · obtain ⟨assets, rfl, -⟩ := createAsset_ok hcreate
    rfl

end

/-! ## What a step preserves -/

/-- What the request has in hand. -/
def Work.Sound (N : Numeric) (types : ℕ → Option PortfolioType) : Work → Prop
  | .createTransaction _ body => CreateOnGrid N body
  | .creating portfolio body prepared => ManualRow (Priced N) types
      (body.row N portfolio.id ((prepared.map PreparedTrade.usdValue).getD 0))
  | .updateTransaction portfolio _ body =>
      types portfolio.id = some portfolio.type ∧ PatchOnGrid N body
  | .updating _ _ body prepared => PatchOnGrid N body ∧
      ∀ read, prepared.existing.detail.trade? = some read → Entered read

/-- The tables, for portfolios of the given types. -/
structure DbSound (N : Numeric) (types : ℕ → Option PortfolioType) (db : Db) : Prop where
  types_eq : portfolioType db = types
  rows : AllRows (ManualRow (Priced N) types) db

structure Sound (N : Numeric) (types : ℕ → Option PortfolioType) (s : State) : Prop where
  db : DbSound N types s.db
  requests : ∀ id work, s.requests id = some work → work.Sound N types

section

variable {N : Numeric} {types : ℕ → Option PortfolioType} {env : Env} {db db' : Db}
variable {portfolio : Portfolio}

theorem DbSound.commitCreate {body : CreateTransactionBody} {prepared : Option PreparedTrade}
    (h : DbSound N types db) (hwork : (Work.creating portfolio body prepared).Sound N types)
    (hok : commitCreate N portfolio body db prepared = .ok db') : DbSound N types db' := by
  cases prepared with
  | none =>
      obtain ⟨db₁, hinsert, hcommit⟩ := bind_eq_ok hok
      rw [(commit_ok hcommit).1]
      exact ⟨(portfolioType_insertTransaction hinsert).trans h.types_eq,
        h.rows.insertRow hwork (insertTransaction_ok hinsert)⟩
  | some prepared =>
      obtain ⟨-, -, hok⟩ := bind_eq_ok hok
      obtain ⟨db₁, hneeded, hok⟩ := bind_eq_ok hok
      obtain ⟨db₂, hinsert, hcommit⟩ := bind_eq_ok hok
      have hrows : AllRows (ManualRow (Priced N) types) db₂ :=
        (h.rows.of_eq (transactions_createIfNeeded hneeded)).insertRow hwork
          (insertTransaction_ok hinsert)
      have htypes : portfolioType db₂ = types :=
        ((portfolioType_insertTransaction hinsert).trans
          (portfolioType_createIfNeeded hneeded)).trans h.types_eq
      rw [(commit_ok hcommit).1]
      exact ⟨by simpa using htypes, hrows.of_eq (by simp)⟩

/-- The value a creation has computed is that of the row it inserts. -/
theorem sound_prepareCreate {body : CreateTransactionBody} {prepared : Option PreparedTrade}
    (hgrid : CreateOnGrid N body)
    (hok : prepareCreate N env portfolio body db = .ok prepared) :
    (Work.creating portfolio body prepared).Sound N types := by
  refine manualRow_row fun trade htrade => ⟨entered_stored, ?_⟩
  obtain ⟨-, -, hok⟩ := bind_eq_ok hok
  rw [htrade] at hok
  obtain ⟨token, -, hok⟩ := bind_eq_ok hok
  obtain ⟨auto, -, hok⟩ := bind_eq_ok hok
  cases hok
  obtain ⟨hamount, hprice⟩ := hgrid trade htrade
  refine valued_stored hamount hprice fun price hentered => ?_
  show computeUsdValue N env db trade.symbol trade.amount _ = _
  rw [hentered]
  exact computeUsdValue_entered price.property.1

theorem prepareUpdate_ok {txId : ℕ} {body : UpdateTransactionBody} {prepared : PreparedUpdate}
    (hok : prepareUpdate portfolio txId body db = .ok prepared) :
    portfolio.type = .manual ∧ prepared.existing ∈ db.transactions.rows ∧
      prepared.existing.portfolioId = portfolio.id := by
  obtain ⟨_, hmanual, hok⟩ := bind_eq_ok hok
  obtain ⟨existing, hown, hok⟩ := bind_eq_ok hok
  obtain ⟨-, -, hok⟩ := bind_eq_ok hok
  obtain ⟨tokens, -, hok⟩ := bind_eq_ok hok
  cases hok
  obtain ⟨hmem, -, hp⟩ := SoundExcept.findOwnTransaction_ok hown
  exact ⟨assertManualPortfolio_ok hmanual, hmem, hp⟩

theorem sound_prepareUpdate {txId : ℕ} {body : UpdateTransactionBody} {prepared : PreparedUpdate}
    (h : DbSound N types db) (hwork : (Work.updateTransaction portfolio txId body).Sound N types)
    (hok : prepareUpdate portfolio txId body db = .ok prepared) :
    (Work.updating portfolio txId body prepared).Sound N types := by
  obtain ⟨htype, hgrid⟩ := hwork
  obtain ⟨hmanual, hmem, hp⟩ := prepareUpdate_ok hok
  refine ⟨hgrid, fun read hread => (h.rows _ hmem ?_ read hread).1⟩
  rw [hp, htype, hmanual]

theorem DbSound.patch {txId : ℕ} {body : UpdateTransactionBody} {read : Transaction}
    {row : Transaction} {detail : Detail} (h : DbSound N types db) (hgrid : PatchOnGrid N body)
    (hread : ∀ d, read.detail.trade? = some d → Entered d)
    (hrow : db.findTransactionById txId = some row)
    (hholds : ∀ d, read.detail.trade? = some d → ∀ w, row.detail.trade? = some w →
      ReadHolds body d w)
    (hdetail : patchDetail N env db body read.detail row.detail = some detail) :
    AllRows (ManualRow (Priced N) types) (db.updateTransactionRow txId
      (fun t => { body.apply N env db t with detail }) (fun _ => rfl) fun _ => rfl) := by
  obtain ⟨hmem, hid⟩ := SerialTable.find?_eq_some_iff.mp hrow
  intro t ht
  obtain ⟨t, hmem', rfl⟩ := List.mem_map.mp ht
  split
  · next htx =>
      obtain rfl : t = row := SerialTable.eq_of_id_eq hmem' hmem (htx.trans hid.symm)
      intro hmanual d hd
      obtain ⟨r, w, hr, hw, rfl⟩ := trade_patchDetail hdetail hd
      have hpriced := h.rows t hmem hmanual w hw
      exact ⟨entered_patchTrade hpriced.1,
        valued_patchTrade hgrid (hread r hr) hpriced (hholds r hr w hw)⟩
  · exact h.rows t hmem'

theorem DbSound.commitUpdate {txId : ℕ} {body : UpdateTransactionBody} {prepared : PreparedUpdate}
    (h : DbSound N types db)
    (hwork : (Work.updating portfolio txId body prepared).Sound N types)
    (hholds : (Work.updating portfolio txId body prepared).InStep db)
    (hok : commitUpdate N env portfolio txId body prepared db = .ok db') : DbSound N types db' := by
  obtain ⟨row, hrow, hok⟩ := bind_eq_ok hok
  obtain ⟨detail, hdetail, hok⟩ := bind_eq_ok hok
  have hrows := h.patch hwork.1 hwork.2 (require_ok hrow) (hholds row (require_ok hrow))
    (require_ok hdetail)
  dsimp only at hok
  split at hok
  · rw [(commit_ok hok).1]
    exact ⟨portfolioType_recalcPatched.trans h.types_eq, hrows.of_eq transactions_recalcPatched⟩
  · rw [(commit_ok hok).1]
    exact ⟨h.types_eq, hrows⟩

end

namespace Sound

variable {N : Numeric} {types : ℕ → Option PortfolioType} {s : State} {id : ℕ}

theorem put {work : Work} (h : Sound N types s) (hwork : work.Sound N types) :
    Sound N types (s.put id work) where
  db := h.db
  requests other w hw := by
    have hw := (Function.update_apply s.requests id (some work) other).symm.trans hw
    split at hw
    · cases hw
      exact hwork
    · exact h.requests other w hw

theorem finish {answer : Except Failure Unit} (h : Sound N types s) :
    Sound N types (s.finish id answer) where
  db := h.db
  requests other w hw := by
    have hw := (Function.update_apply s.requests id none other).symm.trans hw
    split at hw
    · cases hw
    · exact h.requests other w hw

theorem prepare {α : Type} {work : α → Work} {result : Except Failure α} (h : Sound N types s)
    (hok : ∀ prepared, result = .ok prepared → (work prepared).Sound N types) :
    Sound N types (s.prepare id work result) := by
  cases result with
  | error e => exact h.finish
  | ok prepared => exact h.put (hok prepared rfl)

theorem commit {result : Except Failure Db} (h : Sound N types s)
    (hok : ∀ db, result = .ok db → DbSound N types db) : Sound N types (s.commit id result) := by
  cases result with
  | error e => exact h.finish
  | ok db => exact finish ⟨hok db rfl, h.requests⟩

/-- One step of any request. -/
theorem step {act : Act} {s' : State} (h : Sound N types s) (hgrid : act.OnGrid N)
    (hholds : InStep s act) (hstep : Steps N s act s') : Sound N types s' := by
  cases act with
  | request id work =>
      change (if _ then _ else _) = some s' at hstep
      split at hstep
      · next hnew =>
          cases hstep
          obtain ⟨hnew, -, hfind⟩ := hnew
          refine h.put ?_
          cases work with
          | createTransaction portfolio body => exact hgrid
          | creating portfolio body prepared => cases hnew
          | updateTransaction portfolio txId body =>
              have htype : portfolioType s.db portfolio.id = some portfolio.type :=
                congrArg (Option.map Portfolio.type) hfind
              exact ⟨h.db.types_eq ▸ htype, hgrid⟩
          | updating portfolio txId body prepared => cases hnew
      · cases hstep
  | go id env =>
      obtain ⟨work, hid, rfl⟩ := Option.map_eq_some_iff.mp hstep
      have hwork := h.requests id work hid
      cases work with
      | createTransaction portfolio body =>
          exact h.prepare fun prepared => sound_prepareCreate hwork
      | creating portfolio body prepared => exact h.commit fun db => h.db.commitCreate hwork
      | updateTransaction portfolio txId body =>
          exact h.prepare fun prepared => sound_prepareUpdate h.db hwork
      | updating portfolio txId body prepared =>
          exact h.commit fun db =>
            h.db.commitUpdate hwork (hholds _ hid)
  | fail id e =>
      obtain ⟨work, -, rfl⟩ := Option.map_eq_some_iff.mp hstep
      exact h.finish

theorem start {db : Db} (hrows : ManualRows (Priced N) db) :
    Sound N (portfolioType db) (.start db) where
  db := ⟨rfl, hrows⟩
  requests id work h := by cases h

theorem rows_valued (h : Sound N types s) : ManualRows (Valued N) s.db := by
  intro t ht hmanual d hd
  have htypes : types t.portfolioId = some .manual := by rw [← h.db.types_eq, hmanual]
  exact (h.db.rows t ht htypes d hd).2

end Sound

/-- The steps of requests whose decimals have at most the digits of the column. -/
abbrev GridSteps (N : Numeric) : State → Act → State → Prop :=
  Guarded (Steps N) fun _ act => act.OnGrid N

/-- In every run in which a PATCH that writes still finds what it has read and takes over, every
manual row with an entered price has its amount at that price as its value. -/
theorem rows_valued_of_inStep {N : Numeric} {db : Db} {acts : List Act} {s : State}
    (hrows : ManualRows (Priced N) db)
    (hrun : Run (Guarded (GridSteps N) InStep) (.start db) acts s) : ManualRows (Valued N) s.db :=
  (hrun.invariant (I := Sound N (portfolioType db))
    (fun _ _ _ h hstep => h.step hstep.1.2 hstep.2 hstep.1.1) (.start hrows)).rows_valued

/-! ## Two edits at once -/

/-- Over every run every manual row with an entered price has its amount at that price as its
value. -/
def AlwaysValued (N : Numeric) : Prop :=
  ∀ (db : Db) (acts : List Act) (s : State), ManualRows (Priced N) db →
    Run (GridSteps N) (.start db) acts s → ManualRows (Valued N) s.db

def samplePortfolio (netDeposit : ℚ) : Portfolio :=
  { id := 1, userId := 1, type := .manual, netDeposit }

def go (id : ℕ) : Act := .go id sampleEnv

/-- One unit is bought at 100. -/
def bought : List Act :=
  [.request 1 (.createTransaction (samplePortfolio 0)
    (trade .buy ⟨1, amount_1⟩ ⟨100, bounded_100⟩ 10)), go 1, go 1]

def patch (id : ℕ) (netDeposit : ℚ) (body : UpdateTransactionBody) : Act :=
  .request id (.updateTransaction (samplePortfolio netDeposit) 1 body)

def newAmount : UpdateTransactionBody := { amount := some ⟨2, amount_2⟩ }

def newPrice : UpdateTransactionBody := { priceAtTime := some ⟨300, bounded_300⟩ }

/-- Both edits read the purchase before either of them writes. -/
def crossedEdits : List Act :=
  bought ++ [patch 2 100 newAmount, patch 3 100 newPrice, go 2, go 3, go 2, go 3]

/-- The steps whose decimals fit the grid. -/
abbrev sampleStep (act : Act) (s : State) : Option State :=
  checked (fun _ act => act.OnGrid decimal20_8) (flip (State.step decimal20_8)) act s

def crossed : State := (tried sampleStep crossedEdits (State.start sampleDb)).2

theorem sample_priced : ManualRows (Priced decimal20_8) sampleDb := fun t ht => by cases ht

/-- Two units at 300 are left with the value of one. -/
theorem not_alwaysValued : ¬ AlwaysValued decimal20_8 := by
  intro halways
  have hrun : Run (GridSteps decimal20_8) (.start sampleDb) _ crossed :=
    run_tried_checked (fun _ (act : Act) => act.OnGrid decimal20_8) (flip (State.step decimal20_8))
      crossedEdits (State.start sampleDb)
  have hvalued := halways sampleDb _ crossed sample_priced hrun
  have hrow : ∃ t ∈ crossed.db.transactions.rows,
      portfolioType crossed.db t.portfolioId = some .manual ∧
        t.detail.trade? = some ⟨2, "ETH", 300, some 300⟩ := by decide +kernel
  obtain ⟨t, ht, hmanual, htrade⟩ := hrow
  have hvalue : (300 : ℚ) = decimal20_8.fix (2 * 300) := hvalued t ht hmanual _ htrade 300 rfl
  exact absurd hvalue (by decide +kernel)

/-- The same edits, one after the other. -/
def orderedEdits : List Act :=
  bought ++ [patch 2 100 newAmount, go 2, go 2, patch 3 200 newPrice, go 3, go 3]

def ordered : State := (tried (checked InStep sampleStep) orderedEdits (State.start sampleDb)).2

theorem rows_valued_ordered : ManualRows (Valued decimal20_8) ordered.db ∧
    ordered.db.transactions.rows.map (fun t => t.detail.trade?) =
      [some ⟨2, "ETH", 600, some 300⟩] := by
  have hrun := (run_tried_checked InStep sampleStep orderedEdits (State.start sampleDb)).mono
    fun _ _ _ hstep => (⟨guarded_of_checked hstep.1, hstep.2⟩ :
      Guarded (GridSteps decimal20_8) InStep _ _ _)
  exact ⟨rows_valued_of_inStep sample_priced hrun, by decide +kernel⟩

end Neonfi.Valuation

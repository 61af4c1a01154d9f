import Neonfi.Ledger.Frame

/-!
# The order of the trades is what the replay sees

The fold reads direction, amount, value and transfer flag of the buys and sells, in order.
Rows that keep these and keep their order replay to the same totals, whatever their
timestamps are.
-/

namespace Neonfi.Ledger

open Lib

/-- What the fold reads of an event. -/
structure Trade where
  dir : Direction
  amount : ℚ
  usd : ℚ
  isTransfer : Bool
  deriving DecidableEq, Repr

def LedgerEvent.trade (e : LedgerEvent) : Trade := ⟨e.dir, e.amount, e.usd, e.isTransfer⟩

/-- Buys and sells move the totals; the manual `transfer` direction does not. -/
def LedgerEvent.moves (e : LedgerEvent) : Bool := e.dir ≠ .transfer

def Totals.apply (s : Totals) (t : Trade) : Totals :=
  s.step ⟨t.dir, t.amount, t.usd, t.isTransfer, 0, 0⟩

theorem step_eq_apply (s : Totals) (e : LedgerEvent) : s.step e = s.apply e.trade := rfl

theorem step_of_not_moves {s : Totals} {e : LedgerEvent} (h : e.moves = false) :
    s.step e = s := by
  have hdir : e.dir = .transfer := by simpa [LedgerEvent.moves] using h
  unfold Totals.step
  rw [hdir]

theorem replay_eq_trades (a : Asset) (events : List LedgerEvent) :
    replay a events =
      ((events.filter LedgerEvent.moves).map LedgerEvent.trade).foldl Totals.apply
        (Totals.opening a.openingBalance a.openingCostBasis) := by
  unfold replay
  generalize Totals.opening a.openingBalance a.openingCostBasis = s
  induction events generalizing s with
  | nil => rfl
  | cons e events ih =>
      by_cases hmoves : e.moves
      · rw [List.filter_cons_of_pos hmoves, List.foldl_cons, List.map_cons, List.foldl_cons,
          ← step_eq_apply]
        exact ih _
      · rw [List.filter_cons_of_neg hmoves, List.foldl_cons,
          step_of_not_moves (by simpa using hmoves)]
        exact ih _

/-- The ids of a token's buys and sells in replay order. -/
def tradeOrder (db : Db) (portfolioId : ℕ) (symbol : String) : List ℕ :=
  ((ledgerEvents db portfolioId symbol).filter LedgerEvent.moves).map LedgerEvent.id

/-- Two lists with the same keys have the same values when the key determines the value. -/
theorem map_eq_map_of_keys {α κ β : Type} {key : α → κ} {val : α → β} {xs ys : List α}
    (hkeys : xs.map key = ys.map key)
    (hval : ∀ x ∈ xs, ∀ y ∈ ys, key x = key y → val x = val y) :
    xs.map val = ys.map val := by
  induction xs generalizing ys with
  | nil =>
      have hnil : ys = [] := by simpa using hkeys.symm
      rw [hnil]
  | cons x xs ih =>
      cases ys with
      | nil => simp at hkeys
      | cons y ys =>
          rw [List.map_cons, List.map_cons, List.cons.injEq] at hkeys
          rw [List.map_cons, List.map_cons, hval x (by simp) y (by simp) hkeys.1]
          congr 1
          exact ih hkeys.2 fun x' hx y' hy =>
            hval x' (List.mem_cons_of_mem _ hx) y' (List.mem_cons_of_mem _ hy)

theorem mem_ledgerEvents {db : Db} {portfolioId : ℕ} {symbol : String} {e : LedgerEvent} :
    e ∈ ledgerEvents db portfolioId symbol ↔
      e ∈ eventRows db.transactions.rows portfolioId symbol :=
  (List.perm_insertionSort _ _).mem_iff

/-- An event comes from a row of the token with its id, its direction and its detail. -/
theorem row_of_event {rows : List Transaction} {portfolioId : ℕ} {symbol : String}
    {e : LedgerEvent} (h : e ∈ eventRows rows portfolioId symbol) :
    ∃ t ∈ rows, ∃ d, t.Concerns portfolioId symbol ∧ t.id = e.id ∧ t.detail.trade? = some d ∧
      e.trade = ⟨t.direction, d.amount, d.usdValue, t.transferGroupId.isSome⟩ := by
  have hrow : ∀ detail? : Detail → Option TradeDetail,
      (∀ detail d, detail? detail = some d → detail.trade? = some d) →
      e ∈ rows.filterMap (Transaction.eventOf detail? portfolioId symbol) →
      ∃ t ∈ rows, ∃ d, t.Concerns portfolioId symbol ∧ t.id = e.id ∧
        t.detail.trade? = some d ∧ e.trade = ⟨t.direction, d.amount, d.usdValue,
            t.transferGroupId.isSome⟩ := by
    intro detail? hdetail hmem
    obtain ⟨t, ht, he⟩ := List.mem_filterMap.mp hmem
    unfold Transaction.eventOf TransactionData.event? at he
    split at he
    · next hportfolio =>
        split at he
        · cases he
        · next d hd =>
            split at he
            · next hsymbol =>
                cases he
                have hconcerns : t.Concerns portfolioId symbol := by
                  refine ⟨hportfolio, ?_⟩
                  rw [TransactionData.symbol?, hdetail _ _ hd, Option.map_some, hsymbol]
                exact ⟨t, ht, d, hconcerns, rfl, hdetail _ _ hd, rfl⟩
            · cases he
    · cases he
  rcases List.mem_append.mp h with h | h
  · refine hrow Detail.native? (fun detail d hd => ?_) h
    cases detail <;> simp_all [Detail.native?, Detail.trade?]
  · refine hrow Detail.erc20? (fun detail d hd => ?_) h
    cases detail <;> simp_all [Detail.erc20?, Detail.trade?]

/-- A rewrite of one row that keeps what the fold reads and the order of the trades keeps
the replay. -/
theorem replay_of_tradeOrder {db db' : Db} {f : Transaction → Transaction}
    (hrows : db'.transactions.rows = db.transactions.rows.map f)
    (hkeep : ∀ t ∈ db.transactions.rows, (f t).id = t.id ∧ (f t).direction = t.direction ∧
      (f t).detail.trade? = t.detail.trade? ∧ (f t).transferGroupId = t.transferGroupId)
    {portfolioId : ℕ} {symbol : String}
    (horder : tradeOrder db' portfolioId symbol = tradeOrder db portfolioId symbol) (a : Asset) :
    replay a (ledgerEvents db' portfolioId symbol) =
      replay a (ledgerEvents db portfolioId symbol) := by
  rw [replay_eq_trades, replay_eq_trades]
  congr 1
  apply map_eq_map_of_keys horder
  intro x hx y hy hid
  have hx' := mem_ledgerEvents.mp (List.mem_of_mem_filter hx)
  have hy' := mem_ledgerEvents.mp (List.mem_of_mem_filter hy)
  rw [hrows] at hx'
  obtain ⟨t, ht, d, -, htid, htd, htrade⟩ := row_of_event hx'
  obtain ⟨s, hs, d', -, hsid, hsd, hstrade⟩ := row_of_event hy'
  obtain ⟨t₀, ht₀, rfl⟩ := List.mem_map.mp ht
  obtain ⟨hkid, hkdir, hkdetail, hkgroup⟩ := hkeep t₀ ht₀
  have hsame : t₀ = s := SerialTable.eq_of_id_eq ht₀ hs (by rw [← hkid, htid, hid, hsid])
  subst hsame
  rw [hkdetail, hsd] at htd
  cases htd
  rw [htrade, hstrade, hkdir, hkgroup]

/-! ## A row at the end -/

instance : Std.Total LedgerEvent.before where
  total a b := by
    rcases lt_trichotomy a.ts b.ts with hts | hts | hts
    · exact .inl (.inl hts)
    · rcases le_total a.id b.id with hid | hid
      · exact .inl (.inr ⟨hts, hid⟩)
      · exact .inr (.inr ⟨hts.symm, hid⟩)
    · exact .inr (.inl hts)

instance : IsTrans LedgerEvent LedgerEvent.before where
  trans a b c hab hbc := by
    rcases hab with hab | ⟨hab, hid⟩
    · rcases hbc with hbc | ⟨hbc, -⟩
      · exact .inl (hab.trans hbc)
      · exact .inl (hbc ▸ hab)
    · rcases hbc with hbc | ⟨hbc, hid'⟩
      · exact .inl (hab ▸ hbc)
      · exact .inr ⟨hab.trans hbc, hid.trans hid'⟩

theorem LedgerEvent.ts_id_of_before {a b : LedgerEvent} (hab : a.before b) (hba : b.before a) :
    a.ts = b.ts ∧ a.id = b.id := by
  rcases hab with hab | ⟨hab, hid⟩
  · rcases hba with hba | ⟨hba, -⟩
    · exact absurd hba hab.asymm
    · exact absurd hba hab.ne'
  · rcases hba with hba | ⟨-, hid'⟩
    · exact absurd hab hba.ne'
    · exact ⟨hab, le_antisymm hid hid'⟩

theorem LedgerEvent.ext_trade {a b : LedgerEvent} (htrade : a.trade = b.trade)
    (hts : a.ts = b.ts) (hid : a.id = b.id) : a = b := by
  obtain ⟨hdir, hamount, husd, hgroup⟩ := (Trade.mk.injEq ..).mp htrade
  cases a
  cases b
  simp_all

/-- Two events of one token under one id are one event. -/
theorem event_eq_of_id {db : Db} {portfolioId : ℕ} {symbol : String} {a b : LedgerEvent}
    (ha : a ∈ eventRows db.transactions.rows portfolioId symbol)
    (hb : b ∈ eventRows db.transactions.rows portfolioId symbol)
    (hts : a.ts = b.ts) (hid : a.id = b.id) : a = b := by
  obtain ⟨t, ht, d, -, htid, htd, htrade⟩ := row_of_event ha
  obtain ⟨s, hs, d', -, hsid, hsd, hstrade⟩ := row_of_event hb
  have hsame : t = s := SerialTable.eq_of_id_eq ht hs (by rw [htid, hid, hsid])
  subst hsame
  rw [htd] at hsd
  cases hsd
  exact LedgerEvent.ext_trade (htrade.trans hstrade.symm) hts hid

/-- New rows add their events, wherever these come in the order. -/
theorem perm_ledgerEvents_append {db db' : Db} {new : List Transaction}
    (hrows : db'.transactions.rows = db.transactions.rows ++ new) (portfolioId : ℕ)
    (symbol : String) :
    (ledgerEvents db' portfolioId symbol).Perm
      (ledgerEvents db portfolioId symbol ++ eventRows new portfolioId symbol) := by
  refine (List.perm_insertionSort _ _).trans ?_
  refine List.Perm.trans ?_ ((List.perm_insertionSort _ _).symm.append_right _)
  unfold eventRows
  rw [hrows, List.filterMap_append, List.filterMap_append, List.append_assoc, List.append_assoc]
  refine List.Perm.append_left _ ?_
  rw [← List.append_assoc, ← List.append_assoc]
  exact List.perm_append_comm.append_right _

/-- A native row that comes after every event of its token is replayed last. -/
theorem ledgerEvents_push {db db' : Db} {t : Transaction} {portfolioId : ℕ} {symbol : String}
    {e : LedgerEvent} (hrows : db'.transactions.rows = db.transactions.rows ++ [t])
    (hnative : t.eventOf Detail.native? portfolioId symbol = some e)
    (herc20 : t.eventOf Detail.erc20? portfolioId symbol = none)
    (hlast : ∀ x ∈ ledgerEvents db portfolioId symbol, x.before e) :
    ledgerEvents db' portfolioId symbol = ledgerEvents db portfolioId symbol ++ [e] := by
  have hnew : eventRows [t] portfolioId symbol = [e] := by
    simp [eventRows, hnative, herc20]
  have hperm : (ledgerEvents db' portfolioId symbol).Perm
      (ledgerEvents db portfolioId symbol ++ [e]) :=
    hnew ▸ perm_ledgerEvents_append hrows portfolioId symbol
  refine List.Perm.eq_of_pairwise ?_
    (List.pairwise_insertionSort _ _) ?_ hperm
  · intro a b ha hb hab hba
    have ha' := mem_ledgerEvents.mp ha
    have hb' := mem_ledgerEvents.mp (hperm.mem_iff.mpr hb)
    obtain ⟨hts, hid⟩ := LedgerEvent.ts_id_of_before hab hba
    exact event_eq_of_id ha' hb' hts hid
  · rw [List.pairwise_append]
    refine ⟨List.pairwise_insertionSort _ _, List.pairwise_singleton _ _, ?_⟩
    intro x hx y hy
    rw [List.mem_singleton.mp hy]
    exact hlast x hx

/-- A new native row that no event of its token comes after is replayed last. -/
theorem ledgerEvents_createTransactionRow {db db' : Db} {data : TransactionData}
    {d : TradeDetail} (hrow : db.createTransactionRow data = .ok db')
    (hdetail : data.detail = .native d)
    (hts : ∀ x ∈ ledgerEvents db data.portfolioId d.symbol, x.ts ≤ data.timestamp) :
    ledgerEvents db' data.portfolioId d.symbol = ledgerEvents db data.portfolioId d.symbol ++
      [⟨data.direction, d.amount, d.usdValue, data.transferGroupId.isSome, data.timestamp,
        db.transactions.next⟩] := by
  obtain ⟨transactions, rfl, hrows⟩ := createTransactionRow_ok hrow
  refine ledgerEvents_push hrows ?_ ?_ fun x hx => ?_
  · simp [Transaction.eventOf, TransactionData.event?, hdetail, Detail.native?]
  · simp [Transaction.eventOf, TransactionData.event?, hdetail, Detail.erc20?]
  · obtain ⟨t, ht, -, -, hid, -, -⟩ := row_of_event (mem_ledgerEvents.mp hx)
    have hbelow : x.id ≤ db.transactions.next := hid ▸ (db.transactions.below t ht).le
    rcases (hts x hx).lt_or_eq with hlt | heq
    · exact .inl hlt
    · exact .inr ⟨heq, hbelow⟩

/-- A new row leaves the events of every other token alone. -/
theorem ledgerEvents_createTransactionRow_of_ne {db db' : Db} {data : TransactionData}
    {portfolioId : ℕ} {symbol : String} (hrow : db.createTransactionRow data = .ok db')
    (hne : ¬ data.Concerns portfolioId symbol) :
    ledgerEvents db' portfolioId symbol = ledgerEvents db portfolioId symbol := by
  obtain ⟨transactions, rfl, hrows⟩ := createTransactionRow_ok hrow
  apply ledgerEvents_congr
  show eventRows transactions.rows portfolioId symbol = _
  rw [hrows]
  exact eventRows_concat hne

/-! ## Moving a row in time -/

/-- The ledger with one transaction moved to another time. -/
def retimed (db : Db) (txId : ℕ) (ts : Millis) : Db :=
  db.updateTransactionRow txId (fun t => { t with timestamp := ts }) (fun _ => rfl) fun _ => rfl

theorem tradeOrder_congr {db db' : Db} {portfolioId : ℕ} {symbol : String}
    (h : eventRows db'.transactions.rows portfolioId symbol =
      eventRows db.transactions.rows portfolioId symbol) :
    tradeOrder db' portfolioId symbol = tradeOrder db portfolioId symbol := by
  unfold tradeOrder
  rw [ledgerEvents_congr h]

/-- Two rewrites of the rows give the same events when they agree on what an event reads. -/
theorem eventRows_map_congr {rows : List Transaction} {f g : Transaction → Transaction}
    {portfolioId : ℕ} {symbol : String}
    (h : ∀ t ∈ rows, (f t).id = (g t).id ∧ (f t).portfolioId = (g t).portfolioId ∧
      (f t).direction = (g t).direction ∧ (f t).timestamp = (g t).timestamp ∧
      (f t).transferGroupId = (g t).transferGroupId ∧
      (f t).detail.native? = (g t).detail.native? ∧
      (f t).detail.erc20? = (g t).detail.erc20?) :
    eventRows (rows.map f) portfolioId symbol = eventRows (rows.map g) portfolioId symbol := by
  unfold eventRows
  rw [List.filterMap_map, List.filterMap_map, List.filterMap_map, List.filterMap_map]
  congr 1
  · apply List.filterMap_congr
    intro t ht
    obtain ⟨hid, hp, hdir, hts, hgroup, hnative, -⟩ := h t ht
    simp only [Function.comp_apply, Transaction.eventOf, TransactionData.event?, hid, hp, hdir,
      hts, hgroup, hnative]
  · apply List.filterMap_congr
    intro t ht
    obtain ⟨hid, hp, hdir, hts, hgroup, -, herc20⟩ := h t ht
    simp only [Function.comp_apply, Transaction.eventOf, TransactionData.event?, hid, hp, hdir,
      hts, hgroup, herc20]

end Neonfi.Ledger

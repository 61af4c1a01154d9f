import Neonfi.Ledger.CreateDelete
import Neonfi.Ledger.Derive
import Neonfi.Ledger.Rollup

/-!
# What a transfer moves

The balance and the net deposit of a holding are sums over its rows, so the order of the rows
does not count.  A transfer takes from one sum what it adds to another, and creates nothing
unless rows of a removed asset wait in the destination.
-/

namespace Neonfi.Ledger

open Lib

/-! ## Two sums -/

/-- The units an event brings into its holding. -/
def LedgerEvent.units (e : LedgerEvent) : ℚ :=
  match e.dir with
  | .buy => e.amount
  | .sell => -e.amount
  | .transfer => 0

theorem Totals.qty_step (s : Totals) (e : LedgerEvent) : (s.step e).qty = s.qty + e.units := by
  unfold step LedgerEvent.units
  cases e.dir with
  | buy => rfl
  | sell =>
      unfold sell
      cases s.avg? <;> simp [sub_eq_add_neg]
  | transfer => simp

theorem Totals.qty_foldl (s : Totals) (events : List LedgerEvent) :
    (events.foldl step s).qty = s.qty + (events.map LedgerEvent.units).sum := by
  induction events generalizing s with
  | nil => simp
  | cons e events ih =>
      rw [List.foldl_cons, ih, qty_step, List.map_cons, List.sum_cons]
      ring

theorem qty_replay (a : Asset) (events : List LedgerEvent) :
    (replay a events).qty = a.openingBalance + (events.map LedgerEvent.units).sum :=
  Totals.qty_foldl _ _

theorem netDeposit_replay (a : Asset) (events : List LedgerEvent) :
    (replay a events).netDeposit =
      a.openingCostBasis.getD 0 + (events.map LedgerEvent.cash).sum :=
  Totals.netDeposit_foldl _ _

section Append

variable {db db' : Db} {new : List Transaction}

theorem qty_replay_append (hrows : db'.transactions.rows = db.transactions.rows ++ new)
    (a : Asset) (p : ℕ) (symbol : String) :
    (replay a (ledgerEvents db' p symbol)).qty =
      (replay a (ledgerEvents db p symbol)).qty +
        ((eventRows new p symbol).map LedgerEvent.units).sum := by
  have hperm := (perm_ledgerEvents_append hrows p symbol).map LedgerEvent.units
  rw [qty_replay, qty_replay, hperm.sum_eq, List.map_append, List.sum_append, add_assoc]

theorem netDeposit_replay_append (hrows : db'.transactions.rows = db.transactions.rows ++ new)
    (a : Asset) (p : ℕ) (symbol : String) :
    (replay a (ledgerEvents db' p symbol)).netDeposit =
      (replay a (ledgerEvents db p symbol)).netDeposit +
        ((eventRows new p symbol).map LedgerEvent.cash).sum := by
  have hperm := (perm_ledgerEvents_append hrows p symbol).map LedgerEvent.cash
  rw [netDeposit_replay, netDeposit_replay, hperm.sum_eq, List.map_append, List.sum_append,
    add_assoc]

end Append

/-! ## What the columns hold -/

/-- The amounts, values and opening lots of the tables are values of their columns. -/
structure ColumnsOnGrid (N : Numeric) (db : Db) : Prop where
  trades : ∀ t ∈ db.transactions.rows, ∀ d, t.detail.trade? = some d →
    N.OnGrid d.amount ∧ N.OnGrid d.usdValue
  lots : ∀ a ∈ db.assets.rows, N.OnGrid a.openingBalance ∧ N.OnGrid (a.openingCostBasis.getD 0)

namespace ColumnsOnGrid

variable {N : Numeric} {db : Db}

theorem onGrid_lot (h : ColumnsOnGrid N db) (p t : ℕ) :
    N.OnGrid (heldAsset db p t).openingBalance ∧
      N.OnGrid ((heldAsset db p t).openingCostBasis.getD 0) := by
  unfold heldAsset
  cases hfind : db.findAsset p t with
  | some a => exact h.lots a (Table.find?_eq_some_iff.mp hfind).1
  | none => exact ⟨N.onGrid_zero, N.onGrid_zero⟩

theorem onGrid_event (h : ColumnsOnGrid N db) {p : ℕ} {symbol : String} {e : LedgerEvent}
    (he : e ∈ ledgerEvents db p symbol) : N.OnGrid e.units ∧ N.OnGrid e.cash := by
  obtain ⟨t, ht, d, -, -, hd, htrade⟩ := row_of_event (mem_ledgerEvents.mp he)
  obtain ⟨hamount, husd⟩ := h.trades t ht d hd
  have hsame : e.amount = d.amount ∧ e.usd = d.usdValue :=
    ⟨congrArg Trade.amount htrade, congrArg Trade.usd htrade⟩
  unfold LedgerEvent.units LedgerEvent.cash
  rw [hsame.1, hsame.2]
  cases e.dir with
  | buy => exact ⟨hamount, husd⟩
  | sell => exact ⟨hamount.neg, husd.neg⟩
  | transfer => exact ⟨N.onGrid_zero, N.onGrid_zero⟩

/-- The sums of a holding need no rounding. -/
theorem onGrid_heldTotals (h : ColumnsOnGrid N db) (p : ℕ) (token : Token) :
    N.OnGrid (heldTotals db p token).qty ∧ N.OnGrid (heldTotals db p token).netDeposit := by
  obtain ⟨hbalance, hcost⟩ := h.onGrid_lot p token.id
  unfold heldTotals
  rw [qty_replay, netDeposit_replay]
  constructor
  · refine hbalance.add (Numeric.onGrid_sum fun x hx => ?_)
    obtain ⟨e, he, rfl⟩ := List.mem_map.mp hx
    exact (h.onGrid_event he).1
  · refine hcost.add (Numeric.onGrid_sum fun x hx => ?_)
    obtain ⟨e, he, rfl⟩ := List.mem_map.mp hx
    exact (h.onGrid_event he).2

end ColumnsOnGrid

/-! ## One holding and the rest of its portfolio -/

/-- The total of a portfolio is a holding's net deposit and that of the rest. -/
theorem netDepositSum_eq_add (db : Db) (p t : ℕ) :
    netDepositSum db p = (holding db p t).netDeposit +
      (((assetsOf db p).filter fun a => a.tokenId ≠ t).map Asset.netDeposit).sum := by
  have hheld : ((assetsOf db p).filter fun a => a.tokenId = t) =
      (db.findAsset p t).toList := by
    unfold assetsOf Db.findAsset
    rw [List.filter_filter, ← Table.filter_key]
    congr 1
    funext a
    rw [← Bool.decide_and, decide_eq_decide]
    exact ⟨fun ⟨ht, hp⟩ => Prod.ext hp ht,
      fun hkey => ⟨congrArg Prod.snd hkey, congrArg Prod.fst hkey⟩⟩
  have hperm := (List.filter_append_perm (fun a : Asset => decide (a.tokenId = t))
    (assetsOf db p)).map Asset.netDeposit
  unfold netDepositSum
  rw [← hperm.sum_eq, List.map_append, List.sum_append, hheld, holding]
  congr 1
  · cases db.findAsset p t <;> simp [Asset.derived]
  · simp

section Drift

variable {ps : List ℕ} {tokenId : ℕ} {db opening db' : Db}

theorem findAsset_opening (hopened : opening.assets.rows = db.assets.rows ++ opened ps tokenId db)
    (p t : ℕ) :
    opening.findAsset p t =
      if t = tokenId ∧ p ∈ ps then some (heldAsset db p t) else db.findAsset p t := by
  by_cases hp : t = tokenId ∧ p ∈ ps
  · obtain ⟨rfl, hp'⟩ := hp
    rw [if_pos ⟨rfl, hp'⟩]
    refine Table.find?_eq_some_iff.mpr ⟨?_, key_heldAsset db p t⟩
    rw [hopened]
    exact heldAsset_mem_opened hp'
  · rw [if_neg hp]
    ext r
    unfold Db.findAsset
    rw [Table.find?_eq_some_iff, Table.find?_eq_some_iff, hopened, List.mem_append]
    refine and_congr_left fun hkey => or_iff_left fun hnew => hp ?_
    obtain ⟨q, hq, -, rfl⟩ := mem_opened.mp hnew
    obtain ⟨rfl, rfl⟩ := Prod.mk.inj hkey
    exact ⟨rfl, hq⟩

theorem findAsset_drifts (h : Drifts ps tokenId opening db') (p t : ℕ) :
    (db'.findAsset p t).map Asset.lot = (opening.findAsset p t).map Asset.lot ∧
      (¬ (t = tokenId ∧ p ∈ ps) → db'.findAsset p t = opening.findAsset p t) := by
  obtain ⟨f, hrows, hf⟩ := h.assets
  have hkey : ∀ a, (f a).key = a.key ∧ (f a).lot = a.lot := by
    intro a
    rcases hf a with hsame | ⟨-, -, d, hset⟩
    · rw [hsame]
      exact ⟨rfl, rfl⟩
    · rw [hset]
      exact ⟨rfl, rfl⟩
  have hcomp : (fun a => decide (Asset.key a = (p, t))) ∘ f = fun a => decide (a.key = (p, t)) := by
    funext a
    rw [Function.comp_apply, (hkey a).1]
  have hfind : db'.findAsset p t = (opening.findAsset p t).map f := by
    unfold Db.findAsset Table.find?
    rw [hrows, List.find?_map, hcomp]
  rw [hfind]
  constructor
  · rw [Option.map_map]
    congr 1
    funext a
    exact (hkey a).2
  · intro hother
    cases hopening : opening.findAsset p t with
    | none => rfl
    | some a =>
        have hat := (Table.find?_eq_some_iff.mp hopening).2
        rcases hf a with hsame | ⟨ht, hp, -⟩
        · rw [Option.map_some, hsame]
        · have hportfolio : a.portfolioId = p := congrArg Prod.fst hat
          have htoken : a.tokenId = t := congrArg Prod.snd hat
          exact absurd ⟨htoken.symm.trans ht, hportfolio ▸ hp⟩ hother

/-- The other holdings of a portfolio keep their rows. -/
theorem rest_drifts (hopened : opening.assets.rows = db.assets.rows ++ opened ps tokenId db)
    (h : Drifts ps tokenId opening db') (p : ℕ) :
    ((assetsOf db' p).filter fun a => a.tokenId ≠ tokenId) =
      (assetsOf db p).filter fun a => a.tokenId ≠ tokenId := by
  obtain ⟨f, hrows, hf⟩ := h.assets
  unfold assetsOf
  rw [List.filter_filter, List.filter_filter, hrows, filter_map_eq_filter, hopened,
    List.filter_append]
  · refine (congrArg _ (List.filter_eq_nil_iff.mpr fun a ha => ?_)).trans (List.append_nil _)
    obtain ⟨q, -, -, rfl⟩ := mem_opened.mp ha
    simp [emptyAsset]
  · intro a _
    rcases hf a with hsame | ⟨-, -, d, hset⟩
    · rw [hsame]
    · rw [hset]
      rfl
  · intro a _ hkeep
    rcases hf a with hsame | ⟨htoken, -⟩
    · exact hsame
    · simp [htoken] at hkeep

end Drift

/-! ## Conservation -/

/-- The columns that are sums. -/
def sumColumns (d : Derived) : ℚ × ℚ := (d.balance, d.netDeposit)

def portfolioTotal (db : Db) (p : ℕ) : ℚ :=
  ((db.findPortfolioById p).map Portfolio.netDeposit).getD 0

/-- Two holdings of a token together keep their units and their net deposit, their portfolios
together keep theirs, and every other asset keeps its row. -/
structure Moved (db db' : Db) (source dest tokenId : ℕ) : Prop where
  balance : (holding db' source tokenId).balance + (holding db' dest tokenId).balance =
    (holding db source tokenId).balance + (holding db dest tokenId).balance
  netDeposit : (holding db' source tokenId).netDeposit + (holding db' dest tokenId).netDeposit =
    (holding db source tokenId).netDeposit + (holding db dest tokenId).netDeposit
  total : portfolioTotal db' source + portfolioTotal db' dest =
    portfolioTotal db source + portfolioTotal db dest
  others : ∀ p t, (p, t) ≠ (source, tokenId) → (p, t) ≠ (dest, tokenId) →
    db'.findAsset p t = db.findAsset p t

/-- Rows of the token that outlived a removed asset add up to nothing. -/
def NothingWaits (db : Db) (portfolioId : ℕ) (token : Token) : Prop :=
  db.findAsset portfolioId token.id = none →
    (heldTotals db portfolioId token).qty = 0 ∧ (heldTotals db portfolioId token).netDeposit = 0

section Transfer

variable {N : Numeric} {env : Env} {source : Portfolio} {body : TransferBody} {token : Token}
  {db db' : Db}

/-- A coherent holding shows the sums of its rows. -/
theorem holding_sums {tokens : TokenTable} {p : ℕ} {a : Asset}
    (h : SoundExcept N sumColumns tokens p ∅ db) (htoken : db.findTokenById token.id = some token)
    (hfind : db.findAsset p token.id = some a) :
    (holding db p token.id).balance =
        N.fix (replay a (ledgerEvents db p token.symbol)).qty ∧
      (holding db p token.id).netDeposit =
        N.fix (replay a (ledgerEvents db p token.symbol)).netDeposit := by
  obtain ⟨hmem, hkey⟩ := Table.find?_eq_some_iff.mp hfind
  have hp : a.portfolioId = p := congrArg Prod.fst hkey
  have hid : a.tokenId = token.id := congrArg Prod.snd hkey
  obtain ⟨token', htoken', hview⟩ := h.coherent a hmem hp (Set.notMem_empty _)
  rw [hid, htoken] at htoken'
  cases htoken'
  rw [hp] at hview
  rw [holding, hfind]
  exact Prod.mk.inj hview

/-- What a leg adds to the sums of a portfolio. -/
theorem eventRows_legs {sourceId destId : ℕ} (hne : destId ≠ sourceId) (usdValue : ℚ) (n m : ℕ) :
    eventRows [⟨transferLeg N env body sourceId .sell usdValue, n⟩,
        ⟨transferLeg N env body destId .buy usdValue, m⟩] sourceId body.symbol =
        [legEvent N env body .sell usdValue n] ∧
      eventRows [⟨transferLeg N env body sourceId .sell usdValue, n⟩,
        ⟨transferLeg N env body destId .buy usdValue, m⟩] destId body.symbol =
        [legEvent N env body .buy usdValue m] := by
  simp [eventRows, Transaction.eventOf, TransactionData.event?, transferLeg, legEvent,
    Detail.native?, Detail.erc20?, hne, Ne.symm hne]

/-- The sums of both holdings after a transfer, whatever its time is. -/
theorem sums_after_transfer
    (hsource : SoundExcept N sumColumns db.tokens source.id ∅ db)
    (hdest : SoundExcept N sumColumns db.tokens body.destPortfolioId ∅ db)
    (hgrid : ColumnsOnGrid N db) (htoken : db.findTokenBySymbol body.symbol = some token)
    (hrun : createCrossPortfolioTransfer N env source body db = .ok db') :
    ∃ usdValue, body.destPortfolioId ≠ source.id ∧
      (db.findAsset source.id token.id).isSome ∧
      (holding db' source.id token.id).balance =
        (heldTotals db source.id token).qty - N.fix body.amount ∧
      (holding db' source.id token.id).netDeposit =
        (heldTotals db source.id token).netDeposit - usdValue ∧
      (holding db' body.destPortfolioId token.id).balance =
        (heldTotals db body.destPortfolioId token).qty + N.fix body.amount ∧
      (holding db' body.destPortfolioId token.id).netDeposit =
        (heldTotals db body.destPortfolioId token).netDeposit + usdValue ∧
      ∃ opening, opening.assets.rows = db.assets.rows ++
          opened [source.id, body.destPortfolioId] token.id db ∧
        Drifts [source.id, body.destPortfolioId] token.id opening db' := by
  have hsource' := hsource.createCrossPortfolioTransfer hrun
  have hdest' := hdest.createCrossPortfolioTransfer hrun
  obtain ⟨dest, token', a, usdValue, opening, -, hfind, hne, -, htoken', hheld, husd, hopened, -, -,
    hdrift, hrows, -⟩ := createCrossPortfolioTransfer_drifts hrun
  obtain rfl : token = token' := Option.some.inj (htoken.symm.trans htoken')
  have hid : dest.id = body.destPortfolioId := (SerialTable.find?_eq_some_iff.mp hfind).2
  rw [hid] at hne hopened hdrift hrows
  have hsymbol := (findTokenBySymbol_eq htoken).2
  have hfound : db'.findTokenById token.id = some token := by
    unfold Db.findTokenById
    rw [hsource'.catalog]
    exact findTokenById_of_symbol htoken
  have hlot : ∀ p ∈ [source.id, body.destPortfolioId], ∃ a',
      db'.findAsset p token.id = some a' ∧ a'.lot = (heldAsset db p token.id).lot := by
    intro p hp
    have hkept := (findAsset_drifts hdrift p token.id).1
    rw [findAsset_opening hopened, if_pos ⟨rfl, hp⟩] at hkept
    exact Option.map_eq_some_iff.mp hkept
  obtain ⟨hsold, hbought⟩ := @eventRows_legs N env body source.id body.destPortfolioId hne usdValue
    db.transactions.next (db.transactions.next + 1)
  have hamount : N.OnGrid (N.fix body.amount) := N.onGrid_fix _
  have hvalue : N.OnGrid usdValue := husd ▸ N.onGrid_fix _
  obtain ⟨a', hfind', hlotS⟩ := hlot source.id List.mem_cons_self
  obtain ⟨b', hfindD', hlotD⟩ := hlot body.destPortfolioId
    (List.mem_cons_of_mem _ List.mem_cons_self)
  obtain ⟨hqtyS, hdepositS⟩ := holding_sums hsource' hfound hfind'
  obtain ⟨hqtyD, hdepositD⟩ := holding_sums hdest' hfound hfindD'
  obtain ⟨hgridS, hgridS'⟩ := hgrid.onGrid_heldTotals source.id token
  obtain ⟨hgridD, hgridD'⟩ := hgrid.onGrid_heldTotals body.destPortfolioId token
  unfold heldTotals at hgridS hgridS' hgridD hgridD' ⊢
  refine ⟨usdValue, hne, by rw [hheld]; rfl, ?_, ?_, ?_, ?_, opening, hopened, hdrift⟩
  · rw [hqtyS, replay_congr_lot hlotS, qty_replay_append hrows, hsymbol, hsold]
    rw [hsymbol] at hgridS
    simpa [legEvent, LedgerEvent.units, sub_eq_add_neg, Numeric.OnGrid] using hgridS.add hamount.neg
  · rw [hdepositS, replay_congr_lot hlotS, netDeposit_replay_append hrows, hsymbol, hsold]
    rw [hsymbol] at hgridS'
    simpa [legEvent, LedgerEvent.cash, sub_eq_add_neg, Numeric.OnGrid] using hgridS'.add hvalue.neg
  · rw [hqtyD, replay_congr_lot hlotD, qty_replay_append hrows, hsymbol, hbought]
    rw [hsymbol] at hgridD
    simpa [legEvent, LedgerEvent.units, Numeric.OnGrid] using hgridD.add hamount
  · rw [hdepositD, replay_congr_lot hlotD, netDeposit_replay_append hrows, hsymbol, hbought]
    rw [hsymbol] at hgridD'
    simpa [legEvent, LedgerEvent.cash, Numeric.OnGrid] using hgridD'.add hvalue

/-- The sums of a holding that has a row are those of its replay. -/
theorem holding_eq_heldTotals {p : ℕ} (h : SoundExcept N sumColumns db.tokens p ∅ db)
    (hgrid : ColumnsOnGrid N db) (htoken : db.findTokenById token.id = some token)
    (hheld : (db.findAsset p token.id).isSome) :
    (holding db p token.id).balance = (heldTotals db p token).qty ∧
      (holding db p token.id).netDeposit = (heldTotals db p token).netDeposit := by
  obtain ⟨a, hfind⟩ := Option.isSome_iff_exists.mp hheld
  obtain ⟨hqty, hdeposit⟩ := hgrid.onGrid_heldTotals p token
  unfold heldTotals heldAsset at hqty hdeposit ⊢
  rw [hfind, Option.getD_some] at hqty hdeposit ⊢
  obtain ⟨hbalance, hnetDeposit⟩ := holding_sums h htoken hfind
  exact ⟨hbalance.trans hqty, hnetDeposit.trans hdeposit⟩

theorem portfolioTotal_eq {p : ℕ} (h : TotalsExcept N p ∅ db) :
    portfolioTotal db p = netDepositSum db p := by
  unfold portfolioTotal
  rw [h.total (Set.notMem_empty _), Option.getD_some]

/-- A transfer moves, and creates nothing, exactly when no rows of a removed asset wait in the
destination. -/
theorem moved_iff_of_sound
    (hsource : SoundExcept N sumColumns db.tokens source.id ∅ db)
    (hdest : SoundExcept N sumColumns db.tokens body.destPortfolioId ∅ db)
    (hsourceTotal : TotalsExcept N source.id ∅ db)
    (hdestTotal : TotalsExcept N body.destPortfolioId ∅ db) (hgrid : ColumnsOnGrid N db)
    (htoken : db.findTokenBySymbol body.symbol = some token)
    (hrun : createCrossPortfolioTransfer N env source body db = .ok db') :
    Moved db db' source.id body.destPortfolioId token.id ↔
      NothingWaits db body.destPortfolioId token := by
  obtain ⟨usdValue, hne, hheld, hbalanceS, hdepositS, hbalanceD, hdepositD, opening, hopened,
    hdrift⟩ := sums_after_transfer hsource hdest hgrid htoken hrun
  have hid := findTokenById_of_symbol htoken
  obtain ⟨hwasS, hwasS'⟩ := holding_eq_heldTotals hsource hgrid hid hheld
  have htotal : ∀ p, TotalsExcept N p ∅ db →
      portfolioTotal db' p - (holding db' p token.id).netDeposit =
        portfolioTotal db p - (holding db p token.id).netDeposit := by
    intro p hp
    have hp' := hp.createCrossPortfolioTransfer hrun
    rw [portfolioTotal_eq hp, portfolioTotal_eq hp', netDepositSum_eq_add db' p token.id,
      netDepositSum_eq_add db p token.id, rest_drifts hopened hdrift]
    ring
  have htotalS := htotal _ hsourceTotal
  have htotalD := htotal _ hdestTotal
  have hothers : ∀ p t, (p, t) ≠ (source.id, token.id) →
      (p, t) ≠ (body.destPortfolioId, token.id) → db'.findAsset p t = db.findAsset p t := by
    intro p t hs hd
    have hfree : ¬ (t = token.id ∧ p ∈ [source.id, body.destPortfolioId]) := by
      rintro ⟨rfl, hp⟩
      rcases List.mem_pair.mp hp with rfl | rfl
      · exact hs rfl
      · exact hd rfl
    rw [(findAsset_drifts hdrift p t).2 hfree, findAsset_opening hopened, if_neg hfree]
  unfold NothingWaits
  cases hfindD : db.findAsset body.destPortfolioId token.id with
  | some b =>
      obtain ⟨hwasD, hwasD'⟩ := holding_eq_heldTotals hdest hgrid hid (by rw [hfindD]; rfl)
      refine iff_of_true ⟨?_, ?_, ?_, hothers⟩ fun h => (by cases h)
      · rw [hbalanceS, hbalanceD, hwasS, hwasD]
        ring
      · rw [hdepositS, hdepositD, hwasS', hwasD']
        ring
      · linarith
  | none =>
      have hnothing : holding db body.destPortfolioId token.id = ⟨0, 0, 0, none, 0⟩ := by
        rw [holding, hfindD]
        rfl
      rw [hnothing] at htotalD
      constructor
      · intro h _
        have hbalance := h.balance
        have hdeposit := h.netDeposit
        rw [hbalanceS, hbalanceD, hwasS, hnothing] at hbalance
        rw [hdepositS, hdepositD, hwasS', hnothing] at hdeposit
        exact ⟨by linarith, by linarith⟩
      · intro h
        obtain ⟨hqty, hdeposit⟩ := h rfl
        refine ⟨?_, ?_, ?_, hothers⟩
        · rw [hbalanceS, hbalanceD, hwasS, hnothing, hqty]
          ring
        · rw [hdepositS, hdepositD, hwasS', hnothing, hdeposit]
          ring
        · linarith

end Transfer

instance (N : Numeric) (x : ℚ) : Decidable (N.OnGrid x) := inferInstanceAs (Decidable (N.fix x = x))

/-- The stored sums of a row are those of its replay. -/
def sumsCheck (N : Numeric) (db : Db) (a : Asset) : Bool :=
  match db.findTokenById a.tokenId with
  | none => false
  | some token => decide (sumColumns a.derived =
      sumColumns ((replay a (ledgerEvents db a.portfolioId token.symbol)).stored N))

/-- What a transfer between two portfolios must find. -/
def settledCheck (N : Numeric) (p : ℕ) (db : Db) : Bool :=
  decide ((db.findPortfolioById p).map Portfolio.type = some .manual) &&
    db.transactions.rows.all (fun t => decide (t.symbol? ≠ some "")) &&
    db.assets.rows.all (fun a => sumsCheck N db a && decide (N.OnGrid a.netDeposit)) &&
    decide ((db.findPortfolioById p).map Portfolio.netDeposit = some (netDepositSum db p))

def gridCheck (N : Numeric) (db : Db) : Bool :=
  db.transactions.rows.all (fun t => t.detail.trade?.all fun d =>
      decide (N.OnGrid d.amount) && decide (N.OnGrid d.usdValue)) &&
    db.assets.rows.all fun a => decide (N.OnGrid a.openingBalance) &&
      decide (N.OnGrid (a.openingCostBasis.getD 0))

theorem of_settledCheck {N : Numeric} {p : ℕ} {db : Db} (h : settledCheck N p db = true) :
    SoundExcept N sumColumns db.tokens p ∅ db ∧ TotalsExcept N p ∅ db := by
  unfold settledCheck at h
  simp only [Bool.and_eq_true, decide_eq_true_eq, List.all_eq_true] at h
  obtain ⟨⟨⟨hmanual, hnamed⟩, hassets⟩, htotal⟩ := h
  have hknown : (db.findPortfolioById p).isSome := by
    obtain ⟨portfolio, hfind, -⟩ := Option.map_eq_some_iff.mp hmanual
    rw [hfind]
    rfl
  refine ⟨⟨rfl, hmanual, fun t ht _ => hnamed t ht, fun a ha _ _ => ?_⟩,
    ⟨fun a ha _ => (hassets a ha).2, hknown, fun _ => htotal⟩⟩
  have hsums := (hassets a ha).1
  unfold sumsCheck at hsums
  split at hsums
  · cases hsums
  · next token htoken => exact ⟨token, htoken, of_decide_eq_true hsums⟩

theorem of_gridCheck {N : Numeric} {db : Db} (h : gridCheck N db = true) : ColumnsOnGrid N db := by
  unfold gridCheck at h
  simp only [Bool.and_eq_true, decide_eq_true_eq, List.all_eq_true] at h
  refine ⟨fun t ht d hd => ?_, h.2⟩
  have htrade := h.1 t ht
  rw [hd] at htrade
  simpa using htrade

def earlyMove : TransferBody := { moveBody with timestamp := some 5 }

def movableCheck (db : Db) : Bool :=
  settledCheck decimal20_8 1 db && settledCheck decimal20_8 2 db && gridCheck decimal20_8 db &&
    decide (db.findTokenBySymbol eth.val = some ethToken)

/-- Portfolio 2 bought one unit and removed the asset. -/
def leftOver : List Request :=
  boughtTwo ++
    [⟨1, 2, sampleEnv, .createTransaction
        (trade .buy ⟨1, amount_1⟩ ⟨100, bounded_100⟩ 10)⟩,
      ⟨1, 2, sampleEnv, .removeAsset (2, 1)⟩]

end Neonfi.Ledger

import Neonfi.Ledger.LotRuns
import Neonfi.Ledger.Moves
import Mathlib.Logic.Relation

/-!
# What the requests write

Every request but the removal of an asset is a chain of statements of a few kinds.  None of
them takes an asset row away, only an opening edit rewrites a lot, and a trade is only booked
under a token that its portfolio holds.
-/

namespace Neonfi.Ledger

open Lib Relation

/-! ## Statements -/

/-- The portfolio of the row has an asset for the token the row is booked under. -/
def TransactionData.Held (t : TransactionData) (db : Db) : Prop :=
  ∀ symbol, t.symbol? = some symbol →
    ∃ token, db.findTokenBySymbol symbol = some token ∧
      (db.findAsset t.portfolioId token.id).isSome

def TransactionData.TradeOnGrid (N : Numeric) (t : TransactionData) : Prop :=
  ∀ d, t.detail.trade? = some d → N.OnGrid d.amount ∧ N.OnGrid d.usdValue

def Asset.LotOnGrid (N : Numeric) (a : Asset) : Prop :=
  N.OnGrid a.openingBalance ∧ N.OnGrid (a.openingCostBasis.getD 0)

/-- One statement of a write transaction that edits the lots of `edited` at most. -/
inductive Write (N : Numeric) (edited : Set (ℕ × ℕ)) : Db → Db → Prop
  | createAsset {a : Asset} {db db' : Db} :
      db.createAsset a = .ok db' → a.LotOnGrid N → Write N edited db db'
  | settle {p tokenId : ℕ} {f : Asset → Asset} {hf : ∀ a, (f a).key = a.key} {db : Db} :
      (∀ a, (f a).lot = a.lot) → Write N edited db (db.updateAssetRow p tokenId f hf)
  | editLot {p tokenId : ℕ} {f : Asset → Asset} {hf : ∀ a, (f a).key = a.key} {db : Db} :
      (p, tokenId) ∈ edited → (∀ a, (f a).LotOnGrid N) →
      Write N edited db (db.updateAssetRow p tokenId f hf)
  | insertRow {data : TransactionData} {db db' : Db} :
      db.createTransactionRow data = .ok db' → data.Held db → data.TradeOnGrid N →
      Write N edited db db'
  | patchRow {txId : ℕ} {f : Transaction → Transaction} {hid : ∀ t, (f t).id = t.id}
      {hkey : ∀ t, (f t).hashKey = t.hashKey} {db : Db} :
      (∀ t ∈ db.transactions.rows, t.id = txId → (f t).portfolioId = t.portfolioId ∧
        (t.Held db → (f t).Held db) ∧ (t.TradeOnGrid N → (f t).TradeOnGrid N)) →
      Write N edited db (db.updateTransactionRow txId f hid hkey)
  | deleteRow {txId : ℕ} {db : Db} : Write N edited db (db.deleteTransactionRow txId)
  | portfolios {portfolios : PortfolioTable} {db : Db} :
      Write N edited db { db with portfolios }

/-- Every trade of the portfolio is of a token it holds. -/
def RowsHeld (p : ℕ) (db : Db) : Prop :=
  ∀ t ∈ db.transactions.rows, t.portfolioId = p → t.Held db

namespace Write

variable {N : Numeric} {edited : Set (ℕ × ℕ)} {db db' : Db}

theorem tokens_eq (h : Write N edited db db') : db'.tokens = db.tokens := by
  cases h with
  | createAsset hcreate _ =>
      obtain ⟨assets, rfl, -⟩ := createAsset_ok hcreate
      rfl
  | insertRow hrow _ _ =>
      obtain ⟨transactions, rfl, -⟩ := createTransactionRow_ok hrow
      rfl
  | settle | editLot | patchRow | deleteRow | portfolios => rfl

/-- An asset row stays, with its lot unless the lot may be edited. -/
theorem findAsset_kept (h : Write N edited db db') {p tokenId : ℕ} {a : Asset}
    (hfind : db.findAsset p tokenId = some a) :
    ∃ a', db'.findAsset p tokenId = some a' ∧ ((p, tokenId) ∉ edited → a'.lot = a.lot) := by
  have hupdate : ∀ {q t : ℕ} {f : Asset → Asset} {hf : ∀ a, (f a).key = a.key},
      ((p, tokenId) ∉ edited → a.key = (q, t) → (f a).lot = a.lot) →
      ∃ a', (db.updateAssetRow q t f hf).findAsset p tokenId = some a' ∧
        ((p, tokenId) ∉ edited → a'.lot = a.lot) := by
    intro q t f hf hlot
    unfold Db.updateAssetRow Db.findAsset at *
    rw [Table.find?_modify, hfind, Option.map_some]
    refine ⟨_, rfl, fun hfree => ?_⟩
    split
    · next hkey => exact hlot hfree hkey
    · rfl
  cases h with
  | createAsset hcreate _ =>
      obtain ⟨assets, rfl, hrows, -⟩ := createAsset_ok hcreate
      obtain ⟨hmem, hkey⟩ := Table.find?_eq_some_iff.mp hfind
      refine ⟨a, Table.find?_eq_some_iff.mpr ⟨?_, hkey⟩, fun _ => rfl⟩
      change a ∈ assets.rows
      rw [hrows]
      exact List.mem_append_left _ hmem
  | settle hlot => exact hupdate fun _ _ => hlot a
  | editLot hmem _ =>
      refine hupdate fun hfree hkey => absurd ?_ hfree
      have hat := (Table.find?_eq_some_iff.mp hfind).2
      rw [← hat, hkey]
      exact hmem
  | insertRow hrow _ _ =>
      obtain ⟨transactions, rfl, -⟩ := createTransactionRow_ok hrow
      exact ⟨a, hfind, fun _ => rfl⟩
  | patchRow | deleteRow | portfolios => exact ⟨a, hfind, fun _ => rfl⟩

theorem held (h : Write N edited db db') {t : TransactionData} (ht : t.Held db) : t.Held db' := by
  intro symbol hsymbol
  obtain ⟨token, htoken, hasset⟩ := ht symbol hsymbol
  obtain ⟨a, hfind⟩ := Option.isSome_iff_exists.mp hasset
  obtain ⟨a', hfind', -⟩ := h.findAsset_kept hfind
  refine ⟨token, ?_, by rw [hfind']; rfl⟩
  unfold Db.findTokenBySymbol
  rw [h.tokens_eq]
  exact htoken

/-- Every trade stays one of a held token. -/
theorem rowsHeld (h : Write N edited db db') {p : ℕ} (hrows : RowsHeld p db) :
    RowsHeld p db' := by
  intro t ht hp
  cases h with
  | createAsset hcreate hgrid =>
      have hsame := transactions_createAsset hcreate
      exact (createAsset hcreate hgrid : Write N edited db db').held (hrows t (hsame ▸ ht) hp)
  | settle hlot => exact (settle hlot : Write N edited db _).held (hrows t ht hp)
  | editLot hmem hgrid => exact (editLot hmem hgrid : Write N edited db _).held (hrows t ht hp)
  | @insertRow data _ _ hrow hheld hgrid =>
      have hwrite : Write N edited db db' := .insertRow hrow hheld hgrid
      obtain ⟨transactions, rfl, hnew⟩ := createTransactionRow_ok hrow
      change t ∈ transactions.rows at ht
      rw [hnew] at ht
      rcases List.mem_append.mp ht with ht | ht
      · exact hwrite.held (hrows t ht hp)
      · rw [List.mem_singleton.mp ht]
        exact hwrite.held hheld
  | @patchRow txId f _ _ _ hpatch =>
      obtain ⟨s, hs, rfl⟩ := List.mem_map.mp ht
      by_cases hs' : s.id = txId
      · rw [if_pos hs'] at hp ⊢
        obtain ⟨hportfolio, hheld, -⟩ := hpatch s hs hs'
        exact hheld (hrows s hs (hportfolio.symm.trans hp))
      · rw [if_neg hs'] at hp ⊢
        exact hrows s hs hp
  | deleteRow => exact hrows t (List.mem_of_mem_filter ht) hp
  | portfolios => exact hrows t ht hp

/-- The columns stay on the grid. -/
theorem columnsOnGrid (h : Write N edited db db') (hgrid : ColumnsOnGrid N db) :
    ColumnsOnGrid N db' := by
  cases h with
  | @createAsset a _ _ hcreate hlot =>
      obtain ⟨assets, rfl, hrows, -⟩ := createAsset_ok hcreate
      refine ⟨hgrid.trades, fun b hb => ?_⟩
      change b ∈ assets.rows at hb
      rw [hrows] at hb
      rcases List.mem_append.mp hb with hb | hb
      · exact hgrid.lots b hb
      · rw [List.mem_singleton.mp hb]
        exact hlot
  | @settle p tokenId f _ _ hlot =>
      refine ⟨hgrid.trades, fun b hb => ?_⟩
      obtain ⟨a, ha, rfl⟩ := List.mem_map.mp hb
      split
      · obtain ⟨hbalance, hbasis⟩ := Prod.ext_iff.mp (hlot a)
        change N.OnGrid (f a).lot.1 ∧ N.OnGrid ((f a).lot.2.getD 0)
        rw [hbalance, hbasis]
        exact hgrid.lots a ha
      · exact hgrid.lots a ha
  | editLot _ hlot =>
      refine ⟨hgrid.trades, fun b hb => ?_⟩
      obtain ⟨a, ha, rfl⟩ := List.mem_map.mp hb
      split
      · exact hlot a
      · exact hgrid.lots a ha
  | insertRow hrow _ htrade =>
      obtain ⟨transactions, rfl, hnew⟩ := createTransactionRow_ok hrow
      refine ⟨fun t ht => ?_, hgrid.lots⟩
      change t ∈ transactions.rows at ht
      rw [hnew] at ht
      rcases List.mem_append.mp ht with ht | ht
      · exact hgrid.trades t ht
      · rw [List.mem_singleton.mp ht]
        exact htrade
  | patchRow hpatch =>
      refine ⟨fun t ht => ?_, hgrid.lots⟩
      obtain ⟨s, hs, rfl⟩ := List.mem_map.mp ht
      split
      · next hs' => exact (hpatch s hs hs').2.2 (hgrid.trades s hs)
      · exact hgrid.trades s hs
  | deleteRow => exact ⟨fun t ht => hgrid.trades t (List.mem_of_mem_filter ht), hgrid.lots⟩
  | portfolios => exact ⟨hgrid.trades, hgrid.lots⟩

end Write

/-! ## Chains of statements -/

/-- What a request writes, statement by statement. -/
abbrev Writes (N : Numeric) (edited : Set (ℕ × ℕ)) : Db → Db → Prop :=
  ReflTransGen (Write N edited)

namespace Writes

variable {N : Numeric} {edited : Set (ℕ × ℕ)} {db db' : Db}

theorem tokens_eq (h : Writes N edited db db') : db'.tokens = db.tokens := by
  induction h with
  | refl => rfl
  | tail _ hwrite ih => exact hwrite.tokens_eq.trans ih

theorem findAsset_kept (h : Writes N edited db db') {p tokenId : ℕ} {a : Asset}
    (hfind : db.findAsset p tokenId = some a) :
    ∃ a', db'.findAsset p tokenId = some a' ∧ ((p, tokenId) ∉ edited → a'.lot = a.lot) := by
  induction h with
  | refl => exact ⟨a, hfind, fun _ => rfl⟩
  | tail _ hwrite ih =>
      obtain ⟨b, hb, hlot⟩ := ih
      obtain ⟨c, hc, hlot'⟩ := hwrite.findAsset_kept hb
      exact ⟨c, hc, fun hfree => (hlot' hfree).trans (hlot hfree)⟩

theorem isSome_kept (h : Writes N edited db db') {p tokenId : ℕ}
    (hheld : (db.findAsset p tokenId).isSome) : (db'.findAsset p tokenId).isSome := by
  obtain ⟨a, hfind⟩ := Option.isSome_iff_exists.mp hheld
  obtain ⟨a', hfind', -⟩ := h.findAsset_kept hfind
  rw [hfind']
  rfl

theorem rowsHeld (h : Writes N edited db db') {p : ℕ} (hrows : RowsHeld p db) :
    RowsHeld p db' := by
  induction h with
  | refl => exact hrows
  | tail _ hwrite ih => exact hwrite.rowsHeld ih

theorem columnsOnGrid (h : Writes N edited db db') (hgrid : ColumnsOnGrid N db) :
    ColumnsOnGrid N db' := by
  induction h with
  | refl => exact hgrid
  | tail _ hwrite ih => exact hwrite.columnsOnGrid ih

/-! ### Recalculations -/

theorem recalcAsset {portfolioId tokenId : ℕ} :
    Writes N edited db (recalcAssetBalance N portfolioId tokenId db) := by
  unfold recalcAssetBalance
  split
  · exact .refl
  · split
    · exact .refl
    · exact .single (.settle fun _ => rfl)

theorem recalcTotal {portfolioId : ℕ} :
    Writes N edited db (recalcPortfolioNetDeposit N portfolioId db) := .single .portfolios

theorem recalcTargets {targets : List (ℕ × ℕ)} {ids : List ℕ} :
    Writes N edited db (Ledger.recalcTargets N targets ids db) := by
  have hassets : ∀ db : Db, Writes N edited db
      (targets.foldl (fun db target => recalcAssetBalance N target.1 target.2 db) db) := by
    induction targets with
    | nil => exact fun _ => .refl
    | cons target targets ih => exact fun db => recalcAsset.trans (ih _)
  have htotals : ∀ db : Db, Writes N edited db
      (ids.foldl (fun db portfolioId => recalcPortfolioNetDeposit N portfolioId db) db) := by
    induction ids with
    | nil => exact fun _ => .refl
    | cons id ids ih => exact fun db => recalcTotal.trans (ih _)
  exact (hassets db).trans (htotals _)

theorem recalcPatched {portfolioId : ℕ} {old new : Option ℕ} :
    Writes N edited db (Ledger.recalcPatched N portfolioId old new db) := by
  refine ReflTransGen.trans ?_ recalcTotal
  cases old with
  | none =>
      cases new with
      | none => exact .refl
      | some n => exact recalcAsset
  | some o =>
      cases new with
      | none => exact recalcAsset
      | some n =>
          dsimp only
          split
          · exact recalcAsset
          · exact recalcAsset.trans recalcAsset

/-! ### New rows -/

variable {env : Env} {portfolio : Portfolio}

theorem onGrid_computeUsdValue (symbol : String) (amount : ℚ) (price : Option ℚ) :
    N.OnGrid (computeUsdValue N env db symbol amount price) := by
  unfold computeUsdValue
  split
  · exact N.onGrid_fix _
  · exact N.onGrid_zero

theorem lotOnGrid_emptyAsset (portfolioId tokenId : ℕ) :
    (emptyAsset portfolioId tokenId).LotOnGrid N := ⟨N.onGrid_zero, N.onGrid_zero⟩

/-- The asset a trade needs is there when its row is written. -/
theorem createIfNeeded {needed : Bool} {portfolioId tokenId : ℕ}
    (h : Ledger.createIfNeeded needed portfolioId tokenId db = .ok db')
    (hheld : needed = false → (db.findAsset portfolioId tokenId).isSome) :
    Writes N edited db db' ∧ (db'.findAsset portfolioId tokenId).isSome := by
  unfold Ledger.createIfNeeded at h
  split at h
  · obtain ⟨assets, rfl, hrows, -⟩ := createAsset_ok h
    refine ⟨.single (.createAsset h (lotOnGrid_emptyAsset _ _)), Option.isSome_iff_exists.mpr
      ⟨emptyAsset portfolioId tokenId, Table.find?_eq_some_iff.mpr ⟨?_, rfl⟩⟩⟩
    change _ ∈ assets.rows
    rw [hrows]
    exact List.mem_append_right _ List.mem_cons_self
  · next hneeded =>
      cases h
      exact ⟨.refl, hheld (by simpa using hneeded)⟩

/-- A trade of a held token, written on the grid. -/
theorem insertTrade {data : TransactionData} {symbol : String} {token : Token}
    (hrow : db.createTransactionRow data = .ok db') (hsymbol : data.symbol? = some symbol)
    (htoken : db.findTokenBySymbol symbol = some token)
    (hheld : (db.findAsset data.portfolioId token.id).isSome) (hgrid : data.TradeOnGrid N) :
    Writes N edited db db' := by
  refine .single (.insertRow hrow (fun symbol' hsymbol' => ⟨token, ?_, hheld⟩) hgrid)
  rw [hsymbol] at hsymbol'
  cases hsymbol'
  exact htoken

theorem tradeOnGrid_row {body : CreateTransactionBody} {portfolioId : ℕ} {usdValue : ℚ}
    (husd : N.OnGrid usdValue) : (body.row N portfolioId usdValue).TradeOnGrid N := by
  intro d hd
  unfold CreateTransactionBody.row at hd
  cases hpayload : body.payload with
  | native trade | erc20 trade info =>
      simp only [hpayload, Detail.trade?, Option.some.injEq] at hd
      subst hd
      exact ⟨N.onGrid_fix _, husd⟩
  | nft nft => simp [hpayload, Detail.trade?] at hd

theorem symbol_row {body : CreateTransactionBody} {trade : TradeFields} {portfolioId : ℕ}
    {usdValue : ℚ} (hpayload : body.payload.trade? = some trade) :
    (body.row N portfolioId usdValue).symbol? = some trade.symbol.val := by
  cases hbody : body.payload with
  | native trade' | erc20 trade' info =>
      rw [hbody] at hpayload
      cases hpayload
      simp [CreateTransactionBody.row, TransactionData.symbol?, hbody, Detail.trade?,
        TradeFields.stored]
  | nft nft =>
      rw [hbody] at hpayload
      cases hpayload

theorem createTrade {body : CreateTransactionBody} {trade : TradeFields}
    (hpayload : body.payload.trade? = some trade)
    (hrun : Ledger.createTrade N env portfolio body trade db = .ok db') :
    Writes N edited db db' := by
  unfold Ledger.createTrade at hrun
  obtain ⟨token, htoken, hrun⟩ := bind_eq_ok hrun
  obtain ⟨auto, hauto, hrun⟩ := bind_eq_ok hrun
  obtain ⟨-, -, hrun⟩ := bind_eq_ok hrun
  obtain ⟨db₁, hcreate, hrun⟩ := bind_eq_ok hrun
  obtain ⟨db₂, hinsert, hrun⟩ := bind_eq_ok hrun
  obtain ⟨rfl, -⟩ := commit_ok hrun
  obtain ⟨hopened, hheld⟩ := @createIfNeeded N edited _ _ _ _ _ hcreate fun hauto' => by
    rw [resolveAutoCreate_ok hauto] at hauto'
    simpa using hauto'
  have hfound : db₁.findTokenBySymbol trade.symbol = some token := by
    unfold Db.findTokenBySymbol
    rw [hopened.tokens_eq]
    exact require_ok htoken
  exact ((hopened.trans (insertTrade (insertTransaction_ok hinsert) (symbol_row hpayload) hfound
    hheld (tradeOnGrid_row (onGrid_computeUsdValue _ _ _)))).trans recalcAsset).trans recalcTotal

theorem createTransaction {body : CreateTransactionBody}
    (hrun : Ledger.createTransaction N env portfolio body db = .ok db') :
    Writes N edited db db' := by
  unfold Ledger.createTransaction at hrun
  obtain ⟨-, -, hrun⟩ := bind_eq_ok hrun
  cases hpayload : body.payload with
  | native trade | erc20 trade info =>
      rw [hpayload] at hrun
      exact createTrade (by rw [hpayload]; rfl) hrun
  | nft nft =>
      rw [hpayload] at hrun
      obtain ⟨db₁, hinsert, hrun⟩ := bind_eq_ok hrun
      obtain ⟨rfl, -⟩ := commit_ok hrun
      refine .single (.insertRow (insertTransaction_ok hinsert) (fun symbol hsymbol => ?_)
        (tradeOnGrid_row N.onGrid_zero))
      simp [CreateTransactionBody.row, TransactionData.symbol?, hpayload, Detail.trade?] at hsymbol

/-! ### Patched and deleted rows -/

theorem tradeOnGrid_apply {body : UpdateTransactionBody} {t : Transaction}
    (h : t.TradeOnGrid N) : (body.apply N env db t).TradeOnGrid N := by
  have htrade : ∀ d₀, t.detail.trade? = some d₀ →
      N.OnGrid (body.applyTrade N env db d₀).amount ∧
        N.OnGrid (body.applyTrade N env db d₀).usdValue := by
    intro d₀ hd₀
    obtain ⟨hamount, husd⟩ := h d₀ hd₀
    unfold UpdateTransactionBody.applyTrade
    constructor
    · cases body.amount with
      | none => exact hamount
      | some amount => exact N.onGrid_fix _
    · dsimp only
      split
      · exact onGrid_computeUsdValue _ _ _
      · exact husd
  intro d hd
  unfold UpdateTransactionBody.apply at hd
  cases hdetail : t.detail with
  | native d₀ | erc20 d₀ info =>
      simp only [hdetail, UpdateTransactionBody.applyDetail, Detail.trade?,
        Option.some.injEq] at hd
      subst hd
      exact htrade d₀ (by rw [hdetail]; rfl)
  | nft nft => simp [hdetail, UpdateTransactionBody.applyDetail, Detail.trade?] at hd

/-- A PATCH only moves a trade to a token the portfolio holds. -/
theorem held_apply {body : UpdateTransactionBody} {existing : Transaction}
    {ids : Option ℕ × Option ℕ} (hportfolio : existing.portfolioId = portfolio.id)
    (htokens : resolvePatchedTokens portfolio body existing db = .ok ids)
    (h : existing.Held db) : (body.apply N env db existing).Held db := by
  intro symbol hsymbol
  change ∃ token : Token, _ ∧ (db.findAsset existing.portfolioId token.id).isSome
  rw [SoundExcept.symbol_apply] at hsymbol
  obtain ⟨oldSymbol, hold, rfl⟩ := Option.map_eq_some_iff.mp hsymbol
  cases hbody : body.symbol with
  | none => exact h oldSymbol hold
  | some new =>
      unfold resolvePatchedTokens at htokens
      rw [hold, hbody] at htokens
      dsimp only at htokens
      split at htokens
      · next hsame =>
          rw [Option.map_some, Option.getD_some, hsame]
          exact h oldSymbol hold
      · obtain ⟨token, hnew, -⟩ := bind_eq_ok htokens
        unfold resolveNewToken at hnew
        obtain ⟨token', htoken, hnew⟩ := bind_eq_ok hnew
        obtain ⟨_, hasset, hnew⟩ := bind_eq_ok hnew
        rw [hportfolio]
        exact ⟨token', require_ok htoken, ensure_ok hasset⟩

theorem updateTransaction {txId : ℕ} {body : UpdateTransactionBody}
    (hrun : Ledger.updateTransaction N env portfolio txId body db = .ok db') :
    Writes N edited db db' := by
  unfold Ledger.updateTransaction at hrun
  obtain ⟨-, -, hrun⟩ := bind_eq_ok hrun
  obtain ⟨existing, hown, hrun⟩ := bind_eq_ok hrun
  obtain ⟨-, -, hrun⟩ := bind_eq_ok hrun
  obtain ⟨⟨old, new⟩, htokens, hrun⟩ := bind_eq_ok hrun
  obtain ⟨hmem, hid, hportfolio⟩ := SoundExcept.findOwnTransaction_ok hown
  have hpatched : Writes N edited db
      (db.updateTransactionRow txId (body.apply N env db) (fun _ => rfl) fun _ => rfl) := by
    refine .single (.patchRow fun t ht htx => ⟨rfl, ?_, tradeOnGrid_apply⟩)
    have hsame : t = existing := SerialTable.eq_of_id_eq ht hmem (htx.trans hid.symm)
    rw [hsame]
    exact held_apply hportfolio htokens
  dsimp only at hrun
  split at hrun
  · obtain ⟨rfl, -⟩ := commit_ok hrun
    exact hpatched.trans recalcPatched
  · obtain ⟨rfl, -⟩ := commit_ok hrun
    exact hpatched

theorem deleteRows {legs : List Transaction} :
    Writes N edited db (legs.foldl (fun db leg => db.deleteTransactionRow leg.id) db) := by
  induction legs generalizing db with
  | nil => exact .refl
  | cons leg legs ih => exact .head .deleteRow ih

theorem deleteTransaction {txId : ℕ}
    (hrun : Ledger.deleteTransaction N portfolio txId db = .ok db') :
    Writes N edited db db' := by
  unfold Ledger.deleteTransaction at hrun
  obtain ⟨-, -, hrun⟩ := bind_eq_ok hrun
  obtain ⟨existing, -, hrun⟩ := bind_eq_ok hrun
  split at hrun
  · unfold Ledger.deleteTransfer at hrun
    obtain ⟨rfl, -⟩ := commit_ok hrun
    exact deleteRows.trans recalcTargets
  · split at hrun
    · obtain ⟨rfl, -⟩ := commit_ok hrun
      exact .single .deleteRow
    · obtain ⟨rfl, -⟩ := commit_ok hrun
      exact (ReflTransGen.single .deleteRow).trans (recalcAsset.trans recalcTotal)

/-! ### Transfers -/

theorem insertLeg {body : TransferBody} {p : ℕ} {direction : Direction} {usdValue : ℚ}
    {token : Token} (hrow : db.createTransactionRow (transferLeg N env body p direction usdValue) =
      .ok db') (htoken : db.findTokenBySymbol body.symbol = some token)
    (hheld : (db.findAsset p token.id).isSome) (husd : N.OnGrid usdValue) :
    Writes N edited db db' := by
  refine insertTrade hrow rfl htoken hheld fun d hd => ?_
  simp only [transferLeg, Detail.trade?, Option.some.injEq] at hd
  subst hd
  exact ⟨N.onGrid_fix _, husd⟩

theorem createCrossPortfolioTransfer {body : TransferBody}
    (hrun : Ledger.createCrossPortfolioTransfer N env portfolio body db = .ok db') :
    Writes N edited db db' := by
  unfold Ledger.createCrossPortfolioTransfer at hrun
  obtain ⟨-, -, hrun⟩ := bind_eq_ok hrun
  obtain ⟨dest, -, hrun⟩ := bind_eq_ok hrun
  obtain ⟨token, htoken, hrun⟩ := bind_eq_ok hrun
  obtain ⟨sourceAsset, hlock, hrun⟩ := bind_eq_ok hrun
  obtain ⟨db₁, hcreate, hrun⟩ := bind_eq_ok hrun
  obtain ⟨db₂, hsell, hrun⟩ := bind_eq_ok hrun
  obtain ⟨db₃, hbuy, hrun⟩ := bind_eq_ok hrun
  obtain ⟨rfl, -⟩ := commit_ok hrun
  obtain ⟨hopened, hdest⟩ := @createIfNeeded N edited _ _ _ _ _ hcreate fun hneeded => by
    simpa using hneeded
  have hsource : (db.findAsset portfolio.id token.id).isSome := by
    rw [(lockTransferSource_ok hlock).1]
    rfl
  have hfound : ∀ {d : Db}, Writes N edited db d → d.findTokenBySymbol body.symbol = some token := by
    intro d hd
    unfold Db.findTokenBySymbol
    rw [hd.tokens_eq]
    exact require_ok htoken
  have hsold : Writes N edited db₁ db₂ :=
    insertLeg hsell (hfound hopened) (hopened.isSome_kept hsource) (N.onGrid_fix _)
  have hbought := (hopened.trans hsold).trans (insertLeg hbuy (hfound (hopened.trans hsold))
    (hsold.isSome_kept hdest) (N.onGrid_fix _))
  exact (((hbought.trans recalcAsset).trans recalcTotal).trans recalcAsset).trans recalcTotal

/-! ### Opening positions -/

theorem onGrid_resolveOpeningCost {tokenId : ℕ} {balance : ℚ} {cost : Cost}
    {opening : Option ℚ × Option Millis}
    (h : resolveOpeningCost N env db tokenId balance cost = some opening) :
    N.OnGrid (opening.1.getD 0) := by
  unfold resolveOpeningCost at h
  split at h
  · cases h
    exact N.onGrid_fix _
  · obtain ⟨price, -, rfl⟩ := Option.map_eq_some_iff.mp h
    exact N.onGrid_fix _
  · cases h
    exact N.onGrid_zero

theorem onGrid_editedOpening {existing : Asset} {balance : ℚ} {cost : Option Cost}
    {opening : Option ℚ × Option Millis}
    (h : editedOpening N env db existing balance cost = some opening) :
    N.OnGrid (opening.1.getD 0) := by
  unfold editedOpening at h
  split at h
  · cases h
    unfold rescaledOpening
    cases existing.openingCostBasis with
    | none => exact N.onGrid_zero
    | some basis =>
        dsimp only [Option.bind_some]
        split
        · exact N.onGrid_fix _
        · exact N.onGrid_zero
  · exact onGrid_resolveOpeningCost h

theorem addAsset {userId : ℕ} {body : CreateAssetBody}
    (hrun : Ledger.addAsset N userId env portfolio body db = .ok db') :
    Writes N edited db db' := by
  unfold Ledger.addAsset at hrun
  obtain ⟨-, -, hrun⟩ := bind_eq_ok hrun
  obtain ⟨-, -, hrun⟩ := bind_eq_ok hrun
  obtain ⟨token, -, hrun⟩ := bind_eq_ok hrun
  obtain ⟨-, -, hrun⟩ := bind_eq_ok hrun
  obtain ⟨-, -, hrun⟩ := bind_eq_ok hrun
  obtain ⟨opening, hopening, hrun⟩ := bind_eq_ok hrun
  obtain ⟨db₁, hcreate, hrun⟩ := bind_eq_ok hrun
  obtain ⟨rfl, -⟩ := commit_ok hrun
  have hlot := onGrid_resolveOpeningCost (require_ok hopening)
  exact ((ReflTransGen.single (.createAsset hcreate ⟨N.onGrid_fix _, hlot⟩)).trans
    recalcAsset).trans recalcTotal

theorem updateAsset {assetId : ℕ × ℕ} {body : UpdateAssetBody}
    (hedited : body.isOpeningEdit → assetId ∈ edited)
    (hrun : Ledger.updateAsset N env portfolio assetId body db = .ok db') :
    Writes N edited db db' := by
  unfold Ledger.updateAsset at hrun
  obtain ⟨-, -, hrun⟩ := bind_eq_ok hrun
  obtain ⟨existing, hown, hrun⟩ := bind_eq_ok hrun
  obtain ⟨-, hkey, -⟩ := SoundExcept.findOwnAsset_ok hown
  split at hrun
  · next hopening =>
      unfold Ledger.editOpening at hrun
      obtain ⟨-, -, hrun⟩ := bind_eq_ok hrun
      obtain ⟨opening, hnew, hrun⟩ := bind_eq_ok hrun
      obtain ⟨rfl, -⟩ := commit_ok hrun
      have hmem : existing.key ∈ edited := by
        rw [hkey]
        exact hedited hopening
      have hlot := onGrid_editedOpening (require_ok hnew)
      exact ((ReflTransGen.single (.editLot hmem fun a => ⟨N.onGrid_fix _, hlot⟩)).trans
        recalcAsset).trans recalcTotal
  · split at hrun
    · obtain ⟨rfl, -⟩ := commit_ok hrun
      exact .single (.settle fun _ => rfl)
    · cases hrun
      exact .refl

end Writes

/-! ## Bulk imports -/

/-- Each row of a batch creates its asset, or the asset is held, or a row before it needs the
same one. -/
def OpensFirst (held : ℕ → Prop) : List PreparedTxRow → Prop
  | [] => True
  | r :: rows => (r.createAsset = false → held r.tokenId) ∧
      OpensFirst (fun tokenId => held tokenId ∨ tokenId = r.tokenId) rows

namespace OpensFirst

theorem mono {held held' : ℕ → Prop} {rows : List PreparedTxRow}
    (hsub : ∀ tokenId, held tokenId → held' tokenId) (h : OpensFirst held rows) :
    OpensFirst held' rows := by
  induction rows generalizing held held' with
  | nil => exact trivial
  | cons r rows ih =>
      exact ⟨fun hr => hsub _ (h.1 hr), ih (fun _ => Or.imp_left (hsub _)) h.2⟩

theorem concat {held : ℕ → Prop} {rows : List PreparedTxRow} {r : PreparedTxRow}
    (h : OpensFirst held rows)
    (hr : r.createAsset = false → held r.tokenId ∨ ∃ s ∈ rows, s.tokenId = r.tokenId) :
    OpensFirst held (rows ++ [r]) := by
  induction rows generalizing held with
  | nil =>
      refine ⟨fun hcreate => (hr hcreate).resolve_right ?_, trivial⟩
      rintro ⟨s, hs, -⟩
      cases hs
  | cons s rows ih =>
      refine ⟨h.1, ih h.2 fun hcreate => ?_⟩
      rcases hr hcreate with hheld | ⟨x, hx, hid⟩
      · exact .inl (.inl hheld)
      · rcases List.mem_cons.mp hx with rfl | hx
        · exact .inl (.inr hid.symm)
        · exact .inr ⟨x, hx, hid⟩

end OpensFirst

/-- What the forward pass knows: the held tokens are those held before or opened by the batch,
and the prepared values are on the grid. -/
structure Batch.Sound (N : Numeric) (held : ℕ → Prop) (b : Batch) : Prop where
  opens : OpensFirst held (b.prepared.filter fun r => !r.duplicate)
  tokens : ∀ tokenId, b.heldTokens tokenId = true →
    held tokenId ∨ ∃ r ∈ b.prepared.filter (fun r => !r.duplicate), r.tokenId = tokenId
  priced : ∀ r ∈ b.prepared, N.OnGrid r.usdValue

theorem applyRunning_held {js : Js} {plan : Plan} {token : Token} {direction : Direction}
    {amountCell : String} {amount : ℚ} {b b' : Batch} {createAsset : Bool}
    (h : applyRunning js plan token direction amountCell amount b = .ok (b', createAsset)) :
    (∀ tokenId, b'.heldTokens tokenId = true → b.heldTokens tokenId = true ∨ tokenId = token.id) ∧
      (createAsset = false → b.heldTokens token.id = true) := by
  unfold applyRunning at h
  split at h
  · split at h
    · next hheld =>
        cases h
        exact ⟨fun _ => .inl, fun _ => hheld⟩
    · split at h
      · cases h
      · cases h
        refine ⟨fun tokenId htokenId => ?_, fun hcreate => by cases hcreate⟩
        by_cases hid : tokenId = token.id
        · exact .inr hid
        · change Function.update b.heldTokens token.id true tokenId = true at htokenId
          rw [Function.update_of_ne hid] at htokenId
          exact .inl htokenId
  · split at h
    · cases h
    · next hheld =>
        dsimp only at h
        split at h
        · cases h
        · cases h
          exact ⟨fun _ => .inl, fun _ => by simpa using hheld⟩

section Imports

variable {N : Numeric} {edited : Set (ℕ × ℕ)} {js : Js} {env : Env} {portfolio : Portfolio}
  {db db' : Db}

theorem Batch.Sound.prepareRow {held : ℕ → Prop} {row : ℕ} {raw : BulkRow} {b : Batch}
    (h : b.Sound N held) : (prepareRow N js env portfolio db row raw b).Sound N held := by
  have herrors : ∀ errors, ({ b with errors } : Batch).Sound N held := fun _ =>
    ⟨h.opens, h.tokens, h.priced⟩
  unfold Ledger.prepareRow
  split
  · next token _ _ =>
      split
      · exact herrors _
      · next body _ =>
          dsimp only
          split
          · refine ⟨?_, ?_, fun r hr => ?_⟩
            · rw [List.filter_append, List.filter_singleton]
              simpa using h.opens
            · rw [List.filter_append, List.filter_singleton]
              simpa using h.tokens
            · rcases List.mem_append.mp hr with hr | hr
              · exact h.priced r hr
              · rw [List.mem_singleton.mp hr]
                exact N.onGrid_zero
          · split
            · exact ⟨h.opens, h.tokens, h.priced⟩
            · next b' createAsset hrunning =>
                obtain ⟨hprepared, -, -⟩ := applyRunning_prepared hrunning
                obtain ⟨hheld, hcreate⟩ := applyRunning_held hrunning
                have hprepared : b'.prepared = b.prepared := hprepared
                refine ⟨?_, fun tokenId htokenId => ?_, fun r hr => ?_⟩
                · rw [List.filter_append, List.filter_singleton, hprepared]
                  exact h.opens.concat fun hfalse => h.tokens _ (hcreate hfalse)
                · rw [List.filter_append, List.filter_singleton, hprepared]
                  rcases hheld tokenId htokenId with hold | rfl
                  · rcases h.tokens tokenId hold with hh | ⟨r, hr, hid⟩
                    · exact .inl hh
                    · exact .inr ⟨r, List.mem_append_left _ hr, hid⟩
                  · exact .inr ⟨_, List.mem_append_right _ List.mem_cons_self, rfl⟩
                · rw [hprepared] at hr
                  rcases List.mem_append.mp hr with hr | hr
                  · exact h.priced r hr
                  · rw [List.mem_singleton.mp hr]
                    dsimp only
                    exact Writes.onGrid_computeUsdValue _ _ _
  · exact herrors _

theorem Batch.Sound.prepareRows {held : ℕ → Prop} {rows : List BulkRow} {row : ℕ} {b : Batch}
    (h : b.Sound N held) : (prepareRows N js env portfolio db rows row b).Sound N held := by
  induction rows generalizing row b with
  | nil => exact h
  | cons raw rows ih => exact ih h.prepareRow

theorem Batch.Sound.load {p : ℕ} :
    (Batch.load db p).Sound N fun tokenId => (db.findAsset p tokenId).isSome where
  opens := trivial
  tokens _ h := .inl h
  priced _ hr := absurd hr List.not_mem_nil

/-- The rows of a batch are written under tokens that are held by then. -/
theorem Writes.insertPrepared {p : ℕ} {rows : List PreparedTxRow} {tokens : TokenTable}
    (hcatalog : db.tokens = tokens)
    (hnames : ∀ r ∈ rows, ∃ (trade : TradeFields) (token : Token),
      r.body.payload = .native trade ∧ tokens.findUniq? trade.symbol.val = some token ∧
        r.tokenId = token.id)
    (hopens : OpensFirst (fun tokenId => (db.findAsset p tokenId).isSome) rows)
    (hpriced : ∀ r ∈ rows, N.OnGrid r.usdValue)
    (hrun : rows.foldlM (Ledger.insertPrepared N p) db = .ok db') : Writes N edited db db' := by
  induction rows generalizing db with
  | nil =>
      cases hrun
      exact .refl
  | cons r rows ih =>
      rw [List.foldlM_cons] at hrun
      obtain ⟨db₂, hfirst, hrun⟩ := bind_eq_ok hrun
      unfold Ledger.insertPrepared at hfirst
      obtain ⟨db₁, hcreate, hinsert⟩ := bind_eq_ok hfirst
      obtain ⟨trade, token, hpayload, htoken, hid⟩ := hnames r List.mem_cons_self
      obtain ⟨hopened, hheld⟩ := @Writes.createIfNeeded N edited _ _ _ _ _ hcreate hopens.1
      have hfound : db₁.findTokenBySymbol trade.symbol = some token := by
        unfold Db.findTokenBySymbol
        rw [hopened.tokens_eq, hcatalog]
        exact htoken
      have hbooked : Writes N edited db₁ db₂ :=
        Writes.insertTrade hinsert (Writes.symbol_row (by rw [hpayload]; rfl)) hfound (hid ▸ hheld)
          (Writes.tradeOnGrid_row (hpriced r List.mem_cons_self))
      have hboth : Writes N edited db db₂ := hopened.trans hbooked
      refine hboth.trans (ih (hboth.tokens_eq.trans hcatalog)
        (fun s hs => hnames s (List.mem_cons_of_mem _ hs)) (hopens.2.mono fun tokenId => ?_)
        (fun s hs => hpriced s (List.mem_cons_of_mem _ hs)) hrun)
      rintro (hbefore | rfl)
      · exact hboth.isSome_kept hbefore
      · exact hbooked.isSome_kept hheld

theorem Writes.bulkCreateTransactions {body : BulkBody} {result : Db × BulkResult}
    (hrun : Ledger.bulkCreateTransactions N js env portfolio body db = .ok result) :
    Writes N edited db result.1 := by
  rcases bulkCreateTransactions_writes hrun with hsame | hwrite
  · rw [hsame]
  · have hsound : (prepareRows N js env portfolio db body.rows 1 (Batch.load db portfolio.id)).Sound
        N fun tokenId => (db.findAsset portfolio.id tokenId).isSome := Batch.Sound.load.prepareRows
    have hnames := @names_prepareRows N js env portfolio db body.rows 1
      (Batch.load db portfolio.id) fun p hp => by cases hp
    unfold Ledger.writePrepared at hwrite
    obtain ⟨db₁, hinsert, hwrite⟩ := bind_eq_ok hwrite
    obtain ⟨hend, -⟩ := commit_ok hwrite
    have hinserted : Writes N edited db db₁ := Writes.insertPrepared rfl
      (fun r hr => hnames r (List.mem_of_mem_filter hr)) hsound.opens
      (fun r hr => hsound.priced r (List.mem_of_mem_filter hr)) hinsert
    have hsettled := @Writes.recalcTargets N edited db₁
      ((insertedRows N js db env portfolio body).map PreparedTxRow.tokenId |>.dedup.map
        fun tokenId => (portfolio.id, tokenId)) [portfolio.id]
    unfold Ledger.recalcTargets at hsettled
    rw [List.foldl_map] at hsettled
    rw [hend]
    exact hinserted.trans hsettled

theorem onGrid_prepareAssetRow {userId : ℕ} {row : ℕ} {raw : BulkRow} {b : AssetBatch}
    (h : ∀ r ∈ b.prepared, N.OnGrid (r.openingCostBasis.getD 0)) :
    ∀ r ∈ (prepareAssetRow N js env userId portfolio db row raw b).prepared,
      N.OnGrid (r.openingCostBasis.getD 0) := by
  unfold prepareAssetRow
  split
  · split
    · exact h
    · split
      · exact h
      · split
        · exact h
        · split
          · exact h
          · next opening hopening =>
              intro r hr
              rcases List.mem_append.mp hr with hr | hr
              · exact h r hr
              · rw [List.mem_singleton.mp hr]
                exact Writes.onGrid_resolveOpeningCost hopening
  · exact h

theorem onGrid_prepareAssetRows {userId : ℕ} {rows : List BulkRow} {row : ℕ} {b : AssetBatch}
    (h : ∀ r ∈ b.prepared, N.OnGrid (r.openingCostBasis.getD 0)) :
    ∀ r ∈ (prepareAssetRows N js env userId portfolio db rows row b).prepared,
      N.OnGrid (r.openingCostBasis.getD 0) := by
  induction rows generalizing row b with
  | nil => exact h
  | cons raw rows ih => exact ih (onGrid_prepareAssetRow h)

theorem Writes.bulkCreateAssets {userId : ℕ} {body : BulkBody} {result : Db × BulkResult}
    (hrun : Ledger.bulkCreateAssets N js env userId portfolio body db = .ok result) :
    Writes N edited db result.1 := by
  rcases bulkCreateAssets_writes hrun with hsame | hwrite
  · rw [hsame]
  · have hgrid := @onGrid_prepareAssetRows N js env portfolio db userId body.rows 1 {}
      fun r hr => absurd hr List.not_mem_nil
    unfold Ledger.writeOpenings at hwrite
    obtain ⟨db₁, hinsert, hwrite⟩ := bind_eq_ok hwrite
    obtain ⟨hend, -⟩ := commit_ok hwrite
    have hinserted : Writes N edited db db₁ := by
      refine foldlM_ok_invariant (fun r hr db₂ db₃ h₂ hfirst => ?_) .refl hinsert
      unfold insertOpening at hfirst
      obtain ⟨db₄, hcreate, hfirst⟩ := bind_eq_ok hfirst
      cases hfirst
      exact (h₂.tail (.createAsset hcreate ⟨N.onGrid_fix _, hgrid r hr⟩)).trans recalcAsset
    rw [hend]
    exact hinserted.trans recalcTotal

end Imports

/-! ## Requests and new portfolios -/

/-- The assets whose opening lot the request edits. -/
def Request.edited (r : Request) : Set (ℕ × ℕ) :=
  match r.action with
  | .updateAsset assetId body => {key | body.isOpeningEdit ∧ key = assetId}
  | _ => ∅

/-- A request that removes an asset takes its row away and settles the portfolio; every other
request is a chain of statements. -/
theorem Writes.request {N : Numeric} {js : Js} {db db' : Db} {r : Request}
    (hstep : Step N js db r db') :
    (∃ key portfolios, r.action = .removeAsset key ∧ key.1 = r.portfolioId ∧
        db' = { db.deleteAsset key with portfolios }) ∨ Writes N r.edited db db' := by
  unfold Step handle at hstep
  obtain ⟨portfolio, hportfolio, hrun⟩ := bind_eq_ok hstep
  obtain ⟨-, hid, -⟩ := ownedPortfolio_ok hportfolio
  cases haction : r.action with
  | createTransaction body =>
      rw [haction] at hrun
      exact .inr (.createTransaction hrun)
  | updateTransaction txId body =>
      rw [haction] at hrun
      exact .inr (.updateTransaction hrun)
  | deleteTransaction txId =>
      rw [haction] at hrun
      exact .inr (.deleteTransaction hrun)
  | transfer body =>
      rw [haction] at hrun
      exact .inr (.createCrossPortfolioTransfer hrun)
  | bulkTransactions body =>
      rw [haction] at hrun
      obtain ⟨result, hbulk⟩ := map_fst_ok hrun
      exact .inr (Writes.bulkCreateTransactions hbulk)
  | addAsset body =>
      rw [haction] at hrun
      exact .inr (.addAsset hrun)
  | updateAsset assetId body =>
      rw [haction] at hrun
      refine .inr (.updateAsset (fun hopening => ?_) hrun)
      unfold Request.edited
      rw [haction]
      exact ⟨hopening, rfl⟩
  | removeAsset assetId =>
      rw [haction] at hrun
      change Ledger.removeAsset N portfolio assetId db = .ok db' at hrun
      unfold Ledger.removeAsset at hrun
      obtain ⟨-, -, hrun⟩ := bind_eq_ok hrun
      obtain ⟨existing, hown, hrun⟩ := bind_eq_ok hrun
      obtain ⟨-, hkey, hpid⟩ := SoundExcept.findOwnAsset_ok hown
      obtain ⟨rfl, -⟩ := commit_ok hrun
      subst hkey
      exact .inl ⟨existing.key, _, rfl, hpid.trans hid, rfl⟩
  | bulkAssets body =>
      rw [haction] at hrun
      obtain ⟨result, hbulk⟩ := map_fst_ok hrun
      exact .inr (Writes.bulkCreateAssets hbulk)

section Creation

variable {N : Numeric} {edited : Set (ℕ × ℕ)} {env : Env} {db db' : Db}

theorem Writes.seedAsset {plan : Plan} {p : ℕ} {seen : List ℕ} {seed : SeedAsset}
    (hrun : Ledger.seedAsset N env plan p seen seed db = .ok db') : Writes N edited db db' := by
  unfold Ledger.seedAsset at hrun
  obtain ⟨-, -, hrun⟩ := bind_eq_ok hrun
  obtain ⟨token, htoken, hrun⟩ := bind_eq_ok hrun
  obtain ⟨-, -, hrun⟩ := bind_eq_ok hrun
  obtain ⟨db₁, hcreate, hrun⟩ := bind_eq_ok hrun
  obtain ⟨hopened, hheld⟩ := @Writes.createIfNeeded N edited _ _ true p seed.tokenId hcreate
    fun h => by cases h
  split at hrun
  · split at hrun
    · unfold seedAcquisitionInTx at hrun
      obtain ⟨db₂, hrow, hrun⟩ := bind_eq_ok hrun
      cases hrun
      have hfound : db₁.findTokenBySymbol token.symbol = some token := by
        unfold Db.findTokenBySymbol
        rw [hopened.tokens_eq]
        exact findTokenBySymbol_of_id (require_ok htoken)
      rw [← id_of_findTokenById (require_ok htoken)] at hheld
      have hbooked : Writes N edited db₁ db₂ := insertTrade hrow rfl hfound hheld fun d hd => by
        simp only [seedRow, Detail.trade?, Option.some.injEq] at hd
        subst hd
        exact ⟨N.onGrid_fix _, onGrid_computeUsdValue _ _ _⟩
      exact ((hopened.trans hbooked).trans recalcAsset).trans recalcTotal
    · cases hrun
      exact hopened
  · cases hrun
    exact hopened

theorem Writes.seedAssets {plan : Plan} {p : ℕ} {seen : List ℕ} {seeds : List SeedAsset}
    (hrun : Ledger.seedAssets N env plan p seen seeds db = .ok db') : Writes N edited db db' := by
  induction seeds generalizing seen db with
  | nil =>
      cases hrun
      exact .refl
  | cons seed seeds ih =>
      obtain ⟨db₁, hseed, hrun⟩ := bind_eq_ok hrun
      exact (Writes.seedAsset hseed).trans (ih hrun)

theorem Writes.createManualPortfolio {userId p : ℕ} {startingBalance : Option DecimalStr}
    {seeds : List SeedAsset}
    (hrun : Ledger.createManualPortfolio N env userId startingBalance seeds db = .ok (p, db')) :
    Writes N edited db db' := by
  unfold Ledger.createManualPortfolio at hrun
  obtain ⟨⟨p', db₁⟩, hcreate, hrun⟩ := bind_eq_ok hrun
  obtain ⟨db₂, hseeds, hrun⟩ := bind_eq_ok hrun
  obtain ⟨db₃, hcommit, hrun⟩ := bind_eq_ok hrun
  cases hrun
  obtain ⟨rfl, -⟩ := commit_ok hcommit
  obtain ⟨-, portfolios, rfl, -⟩ := createPortfolio_ok hcreate
  exact .head .portfolios (Writes.seedAssets hseeds)

end Creation

end Neonfi.Ledger

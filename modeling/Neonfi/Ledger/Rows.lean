import Neonfi.Ledger.CoherentRuns
import Neonfi.Ledger.Portfolios

/-!
# What every transaction row satisfies

A property of rows that holds of the rows the operations write, and that a PATCH keeps,
holds of every row in every run.
-/

namespace Neonfi.Ledger

open Lib

/-- The property holds of every row an operation writes and survives a PATCH. -/
structure RowClosed (N : Numeric) (P : TransactionData → Prop) : Prop where
  create : ∀ (body : CreateTransactionBody) portfolioId usdValue,
    P (body.row N portfolioId usdValue)
  patch : ∀ (body : UpdateTransactionBody) env db (t : Transaction),
    P t.toTransactionData → P (body.apply N env db t).toTransactionData
  leg : ∀ env body portfolioId direction usdValue,
    P (transferLeg N env body portfolioId direction usdValue)
  seed : ∀ portfolioId symbol amount usdValue ts s, 0 < amount →
    P (seedRow N portfolioId symbol amount usdValue ts s)

/-- The amounts that the native and erc20 rows of the portfolio move have the property. -/
def AmountsSatisfy (Q : ℚ → Prop) (p : ℕ) (t : TransactionData) : Prop :=
  t.portfolioId = p → ∀ d, t.detail.trade? = some d → Q d.amount

/-- Every amount in a row was stored from a positive one. -/
theorem rowClosed_amounts {N : Numeric} {Q : ℚ → Prop} {p : ℕ}
    (hQ : ∀ amount, 0 < amount → Q (N.fix amount)) : RowClosed N (AmountsSatisfy Q p) where
  create body portfolioId usdValue hp d hd := by
    unfold CreateTransactionBody.row at hd
    cases hpayload : body.payload with
    | native trade =>
        simp only [hpayload, Detail.trade?, Option.some.injEq] at hd
        subst hd
        exact hQ _ trade.amount.property.1
    | erc20 trade info =>
        simp only [hpayload, Detail.trade?, Option.some.injEq] at hd
        subst hd
        exact hQ _ trade.amount.property.1
    | nft nft => simp [hpayload, Detail.trade?] at hd
  patch body env db t ht hp d hd := by
    have happly : ∀ d₀, t.detail.trade? = some d₀ → Q (body.applyTrade N env db d₀).amount := by
      intro d₀ hd₀
      unfold UpdateTransactionBody.applyTrade
      cases body.amount with
      | none => exact ht hp d₀ hd₀
      | some amount => exact hQ _ amount.property.1
    cases hdetail : t.detail with
    | native d₀ =>
        simp only [UpdateTransactionBody.apply, hdetail, UpdateTransactionBody.applyDetail,
          Detail.trade?, Option.some.injEq] at hd
        subst hd
        exact happly d₀ (by rw [hdetail]; rfl)
    | erc20 d₀ info =>
        simp only [UpdateTransactionBody.apply, hdetail, UpdateTransactionBody.applyDetail,
          Detail.trade?, Option.some.injEq] at hd
        subst hd
        exact happly d₀ (by rw [hdetail]; rfl)
    | nft nft =>
        simp [UpdateTransactionBody.apply, hdetail, UpdateTransactionBody.applyDetail,
          Detail.trade?] at hd
  leg env body portfolioId direction usdValue hp d hd := by
    simp only [transferLeg, Detail.trade?, Option.some.injEq] at hd
    subst hd
    exact hQ _ body.amount.property.1
  seed portfolioId symbol amount usdValue ts s hpos hp d hd := by
    simp only [seedRow, Detail.trade?, Option.some.injEq] at hd
    subst hd
    exact hQ _ hpos

def AllRows (P : TransactionData → Prop) (db : Db) : Prop :=
  ∀ t ∈ db.transactions.rows, P t.toTransactionData

/-! ## Statements that write no transaction -/

@[simp] theorem transactions_recalcAssetBalance {N : Numeric} {portfolioId tokenId : ℕ} {db : Db} :
    (recalcAssetBalance N portfolioId tokenId db).transactions = db.transactions := by
  unfold recalcAssetBalance
  split
  · rfl
  · split <;> rfl

@[simp] theorem transactions_recalcPortfolioNetDeposit {N : Numeric} {portfolioId : ℕ} {db : Db} :
    (recalcPortfolioNetDeposit N portfolioId db).transactions = db.transactions := rfl

@[simp] theorem transactions_recalcPatched {N : Numeric} {portfolioId : ℕ} {old new : Option ℕ}
    {db : Db} : (recalcPatched N portfolioId old new db).transactions = db.transactions := by
  unfold recalcPatched
  cases old with
  | none => cases new <;> simp
  | some o =>
      cases new with
      | none => simp
      | some n =>
          dsimp only
          split <;> simp

theorem transactions_recalcTargets {N : Numeric} {targets : List (ℕ × ℕ)} {ids : List ℕ}
    {db : Db} : (recalcTargets N targets ids db).transactions = db.transactions := by
  have htotals : ∀ (ids : List ℕ) (db : Db),
      (ids.foldl (fun db id => recalcPortfolioNetDeposit N id db) db).transactions =
        db.transactions := by
    intro ids
    induction ids with
    | nil => intro db; rfl
    | cons id ids ih =>
        intro db
        rw [List.foldl_cons, ih, transactions_recalcPortfolioNetDeposit]
  have hassets : ∀ (targets : List (ℕ × ℕ)) (db : Db),
      (targets.foldl (fun db target => recalcAssetBalance N target.1 target.2 db)
        db).transactions = db.transactions := by
    intro targets
    induction targets with
    | nil => intro db; rfl
    | cons target targets ih =>
        intro db
        rw [List.foldl_cons, ih, transactions_recalcAssetBalance]
  exact (htotals ids _).trans (hassets targets db)

theorem transactions_createAsset {a : Asset} {db db' : Db} (h : db.createAsset a = .ok db') :
    db'.transactions = db.transactions := by
  obtain ⟨assets, rfl, -⟩ := createAsset_ok h
  rfl

theorem transactions_createIfNeeded {needed : Bool} {portfolioId tokenId : ℕ} {db db' : Db}
    (h : createIfNeeded needed portfolioId tokenId db = .ok db') :
    db'.transactions = db.transactions := by
  rcases createIfNeeded_ok h with rfl | hcreate
  · rfl
  · exact transactions_createAsset hcreate

namespace AllRows

variable {N : Numeric} {P : TransactionData → Prop} {db db' : Db}
variable {env : Env} {portfolio : Portfolio}

theorem of_eq (h : AllRows P db) (heq : db'.transactions = db.transactions) : AllRows P db' := by
  unfold AllRows
  rw [heq]
  exact h

theorem of_commit {db₁ : Db} (h : AllRows P db₁) (hcommit : db₁.commit N = .ok db') :
    AllRows P db' := by
  rw [(commit_ok hcommit).1]
  exact h

theorem insertRow {data : TransactionData} (h : AllRows P db) (hdata : P data)
    (hrow : db.createTransactionRow data = .ok db') : AllRows P db' := by
  obtain ⟨transactions, rfl, hrows⟩ := createTransactionRow_ok hrow
  intro t ht
  change t ∈ transactions.rows at ht
  rw [hrows] at ht
  rcases List.mem_append.mp ht with ht | ht
  · exact h t ht
  · rw [List.mem_singleton.mp ht]
    exact hdata

theorem deleteRow {txId : ℕ} (h : AllRows P db) : AllRows P (db.deleteTransactionRow txId) :=
  fun t ht => h t (List.mem_of_mem_filter ht)

theorem deleteRows {legs : List Transaction} (h : AllRows P db) :
    AllRows P (legs.foldl (fun db leg => db.deleteTransactionRow leg.id) db) := by
  induction legs generalizing db with
  | nil => exact h
  | cons leg legs ih => exact ih h.deleteRow

theorem patchRow {txId : ℕ} {body : UpdateTransactionBody} (hP : RowClosed N P)
    (h : AllRows P db) :
    AllRows P (db.updateTransactionRow txId (body.apply N env db) (fun _ => rfl)
      fun _ => rfl) := by
  intro t ht
  obtain ⟨s, hs, rfl⟩ := List.mem_map.mp ht
  split
  · exact hP.patch body env db s (h s hs)
  · exact h s hs

theorem createTransaction {body : CreateTransactionBody} (hP : RowClosed N P) (h : AllRows P db)
    (hrun : Ledger.createTransaction N env portfolio body db = .ok db') : AllRows P db' := by
  have htrade : ∀ trade, createTrade N env portfolio body trade db = .ok db' →
      AllRows P db' := by
    intro trade hrun
    unfold createTrade at hrun
    obtain ⟨token, -, hrun⟩ := bind_eq_ok hrun
    obtain ⟨auto, -, hrun⟩ := bind_eq_ok hrun
    obtain ⟨-, -, hrun⟩ := bind_eq_ok hrun
    obtain ⟨db₁, hcreate, hrun⟩ := bind_eq_ok hrun
    obtain ⟨db₂, hinsert, hrun⟩ := bind_eq_ok hrun
    have hinserted := (h.of_eq (transactions_createIfNeeded hcreate)).insertRow
      (hP.create body portfolio.id _) (insertTransaction_ok hinsert)
    exact (hinserted.of_eq (by simp)).of_commit hrun
  unfold Ledger.createTransaction at hrun
  obtain ⟨-, -, hrun⟩ := bind_eq_ok hrun
  cases hpayload : body.payload with
  | native trade =>
      rw [hpayload] at hrun
      exact htrade trade hrun
  | erc20 trade info =>
      rw [hpayload] at hrun
      exact htrade trade hrun
  | nft nft =>
      rw [hpayload] at hrun
      obtain ⟨db₁, hinsert, hrun⟩ := bind_eq_ok hrun
      exact (h.insertRow (hP.create body portfolio.id 0) (insertTransaction_ok hinsert)).of_commit
        hrun

theorem updateTransaction {txId : ℕ} {body : UpdateTransactionBody} (hP : RowClosed N P)
    (h : AllRows P db)
    (hrun : Ledger.updateTransaction N env portfolio txId body db = .ok db') :
    AllRows P db' := by
  unfold Ledger.updateTransaction at hrun
  obtain ⟨-, -, hrun⟩ := bind_eq_ok hrun
  obtain ⟨existing, -, hrun⟩ := bind_eq_ok hrun
  obtain ⟨-, -, hrun⟩ := bind_eq_ok hrun
  obtain ⟨⟨old, new⟩, -, hrun⟩ := bind_eq_ok hrun
  have hpatched := @AllRows.patchRow _ _ _ env txId body hP h
  dsimp only at hrun
  split at hrun
  · exact (hpatched.of_eq transactions_recalcPatched).of_commit hrun
  · exact hpatched.of_commit hrun

theorem deleteTransaction {txId : ℕ} (h : AllRows P db)
    (hrun : Ledger.deleteTransaction N portfolio txId db = .ok db') : AllRows P db' := by
  unfold Ledger.deleteTransaction at hrun
  obtain ⟨-, -, hrun⟩ := bind_eq_ok hrun
  obtain ⟨existing, -, hrun⟩ := bind_eq_ok hrun
  split at hrun
  · unfold Ledger.deleteTransfer at hrun
    exact (h.deleteRows.of_eq transactions_recalcTargets).of_commit hrun
  · split at hrun
    · exact h.deleteRow.of_commit hrun
    · exact ((@AllRows.deleteRow _ _ txId h).of_eq (by simp)).of_commit hrun

theorem createCrossPortfolioTransfer {body : TransferBody} (hP : RowClosed N P)
    (h : AllRows P db)
    (hrun : Ledger.createCrossPortfolioTransfer N env portfolio body db = .ok db') :
    AllRows P db' := by
  unfold Ledger.createCrossPortfolioTransfer at hrun
  obtain ⟨-, -, hrun⟩ := bind_eq_ok hrun
  obtain ⟨dest, -, hrun⟩ := bind_eq_ok hrun
  obtain ⟨token, -, hrun⟩ := bind_eq_ok hrun
  obtain ⟨sourceAsset, -, hrun⟩ := bind_eq_ok hrun
  obtain ⟨db₁, hcreate, hrun⟩ := bind_eq_ok hrun
  obtain ⟨db₂, hsource, hrun⟩ := bind_eq_ok hrun
  obtain ⟨db₃, hdest, hrun⟩ := bind_eq_ok hrun
  have hsold := (h.of_eq (transactions_createIfNeeded hcreate)).insertRow
    (hP.leg env body portfolio.id .sell _) hsource
  have hbought := hsold.insertRow (hP.leg env body dest.id .buy _) hdest
  exact (hbought.of_eq (by simp)).of_commit hrun

theorem insertPrepared {portfolioId : ℕ} {rows : List PreparedTxRow} (hP : RowClosed N P)
    (h : AllRows P db)
    (hrun : rows.foldlM (Ledger.insertPrepared N portfolioId) db = .ok db') : AllRows P db' := by
  refine foldlM_ok_invariant (fun r _ db₁ db₂ h₁ hinsert => ?_) h hrun
  unfold Ledger.insertPrepared at hinsert
  obtain ⟨db₃, hcreate, hinsert⟩ := bind_eq_ok hinsert
  exact (h₁.of_eq (transactions_createIfNeeded hcreate)).insertRow
    (hP.create r.body portfolioId _) hinsert

theorem writePrepared {portfolioId : ℕ} {rows : List PreparedTxRow} (hP : RowClosed N P)
    (h : AllRows P db) (hrun : Ledger.writePrepared N portfolioId rows db = .ok db') :
    AllRows P db' := by
  unfold Ledger.writePrepared at hrun
  obtain ⟨db₁, hinsert, hrun⟩ := bind_eq_ok hrun
  refine AllRows.of_commit ((h.insertPrepared hP hinsert).of_eq ?_) hrun
  have hassets := @transactions_recalcTargets N ((rows.map PreparedTxRow.tokenId).dedup.map fun
      tokenId => (portfolioId, tokenId)) [] db₁
  unfold recalcTargets at hassets
  rw [List.foldl_map] at hassets
  exact hassets

theorem writeOpenings {portfolioId : ℕ} {prepared : List PreparedAssetRow} (h : AllRows P db)
    (hrun : Ledger.writeOpenings N portfolioId prepared db = .ok db') : AllRows P db' := by
  unfold Ledger.writeOpenings at hrun
  obtain ⟨db₁, hinsert, hrun⟩ := bind_eq_ok hrun
  have hinserted : AllRows P db₁ := by
    refine foldlM_ok_invariant (fun r _ db₂ db₃ h₂ hfirst => ?_) h hinsert
    unfold insertOpening at hfirst
    obtain ⟨db₄, hcreate, hfirst⟩ := bind_eq_ok hfirst
    cases hfirst
    exact h₂.of_eq (by rw [transactions_recalcAssetBalance, transactions_createAsset hcreate])
  exact (hinserted.of_eq transactions_recalcPortfolioNetDeposit).of_commit hrun

/-- Every step keeps a closed property of the rows. -/
theorem request {js : Js} {r : Request} (hP : RowClosed N P) (h : AllRows P db)
    (hstep : Step N js db r db') : AllRows P db' := by
  unfold Step handle at hstep
  obtain ⟨portfolio, -, hrun⟩ := bind_eq_ok hstep
  cases haction : r.action with
  | createTransaction body =>
      rw [haction] at hrun
      exact h.createTransaction hP hrun
  | updateTransaction txId body =>
      rw [haction] at hrun
      exact h.updateTransaction hP hrun
  | deleteTransaction txId =>
      rw [haction] at hrun
      exact h.deleteTransaction hrun
  | transfer body =>
      rw [haction] at hrun
      exact h.createCrossPortfolioTransfer hP hrun
  | bulkTransactions body =>
      rw [haction] at hrun
      obtain ⟨result, hbulk⟩ := map_fst_ok hrun
      obtain ⟨-, hsame | ⟨rows, -, hwrite⟩⟩ := bulkCreateTransactions_ok hbulk
      · rw [show db' = db from hsame]
        exact h
      · exact h.writePrepared hP hwrite
  | addAsset body =>
      rw [haction] at hrun
      change Ledger.addAsset N r.userId r.env portfolio body db = .ok db' at hrun
      unfold Ledger.addAsset at hrun
      obtain ⟨-, -, hrun⟩ := bind_eq_ok hrun
      obtain ⟨-, -, hrun⟩ := bind_eq_ok hrun
      obtain ⟨token, -, hrun⟩ := bind_eq_ok hrun
      obtain ⟨-, -, hrun⟩ := bind_eq_ok hrun
      obtain ⟨-, -, hrun⟩ := bind_eq_ok hrun
      obtain ⟨opening, -, hrun⟩ := bind_eq_ok hrun
      obtain ⟨db₁, hcreate, hrun⟩ := bind_eq_ok hrun
      refine AllRows.of_commit (h.of_eq ?_) hrun
      simp [transactions_createAsset hcreate]
  | updateAsset assetId body =>
      rw [haction] at hrun
      change Ledger.updateAsset N r.env portfolio assetId body db = .ok db' at hrun
      unfold Ledger.updateAsset at hrun
      obtain ⟨-, -, hrun⟩ := bind_eq_ok hrun
      obtain ⟨existing, -, hrun⟩ := bind_eq_ok hrun
      split at hrun
      · unfold editOpening at hrun
        obtain ⟨-, -, hrun⟩ := bind_eq_ok hrun
        obtain ⟨opening, -, hrun⟩ := bind_eq_ok hrun
        refine AllRows.of_commit (h.of_eq ?_) hrun
        simp [Db.updateAssetRow]
      · split at hrun
        · exact AllRows.of_commit (h.of_eq (by rfl)) hrun
        · cases hrun
          exact h
  | removeAsset assetId =>
      rw [haction] at hrun
      change Ledger.removeAsset N portfolio assetId db = .ok db' at hrun
      unfold Ledger.removeAsset at hrun
      obtain ⟨-, -, hrun⟩ := bind_eq_ok hrun
      obtain ⟨existing, -, hrun⟩ := bind_eq_ok hrun
      exact AllRows.of_commit (h.of_eq (by rfl)) hrun
  | bulkAssets body =>
      rw [haction] at hrun
      obtain ⟨result, hbulk⟩ := map_fst_ok hrun
      obtain ⟨-, hsame | ⟨rows, -, hwrite⟩⟩ := bulkCreateAssets_ok hbulk
      · rw [show db' = db from hsame]
        exact h
      · exact h.writeOpenings hwrite

theorem seedAssets {env : Env} {plan : Plan} {portfolioId : ℕ} {seen : List ℕ}
    {seeds : List SeedAsset} (hP : RowClosed N P) (h : AllRows P db)
    (hrun : Ledger.seedAssets N env plan portfolioId seen seeds db = .ok db') :
    AllRows P db' := by
  induction seeds generalizing seen db with
  | nil =>
      cases hrun
      exact h
  | cons seed seeds ih =>
      obtain ⟨db₁, hseed, hrun⟩ := bind_eq_ok hrun
      refine ih ?_ hrun
      unfold Ledger.seedAsset at hseed
      obtain ⟨-, -, hseed⟩ := bind_eq_ok hseed
      obtain ⟨token, -, hseed⟩ := bind_eq_ok hseed
      obtain ⟨-, -, hseed⟩ := bind_eq_ok hseed
      obtain ⟨db₂, hcreate, hseed⟩ := bind_eq_ok hseed
      have hcreated := h.of_eq (transactions_createAsset hcreate)
      split at hseed
      · split at hseed
        · next hpos =>
            unfold seedAcquisitionInTx at hseed
            obtain ⟨db₃, hrow, hseed⟩ := bind_eq_ok hseed
            cases hseed
            exact (hcreated.insertRow (hP.seed _ _ _ _ _ _ hpos) hrow).of_eq (by simp)
        · cases hseed
          exact hcreated
      · cases hseed
        exact hcreated

theorem createManualPortfolio {env : Env} {userId p : ℕ} {startingBalance : Option DecimalStr}
    {seeds : List SeedAsset} (hP : RowClosed N P) (h : AllRows P db)
    (hrun : Ledger.createManualPortfolio N env userId startingBalance seeds db = .ok (p, db')) :
    AllRows P db' := by
  unfold Ledger.createManualPortfolio at hrun
  obtain ⟨⟨p', db₁⟩, hcreate, hrun⟩ := bind_eq_ok hrun
  obtain ⟨db₂, hseeds, hrun⟩ := bind_eq_ok hrun
  obtain ⟨db₃, hcommit, hrun⟩ := bind_eq_ok hrun
  cases hrun
  obtain ⟨-, portfolios, rfl, -⟩ := createPortfolio_ok hcreate
  have hcreated : AllRows P { db with portfolios } := h
  exact (hcreated.seedAssets hP hseeds).of_commit hcommit

end AllRows

end Neonfi.Ledger

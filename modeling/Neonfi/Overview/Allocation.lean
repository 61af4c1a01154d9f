import Neonfi.Overview.Signs

/-!
# The allocation against the net worth

Every asset counts towards the value of its portfolio, only those with a positive balance towards
the allocation.  The two agree as long as what the overdrawn balances are worth adds up to nothing
and no held token has a negative price.
-/

namespace Neonfi.Overview

open Lib Ledger

/-! ## The value of a portfolio -/

/-- The assets with a negative balance. -/
def Sources.overdrawn (src : Sources) (portfolioId : ℕ) : List (Asset × Token) :=
  (src.assetsWithTokens portfolioId).filter fun a => a.1.balance < 0

section

variable (src : Sources) (portfolioId : ℕ)

theorem token_of_mem {a : Asset × Token} (ha : a ∈ src.assetsWithTokens portfolioId) :
    src.db.findTokenBySymbol a.2.symbol = some a.2 := by
  obtain ⟨asset, -, hasset⟩ := List.mem_filterMap.mp ha
  obtain ⟨token, htoken, rfl⟩ := Option.map_eq_some_iff.mp hasset
  exact findTokenBySymbol_of_id htoken

/-- An asset without its token counts for nothing. -/
theorem sum_assetPrice :
    ((assetsOf src.db portfolioId).map fun a => a.balance * assetPrice src.live src.db a).sum =
      computeTotalValue src portfolioId := by
  unfold computeTotalValue Sources.assetsWithTokens
  induction assetsOf src.db portfolioId with
  | nil => rfl
  | cons a assets ih =>
      rw [List.map_cons, List.sum_cons, ih]
      unfold assetPrice
      cases htoken : src.db.findTokenById a.tokenId with
      | none => simp [htoken]
      | some token =>
          rw [List.filterMap_cons_some (by rw [htoken, Option.map_some]), List.map_cons,
            List.sum_cons]
          rfl

/-- The derived value is the value of the holdings page. -/
theorem totalValue_computeDerived :
    (computeDerived src portfolioId).totalValue = computeTotalValue src portfolioId := by
  rw [← sum_assetPrice]
  unfold computeDerived computeFromDb
  dsimp only
  split <;> rfl

theorem computeTotalValue_eq : computeTotalValue src portfolioId =
    ((src.held portfolioId).map (heldValue src)).sum +
      ((src.overdrawn portfolioId).map (heldValue src)).sum := by
  unfold computeTotalValue Sources.held Sources.overdrawn
  induction src.assetsWithTokens portfolioId with
  | nil => simp
  | cons a assets ih =>
      rw [List.map_cons, List.sum_cons, ih]
      rcases lt_trichotomy a.1.balance 0 with h | h | h
      · simp [h, h.not_gt]
        ring
      · simp [h, heldValue]
      · simp [h, h.not_gt]
        ring

end

/-! ## The values by symbol -/

section

variable {src : Sources} {portfolios : List PortfolioWithRelations}

theorem mem_bySymbol {amount : Asset × Token → ℚ} {x : String × ℚ} :
    x ∈ bySymbol src portfolios amount ↔
      ∃ p ∈ portfolios, ∃ a ∈ src.held p.id, x = (a.2.symbol, amount a) := by
  unfold bySymbol
  simp only [List.mem_map, List.mem_flatMap]
  constructor
  · rintro ⟨a, ⟨p, hp, ha⟩, rfl⟩
    exact ⟨p, hp, a, ha, rfl⟩
  · rintro ⟨p, hp, a, ha, rfl⟩
    exact ⟨a, ⟨p, hp, ha⟩, rfl⟩

theorem sum_bySymbol : ((bySymbol src portfolios (heldValue src)).map Prod.snd).sum =
    (portfolios.map fun p => ((src.held p.id).map (heldValue src)).sum).sum := by
  unfold bySymbol
  rw [List.map_map]
  induction portfolios with
  | nil => rfl
  | cons p portfolios ih =>
      rw [List.flatMap_cons, List.map_append, List.sum_append, ih, List.map_cons, List.sum_cons]
      rfl

/-- A symbol has one price, so its values all have the sign of that price. -/
def symbolPrice (src : Sources) (symbol : String) : ℚ :=
  ((src.db.findTokenBySymbol symbol).map src.price).getD 0

theorem symbolPrice_eq {portfolioId : ℕ} {a : Asset × Token} (ha : a ∈ src.held portfolioId) :
    symbolPrice src a.2.symbol = src.price a.2 ∧ 0 < a.1.balance := by
  obtain ⟨hmem, hpos⟩ := List.mem_filter.mp ha
  unfold symbolPrice
  rw [token_of_mem src portfolioId hmem]
  exact ⟨rfl, of_decide_eq_true hpos⟩

/-- No symbol has a negative sum exactly when no held token has a negative price. -/
theorem sums_nonneg_iff :
    (∀ e ∈ Tally.of (bySymbol src portfolios (heldValue src)), 0 ≤ e.2) ↔
      ∀ p ∈ portfolios, ∀ a ∈ src.held p.id, 0 ≤ src.price a.2 := by
  constructor
  · intro hsums p hp a ha
    by_contra hneg
    have hsigns : ∀ e ∈ Tally.of (bySymbol src portfolios (heldValue src)),
        symbolPrice src e.1 < 0 → e.2 < 0 := by
      refine Tally.forall_of (P := fun k v => symbolPrice src k < 0 → v < 0)
        (fun k v w hv hw hk => add_neg (hv hk) (hw hk)) fun x hx hprice => ?_
      obtain ⟨q, -, b, hb, rfl⟩ := mem_bySymbol.mp hx
      obtain ⟨hsymbol, hpos⟩ := symbolPrice_eq hb
      rw [hsymbol] at hprice
      exact mul_neg_of_pos_of_neg hpos hprice
    have hvalue : (a.2.symbol, heldValue src a) ∈ bySymbol src portfolios (heldValue src) :=
      mem_bySymbol.mpr ⟨p, hp, a, ha, rfl⟩
    obtain ⟨e, he, hsymbol⟩ := List.mem_map.mp (Tally.key_mem_of hvalue)
    have hprice : symbolPrice src e.1 < 0 := by
      rw [hsymbol, (symbolPrice_eq ha).1]
      exact not_le.mp hneg
    exact absurd (hsums e he) (hsigns e he hprice).not_ge
  · intro hprices
    refine Tally.forall_of (P := fun _ v => 0 ≤ v) (fun _ _ _ => add_nonneg) fun x hx => ?_
    obtain ⟨p, hp, a, ha, rfl⟩ := mem_bySymbol.mp hx
    exact mul_nonneg (symbolPrice_eq ha).2.le (hprices p hp a ha)

theorem sum_allocation : ((allocation src portfolios).map AllocationRow.value).sum =
    (((Tally.of (bySymbol src portfolios (heldValue src))).filter fun e => 0 < e.2).map
      Prod.snd).sum := by
  unfold allocation
  dsimp only
  rw [((List.mergeSort_perm _ _).map _).sum_eq, List.map_map]
  rfl

theorem sum_percentages {total : ℚ}
    (htotal : ((bySymbol src portfolios (heldValue src)).map Prod.snd).sum = total)
    (hpos : total ≠ 0) : ((allocation src portfolios).map AllocationRow.percentage).sum =
      ((allocation src portfolios).map AllocationRow.value).sum / total * 100 := by
  rw [sum_allocation]
  unfold allocation
  dsimp only
  rw [htotal, ((List.mergeSort_perm _ _).map _).sum_eq, List.map_map, ← sum_shares]
  refine congrArg List.sum (List.map_congr_left fun e _ => ?_)
  exact if_neg hpos

end

/-! ## The holdings of one portfolio -/

section

variable {src : Sources} {portfolioId : ℕ}

theorem sum_holdingShares : ((holdingShares src portfolioId).map HoldingShare.value).sum =
    ((src.held portfolioId).map (heldValue src)).sum := by
  unfold holdingShares
  dsimp only
  rw [((List.mergeSort_perm _ _).map _).sum_eq, List.map_map]
  rfl

theorem sum_portfolioPercentages (hpos : 0 < computeTotalValue src portfolioId) :
    ((holdingShares src portfolioId).map HoldingShare.portfolioPercentage).sum =
      ((src.held portfolioId).map (heldValue src)).sum / computeTotalValue src portfolioId *
        100 := by
  unfold holdingShares
  dsimp only
  rw [((List.mergeSort_perm _ _).map _).sum_eq, List.map_map, ← sum_shares]
  refine congrArg List.sum (List.map_congr_left fun a _ => ?_)
  exact if_pos hpos

end

/-! ## Reconciliation -/

/-- The holdings of a portfolio add up to its value, and to 100% of a positive one. -/
def HoldingsReconcile (src : Sources) (portfolioId : ℕ) : Prop :=
  ((holdingShares src portfolioId).map HoldingShare.value).sum =
      computeTotalValue src portfolioId ∧
    (0 < computeTotalValue src portfolioId →
      ((holdingShares src portfolioId).map HoldingShare.portfolioPercentage).sum = 100)

/-- The allocation adds up to the net worth, and to 100% of a positive one; so do the holdings of
each portfolio. -/
def Reconciles (src : Sources) (portfolios : List PortfolioWithRelations) : Prop :=
  ((allocation src portfolios).map AllocationRow.value).sum = (totals src portfolios).totalValue ∧
    (0 < (totals src portfolios).totalValue →
      ((allocation src portfolios).map AllocationRow.percentage).sum = 100) ∧
    ∀ p ∈ portfolios, HoldingsReconcile src p.id

/-- What the allocation leaves out is worth nothing. -/
def NothingLeftOut (src : Sources) (portfolios : List PortfolioWithRelations) : Prop :=
  ∀ p ∈ portfolios, (∀ a ∈ src.held p.id, 0 ≤ src.price a.2) ∧
    ((src.overdrawn p.id).map (heldValue src)).sum = 0

section

variable {src : Sources} {portfolios : List PortfolioWithRelations}

theorem holdingsReconcile_iff {portfolioId : ℕ} : HoldingsReconcile src portfolioId ↔
    ((src.overdrawn portfolioId).map (heldValue src)).sum = 0 := by
  unfold HoldingsReconcile
  rw [sum_holdingShares]
  constructor
  · rintro ⟨hvalue, -⟩
    rw [computeTotalValue_eq] at hvalue
    linarith
  · intro hzero
    have hvalue : ((src.held portfolioId).map (heldValue src)).sum =
        computeTotalValue src portfolioId := by rw [computeTotalValue_eq, hzero, add_zero]
    refine ⟨hvalue, fun hpos => ?_⟩
    rw [sum_portfolioPercentages hpos, hvalue, div_self hpos.ne', one_mul]

/-- Without overdrawn worth the net worth is that of the held assets. -/
theorem totalValue_of_overdrawn
    (hzero : ∀ p ∈ portfolios, ((src.overdrawn p.id).map (heldValue src)).sum = 0) :
    (totals src portfolios).totalValue =
      ((bySymbol src portfolios (heldValue src)).map Prod.snd).sum := by
  rw [sum_bySymbol]
  unfold totals
  dsimp only
  rw [List.map_map]
  refine congrArg List.sum (List.map_congr_left fun p hp => ?_)
  rw [Function.comp_apply, totalValue_computeDerived, computeTotalValue_eq, hzero p hp, add_zero]

/-- For every set of portfolios in any state and at all prices, allocation and holdings reconcile
exactly when what they leave out is worth nothing. -/
theorem reconciles_iff : Reconciles src portfolios ↔ NothingLeftOut src portfolios := by
  have hsum : ((allocation src portfolios).map AllocationRow.value).sum =
      ((bySymbol src portfolios (heldValue src)).map Prod.snd).sum ↔
        ∀ p ∈ portfolios, ∀ a ∈ src.held p.id, 0 ≤ src.price a.2 := by
    rw [sum_allocation, ← Tally.sum_of (bySymbol src portfolios (heldValue src)),
      sum_filter_pos_eq_iff, sums_nonneg_iff]
  constructor
  · rintro ⟨hvalue, -, hholdings⟩ p hp
    have hzero : ∀ p ∈ portfolios, ((src.overdrawn p.id).map (heldValue src)).sum = 0 :=
      fun p hp => holdingsReconcile_iff.mp (hholdings p hp)
    rw [totalValue_of_overdrawn hzero] at hvalue
    exact ⟨hsum.mp hvalue p hp, hzero p hp⟩
  · intro hleft
    have htotal := totalValue_of_overdrawn fun p hp => (hleft p hp).2
    have hvalue := hsum.mpr fun p hp => (hleft p hp).1
    refine ⟨hvalue.trans htotal.symm, fun hpos => ?_, fun p hp =>
      holdingsReconcile_iff.mpr (hleft p hp).2⟩
    rw [sum_percentages htotal.symm hpos.ne', hvalue, ← htotal, div_self hpos.ne', one_mul]

end

/-! ### A purchase deleted after its sale -/

/-- Allocation and net worth reconcile in every state that requests can reach from an empty
ledger. -/
def AlwaysReconciles : Prop :=
  ∀ (start : Db) (requests : List Request) (src : Sources)
    (portfolios : List PortfolioWithRelations), start.assets.rows = [] →
    start.transactions.rows = [] → Run (Step decimal20_8 sampleJs) start requests src.db →
    (∀ p ∈ portfolios, Loaded src p) → Reconciles src portfolios

/-- Portfolio 1 buys a unit, sells it and deletes the purchase; portfolio 2 buys two. -/
def overdrawing : List Request :=
  [sampleRequest (.createTransaction (trade .buy ⟨1, amount_1⟩ ⟨100, bounded_100⟩ 10)),
    sampleRequest (.createTransaction (trade .sell ⟨1, amount_1⟩ ⟨100, bounded_100⟩ 20)),
    sampleRequest (.deleteTransaction 1),
    ⟨1, 2, sampleEnv, .createTransaction (trade .buy ⟨2, amount_2⟩ ⟨100, bounded_100⟩ 10)⟩]

theorem run_overdrawing :
    Run (Step decimal20_8 sampleJs) sampleDb overdrawing (sampleSources overdrawing 200).db := by
  have hrun : succeedsWith (fun _ => true)
      (handleAll decimal20_8 sampleJs overdrawing sampleDb) = true := by decide +kernel
  obtain ⟨db, hok, -⟩ := exists_of_succeedsWith hrun
  have hdb : (sampleSources overdrawing 200).db = db := by
    unfold sampleSources
    rw [hok]
  rw [hdb]
  have hguarded :
      Run (Guarded (Step decimal20_8 sampleJs) fun _ _ => True) sampleDb overdrawing db :=
    run_of_handleAll (fun _ _ _ => trivial) hok
  exact hguarded.mono fun _ _ _ hstep => hstep.1

/-- At a price of 200 the net worth is 200, and the allocation 400. -/
theorem not_alwaysReconciles : ¬ AlwaysReconciles := by
  intro halways
  have hloaded : ∀ p ∈ [samplePortfolio 1 (-100), samplePortfolio 2 200],
      Loaded (sampleSources overdrawing 200) p := by
    intro p hp
    rcases List.mem_pair.mp hp with rfl | rfl
    · decide +kernel
    · decide +kernel
  have hvalue := (halways sampleDb overdrawing _ _ rfl rfl run_overdrawing hloaded).1
  have hsums : ((allocation (sampleSources overdrawing 200)
        [samplePortfolio 1 (-100), samplePortfolio 2 200]).map AllocationRow.value).sum = 400 ∧
      (totals (sampleSources overdrawing 200)
        [samplePortfolio 1 (-100), samplePortfolio 2 200]).totalValue = 200 := by decide +kernel
  rw [hsums.1, hsums.2] at hvalue
  norm_num at hvalue

end Neonfi.Overview

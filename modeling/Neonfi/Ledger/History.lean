import Neonfi.Ledger.Rows

/-!
# The history of a portfolio

A manual portfolio starts with its creation, which may already buy its initial holdings;
after it come requests and the creation of other portfolios.  A state in such a history is
coherent for the portfolio.
-/

namespace Neonfi.Ledger

open Lib

/-- The foreign keys of assets and transactions to their portfolio. -/
structure ForeignKeys (db : Db) : Prop where
  assets : ∀ a ∈ db.assets.rows, (db.findPortfolioById a.portfolioId).isSome
  transactions : ∀ t ∈ db.transactions.rows, (db.findPortfolioById t.portfolioId).isSome

def NamedTokens (db : Db) : Prop := ∀ token ∈ db.tokens.rows, token.symbol ≠ ""

theorem NamedTokens.of_eq {db db' : Db} (h : NamedTokens db) (htokens : db'.tokens = db.tokens) :
    NamedTokens db' := by
  unfold NamedTokens
  rw [htokens]
  exact h

theorem lt_next_of_isSome {db : Db} {p : ℕ} (h : (db.findPortfolioById p).isSome) :
    p < db.portfolios.next := by
  obtain ⟨portfolio, hfound⟩ := Option.isSome_iff_exists.mp h
  obtain ⟨hmem, hid⟩ := SerialTable.find?_eq_some_iff.mp hfound
  have hlt := db.portfolios.below portfolio hmem
  omega

/-- The transactions of the portfolio are of tokens in the list. -/
def OnlyTokens (p : ℕ) (tokenIds : List ℕ) (db : Db) : Prop :=
  ∀ t ∈ db.transactions.rows, t.portfolioId = p →
    ∃ token, db.findTokenBySymbol token.symbol = some token ∧ token.id ∈ tokenIds ∧
      t.symbol? = some token.symbol

theorem OnlyTokens.mono {p : ℕ} {tokenIds tokenIds' : List ℕ} {db db' : Db}
    (h : OnlyTokens p tokenIds db) (hsub : ∀ id ∈ tokenIds, id ∈ tokenIds')
    (htokens : db'.tokens = db.tokens) (hrows : db'.transactions = db.transactions) :
    OnlyTokens p tokenIds' db' := by
  intro t ht hp
  rw [hrows] at ht
  obtain ⟨token, htoken, hmem, hsymbol⟩ := h t ht hp
  refine ⟨token, ?_, hsub _ hmem, hsymbol⟩
  unfold Db.findTokenBySymbol at *
  rwa [htokens]

theorem ledgerEvents_eq_nil {p : ℕ} {tokenIds : List ℕ} {db : Db} {token : Token}
    (h : OnlyTokens p tokenIds db) (htoken : db.findTokenBySymbol token.symbol = some token)
    (hnew : token.id ∉ tokenIds) : ledgerEvents db p token.symbol = [] := by
  rw [List.eq_nil_iff_forall_not_mem]
  intro e he
  obtain ⟨t, ht, -, hconcerns, -⟩ := row_of_event (mem_ledgerEvents.mp he)
  obtain ⟨token', htoken', hmem, hsymbol⟩ := h t ht hconcerns.1
  have hsame : token'.symbol = token.symbol := by
    rw [hconcerns.2] at hsymbol
    exact (Option.some.inj hsymbol).symm
  rw [hsame, htoken] at htoken'
  cases htoken'
  exact hnew hmem

theorem replay_emptyAsset_nil {N : Numeric} {p tokenId : ℕ} :
    ((replay (emptyAsset p tokenId) []).stored N) = (emptyAsset p tokenId).derived := by
  simp [replay, Totals.opening, Totals.stored, Totals.avg?, emptyAsset, Asset.derived]

namespace SoundExcept

variable {β : Type} {N : Numeric} {view : Derived → β} {tokens : TokenTable} {p : ℕ}
variable {db db' : Db} {env : Env}

/-- A new asset row without transactions is coherent as it is. -/
theorem createEmptyAsset {portfolioId : ℕ} {tokenIds : List ℕ} {token : Token}
    (h : SoundExcept N view tokens p ∅ db) (htoken : db.findTokenById token.id = some token)
    (hseen : portfolioId = p → OnlyTokens p tokenIds db) (hnew : token.id ∉ tokenIds)
    (hcreate : db.createAsset (emptyAsset portfolioId token.id) = .ok db') :
    SoundExcept N view tokens p ∅ db' := by
  obtain ⟨assets, rfl, hrows, -⟩ := createAsset_ok hcreate
  refine ⟨h.catalog, h.manual, h.named, fun b hb hp hstale => ?_⟩
  change b ∈ assets.rows at hb
  rw [hrows] at hb
  rcases List.mem_append.mp hb with hb | hb
  · exact h.coherent b hb hp hstale
  · obtain rfl := List.mem_singleton.mp hb
    refine ⟨token, htoken, ?_⟩
    change portfolioId = p at hp
    have hnone := ledgerEvents_eq_nil (hseen hp) (findTokenBySymbol_of_id htoken) hnew
    show view _ = view ((replay _ (ledgerEvents db portfolioId token.symbol)).stored N)
    rw [hp, hnone, replay_emptyAsset_nil]

theorem seedAsset {plan : Plan} {portfolioId : ℕ} {tokenIds : List ℕ} {seed : SeedAsset}
    (h : SoundExcept N view tokens p ∅ db) (hnamed : NamedTokens db)
    (hseen : portfolioId = p → OnlyTokens p tokenIds db)
    (hrun : Ledger.seedAsset N env plan portfolioId tokenIds seed db = .ok db') :
    SoundExcept N view tokens p ∅ db' ∧
      (portfolioId = p → OnlyTokens p (seed.tokenId :: tokenIds) db') := by
  obtain rfl := h.catalog
  unfold Ledger.seedAsset at hrun
  obtain ⟨_, hnew, hrun⟩ := bind_eq_ok hrun
  obtain ⟨token, htoken, hrun⟩ := bind_eq_ok hrun
  obtain ⟨_, -, hrun⟩ := bind_eq_ok hrun
  obtain ⟨db₁, hcreate, hrun⟩ := bind_eq_ok hrun
  have hfound := require_ok htoken
  have hid := id_of_findTokenById hfound
  have hunseen := ensure_ok hnew
  rw [← hid] at hcreate hunseen hfound ⊢
  have hsymbol := findTokenBySymbol_of_id hfound
  have htokens : db₁.tokens = db.tokens := by
    obtain ⟨_, rfl, -⟩ := createAsset_ok hcreate
    rfl
  have hsound := h.createEmptyAsset hfound hseen hunseen hcreate
  have honly : portfolioId = p → OnlyTokens p (token.id :: tokenIds) db₁ := fun hp =>
    (hseen hp).mono (fun _ hmem => List.mem_cons_of_mem _ hmem) htokens
      (transactions_createAsset hcreate)
  split at hrun
  · split at hrun
    · unfold seedAcquisitionInTx at hrun
      obtain ⟨db₂, hrow, hrun⟩ := bind_eq_ok hrun
      have hwide : SoundExcept N view db.tokens p (insert (portfolioId, token.id) ∅) db₁ :=
        hsound.mono fun _ hkey => absurd hkey (Set.notMem_empty _)
      have hinserted := hwide.insertRow hrow
        (fun hempty => hnamed token (findTokenBySymbol_eq hsymbol).1 (Option.some.inj hempty))
        fun key _ htouch => by
          rw [(@touches_iff db _ _ _ _ rfl hsymbol).mp htouch]
          exact Set.mem_insert _ _
      have hsettled := @SoundExcept.setNetDeposit _ _ _ _ _ _ _ portfolioId
          (N.fix (netDepositSum (recalcAssetBalance N portfolioId token.id db₂)
          portfolioId)) (hinserted.recalc hfound)
      cases hrun
      refine ⟨hsettled, fun hp t ht htp => ?_⟩
      have hcatalog : ∀ symbol, (recalcPortfolioNetDeposit N portfolioId
          (recalcAssetBalance N portfolioId token.id db₂)).findTokenBySymbol symbol =
            db₁.findTokenBySymbol symbol := by
        intro symbol
        unfold Db.findTokenBySymbol
        rw [htokens]
        exact congrArg (fun T : TokenTable => T.findUniq? symbol) hsettled.catalog
      obtain ⟨transactions, rfl, hrows⟩ := createTransactionRow_ok hrow
      rw [transactions_recalcPortfolioNetDeposit, transactions_recalcAssetBalance] at ht
      change t ∈ transactions.rows at ht
      rw [hrows] at ht
      rcases List.mem_append.mp ht with ht | ht
      · obtain ⟨token', htoken', hmem, htsymbol⟩ := honly hp t ht htp
        exact ⟨token', by rw [hcatalog, htoken'], hmem, htsymbol⟩
      · rw [List.mem_singleton.mp ht]
        refine ⟨token, ?_, List.mem_cons_self, rfl⟩
        rw [hcatalog]
        unfold Db.findTokenBySymbol
        rw [htokens]
        exact hsymbol
    · cases hrun
      exact ⟨hsound, honly⟩
  · cases hrun
    exact ⟨hsound, honly⟩

theorem seedAssets {plan : Plan} {portfolioId : ℕ} {tokenIds : List ℕ} {seeds : List SeedAsset}
    (h : SoundExcept N view tokens p ∅ db) (hnamed : NamedTokens db)
    (hseen : portfolioId = p → OnlyTokens p tokenIds db)
    (hrun : Ledger.seedAssets N env plan portfolioId tokenIds seeds db = .ok db') :
    SoundExcept N view tokens p ∅ db' := by
  induction seeds generalizing tokenIds db with
  | nil =>
      cases hrun
      exact h
  | cons seed seeds ih =>
      obtain ⟨db₁, hseed, hrun⟩ := bind_eq_ok hrun
      obtain ⟨hsound, hseen'⟩ := h.seedAsset hnamed hseen hseed
      have hnamed' : NamedTokens db₁ := by
        unfold NamedTokens
        rw [hsound.catalog, ← h.catalog]
        exact hnamed
      exact ih hsound hnamed' hseen' hrun

variable {userId : ℕ} {startingBalance : Option DecimalStr} {seeds : List SeedAsset}

/-- A portfolio is coherent when it is created. -/
theorem create (hforeign : ForeignKeys db) (hnamed : NamedTokens db)
    (hrun : createManualPortfolio N env userId startingBalance seeds db = .ok (p, db')) :
    SoundExcept N view db.tokens p ∅ db' := by
  unfold createManualPortfolio at hrun
  obtain ⟨⟨p', db₁⟩, hcreate, hrun⟩ := bind_eq_ok hrun
  obtain ⟨db₂, hseeds, hrun⟩ := bind_eq_ok hrun
  obtain ⟨db₃, hcommit, hrun⟩ := bind_eq_ok hrun
  cases hrun
  obtain ⟨rfl, portfolios, rfl, hrows⟩ := createPortfolio_ok hcreate
  have hfree : ∀ t ∈ db.transactions.rows, t.portfolioId ≠ db.portfolios.next := fun t ht =>
    (lt_next_of_isSome (hforeign.transactions t ht)).ne
  have hnew : portfolios.find? db.portfolios.next =
      some (manualPortfolio N userId startingBalance db.portfolios.next) := by
    apply SerialTable.find?_eq_some_iff.mpr
    rw [hrows]
    exact ⟨List.mem_append_right _ (List.mem_singleton_self _), rfl⟩
  have hempty : SoundExcept N view db.tokens db.portfolios.next ∅ { db with portfolios } :=
    { catalog := rfl
      manual := congrArg (Option.map Portfolio.type) hnew
      named := fun t ht hp => absurd hp (hfree t ht)
      coherent := fun a ha hp _ =>
        absurd hp (lt_next_of_isSome (hforeign.assets a ha)).ne }
  exact (hempty.seedAssets hnamed (fun _ t ht hp => absurd hp (hfree t ht)) hseeds).commit hcommit

/-- It stays coherent when another portfolio is created. -/
theorem createOther {p' : ℕ} (h : SoundExcept N view tokens p ∅ db) (hnamed : NamedTokens db)
    (hrun : createManualPortfolio N env userId startingBalance seeds db = .ok (p', db')) :
    SoundExcept N view tokens p ∅ db' := by
  unfold createManualPortfolio at hrun
  obtain ⟨⟨p'', db₁⟩, hcreate, hrun⟩ := bind_eq_ok hrun
  obtain ⟨db₂, hseeds, hrun⟩ := bind_eq_ok hrun
  obtain ⟨db₃, hcommit, hrun⟩ := bind_eq_ok hrun
  cases hrun
  obtain ⟨rfl, portfolios, rfl, hrows⟩ := createPortfolio_ok hcreate
  obtain ⟨portfolio, hfound⟩ : ∃ portfolio, db.findPortfolioById p = some portfolio := by
    have hmanual := h.manual
    cases hfind : db.findPortfolioById p with
    | none => simp [hfind] at hmanual
    | some portfolio => exact ⟨portfolio, rfl⟩
  have hlt : p < db.portfolios.next := lt_next_of_isSome (by rw [hfound]; rfl)
  have hkept : portfolios.find? p = some portfolio := by
    obtain ⟨hmem, hid⟩ := SerialTable.find?_eq_some_iff.mp hfound
    apply SerialTable.find?_eq_some_iff.mpr
    rw [hrows]
    exact ⟨List.mem_append_left _ hmem, hid⟩
  have hcreated : SoundExcept N view tokens p ∅ { db with portfolios } :=
    { catalog := h.catalog
      manual := by
        show (portfolios.find? p).map Portfolio.type = _
        rw [hkept, ← h.manual, hfound]
      named := h.named
      coherent := h.coherent }
  exact (hcreated.seedAssets hnamed (fun hp => absurd hp hlt.ne') hseeds).commit hcommit

end SoundExcept

/-! ## Histories -/

/-- A state in a history of the manual portfolio `p` in which no trade is moved past another
without recalculating. -/
inductive Since (N : Numeric) (js : Js) (p : ℕ) : Db → Prop
  | created {env : Env} {userId : ℕ} {startingBalance : Option DecimalStr}
      {seeds : List SeedAsset} {db db' : Db} :
      ForeignKeys db → NamedTokens db →
      createManualPortfolio N env userId startingBalance seeds db = .ok (p, db') →
      Since N js p db'
  | request {r : Request} {db db' : Db} :
      Since N js p db → Guarded (Step N js) (fun s r => r.KeepsTradeOrder s) db r db' →
      Since N js p db'
  | createdOther {env : Env} {userId p' : ℕ} {startingBalance : Option DecimalStr}
      {seeds : List SeedAsset} {db db' : Db} :
      Since N js p db →
      createManualPortfolio N env userId startingBalance seeds db = .ok (p', db') →
      Since N js p db'

namespace Since

variable {N : Numeric} {js : Js} {p : ℕ} {db : Db}

/-- The columns that no PATCH writes directly are coherent in every state of a history. -/
theorem sound {β : Type} {view : Derived → β}
    (hview : ∀ d value, view { d with netDeposit := value } = view d) (h : Since N js p db) :
    SoundExcept N view db.tokens p ∅ db ∧ NamedTokens db := by
  induction h with
  | created hforeign hnamed hcreate =>
      have hsound := @SoundExcept.create _ _ view _ _ _ _ _ _ _ hforeign hnamed hcreate
      exact ⟨hsound.catalog ▸ hsound, hnamed.of_eq hsound.catalog⟩
  | request _ hstep ih =>
      have hsound := ih.1.request (.inr hview) hstep.2 hstep.1
      exact ⟨hsound.catalog ▸ hsound, ih.2.of_eq hsound.catalog⟩
  | createdOther _ hcreate ih =>
      have hsound := ih.1.createOther ih.2 hcreate
      exact ⟨hsound.catalog ▸ hsound, ih.2.of_eq hsound.catalog⟩

theorem run {requests : List Request} {db' : Db} (h : Since N js p db)
    (hrun : Run (Guarded (Step N js) fun s r => r.KeepsTradeOrder s) db requests db') :
    Since N js p db' :=
  hrun.invariant (fun _ _ _ hs hstep => hs.request hstep) h

/-- A closed property that rows of other portfolios have trivially holds in every state. -/
theorem allRows {P : TransactionData → Prop} (hP : RowClosed N P)
    (hother : ∀ t : TransactionData, t.portfolioId ≠ p → P t) (h : Since N js p db) :
    AllRows P db := by
  induction h with
  | @created env userId startingBalance seeds db db' hforeign _ hcreate =>
      refine AllRows.createManualPortfolio hP (fun t ht => hother _ fun hp => ?_) hcreate
      have hlt := lt_next_of_isSome (hforeign.transactions t ht)
      unfold createManualPortfolio at hcreate
      obtain ⟨⟨p', db₁⟩, hnew, hcreate⟩ := bind_eq_ok hcreate
      obtain ⟨db₂, -, hcreate⟩ := bind_eq_ok hcreate
      obtain ⟨db₃, -, hcreate⟩ := bind_eq_ok hcreate
      cases hcreate
      rw [hp, (createPortfolio_ok hnew).1] at hlt
      exact lt_irrefl _ hlt
  | request _ hstep ih => exact ih.request hP hstep.1
  | createdOther _ hcreate ih => exact ih.createManualPortfolio hP hcreate

end Since

end Neonfi.Ledger

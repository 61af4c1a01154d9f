import Neonfi.Ledger.Frame

/-!
# The stored columns are the replay

Every asset of a manual portfolio stores the totals of its own history.  A statement of a
write transaction may leave some assets behind; the operations recalculate exactly those.
The invariant is therefore carried with the set of assets that are stale at the moment.
-/

namespace Neonfi.Ledger

open Lib

/-- A view of the asset's derived columns is that of the replay of its opening lot and its
events. -/
def Asset.CoherentOn {β : Type} (view : Derived → β) (N : Numeric) (db : Db) (a : Asset) : Prop :=
  ∃ token, db.findTokenById a.tokenId = some token ∧
    view a.derived = view ((replay a (ledgerEvents db a.portfolioId token.symbol)).stored N)

/-- All five columns are those of the replay. -/
def Asset.Coherent (N : Numeric) (db : Db) (a : Asset) : Prop := a.CoherentOn id N db

/-- The asset named by `key` counts the transaction. -/
def TransactionData.Touches (t : TransactionData) (tokens : TokenTable) (key : ℕ × ℕ) : Prop :=
  ∃ token, tokens.find? key.2 = some token ∧ t.Concerns key.1 token.symbol

/-- Portfolio `p` is a manual portfolio with named transactions, and each of its assets
outside `stale` is coherent on the view; the catalog is `tokens`. -/
structure SoundExcept {β : Type} (N : Numeric) (view : Derived → β) (tokens : TokenTable)
    (p : ℕ) (stale : Set (ℕ × ℕ)) (db : Db) : Prop where
  catalog : db.tokens = tokens
  manual : (db.findPortfolioById p).map Portfolio.type = some .manual
  named : ∀ t ∈ db.transactions.rows, t.portfolioId = p → t.symbol? ≠ some ""
  coherent : ∀ a ∈ db.assets.rows, a.portfolioId = p → a.key ∉ stale → a.CoherentOn view N db

/-! ## Touched assets -/

theorem touches_iff {db : Db} {t : TransactionData} {symbol : String} {token : Token}
    {key : ℕ × ℕ} (hsymbol : t.symbol? = some symbol)
    (htoken : db.findTokenBySymbol symbol = some token) :
    t.Touches db.tokens key ↔ key = (t.portfolioId, token.id) := by
  constructor
  · rintro ⟨token', hid, hportfolio, hsymbol'⟩
    have hsame : token'.symbol = symbol := by
      rw [hsymbol] at hsymbol'
      exact (Option.some.inj hsymbol').symm
    have hfound := @findTokenBySymbol_of_id db _ _ hid
    rw [hsame, htoken] at hfound
    have htoken' : token = token' := Option.some.inj hfound
    subst htoken'
    exact Prod.ext hportfolio.symm (@id_of_findTokenById db _ _ hid).symm
  · rintro rfl
    refine ⟨token, findTokenById_of_symbol htoken, rfl, ?_⟩
    rw [hsymbol, (findTokenBySymbol_eq htoken).2]

/-- A row under a name touches only the asset the code looks up for it. -/
theorem recalcTarget_of_touches {db : Db} {t : Transaction} {key : ℕ × ℕ}
    (hname : t.symbol? ≠ some "") (h : t.Touches db.tokens key) :
    recalcTarget? db t = some key := by
  obtain ⟨token, hid, hportfolio, hsymbol⟩ := h
  have hne : token.symbol ≠ "" := fun hempty => hname (hempty ▸ hsymbol)
  have hid' := @id_of_findTokenById db _ _ hid
  unfold recalcTarget? Db.findNamedToken
  rw [hsymbol]
  simp only [hne, if_false, @findTokenBySymbol_of_id db _ _ hid, Option.map_some,
    hportfolio, hid']

theorem touches_key {tokens : TokenTable} {t : TransactionData} {a : Asset} {token : Token}
    {p : ℕ} (hp : a.portfolioId = p) (htoken : tokens.find? a.tokenId = some token)
    (h : t.Concerns p token.symbol) : t.Touches tokens a.key := by
  refine ⟨token, htoken, ?_⟩
  subst hp
  exact h

theorem utf16Length_empty : utf16Length "" = 0 := by
  simp [utf16Length]

theorem symbolStr_ne_empty (symbol : SymbolStr) : symbol.val ≠ "" := by
  intro hempty
  have h := symbol.property.1
  rw [hempty, utf16Length_empty] at h
  omega

/-! ## Statements -/

namespace SoundExcept

variable {β : Type} {N : Numeric} {view : Derived → β} {tokens : TokenTable} {p : ℕ}
variable {stale : Set (ℕ × ℕ)} {db db' : Db}

theorem mono {stale' : Set (ℕ × ℕ)} (h : SoundExcept N view tokens p stale db)
    (hsub : ∀ key, key ∈ stale → key.1 = p → key ∈ stale') : SoundExcept N view tokens p stale' db
        where
  catalog := h.catalog
  manual := h.manual
  named := h.named
  coherent a ha hp hstale := h.coherent a ha hp fun hmem => hstale (hsub _ hmem hp)

/-- Rewriting transactions leaves an asset coherent when its replay is what it was. -/
theorem of_transactions {transactions : TransactionTable} (h : SoundExcept N view tokens p stale db)
    (hnamed : ∀ t ∈ transactions.rows, t.portfolioId = p → t.symbol? ≠ some "")
    (hreplay : ∀ a ∈ db.assets.rows, a.portfolioId = p → a.key ∉ stale → ∀ token,
      tokens.find? a.tokenId = some token →
      replay a (ledgerEvents { db with transactions } p token.symbol) =
        replay a (ledgerEvents db p token.symbol)) :
    SoundExcept N view tokens p stale { db with transactions } where
  catalog := h.catalog
  manual := h.manual
  named := hnamed
  coherent a ha hp hstale := by
    obtain ⟨token, htoken, hderived⟩ := h.coherent a ha hp hstale
    refine ⟨token, htoken, ?_⟩
    have heq := hreplay a ha hp hstale token (h.catalog ▸ htoken)
    subst hp
    rw [heq]
    exact hderived

theorem insertRow {data : TransactionData} (h : SoundExcept N view tokens p stale db)
    (hrow : db.createTransactionRow data = .ok db') (hname : data.symbol? ≠ some "")
    (htouch : ∀ key, key.1 = p → data.Touches tokens key → key ∈ stale) : SoundExcept N view tokens
        p stale db' := by
  obtain ⟨transactions, rfl, hrows⟩ := createTransactionRow_ok hrow
  apply h.of_transactions
  · intro t ht hp
    rw [hrows] at ht
    rcases List.mem_append.mp ht with ht | ht
    · exact h.named t ht hp
    · rw [List.mem_singleton.mp ht]
      exact hname
  · intro a ha hp hstale token htoken
    have hfree : ¬ data.Concerns p token.symbol := by
      intro hconcerns
      exact hstale (htouch a.key hp (touches_key hp htoken hconcerns))
    rw [ledgerEvents_congr]
    show eventRows transactions.rows p token.symbol = _
    rw [hrows]
    exact eventRows_concat hfree

theorem deleteRow {txId : ℕ} (h : SoundExcept N view tokens p stale db)
    (htouch : ∀ t ∈ db.transactions.rows, t.id = txId → ∀ key, key.1 = p →
      t.Touches tokens key → key ∈ stale) :
    SoundExcept N view tokens p stale (db.deleteTransactionRow txId) := by
  apply h.of_transactions
  · intro t ht hp
    exact h.named t (List.mem_of_mem_filter ht) hp
  · intro a ha hp hstale token htoken
    rw [ledgerEvents_congr]
    apply eventRows_filter
    intro t ht hkeep hconcerns
    have hid : t.id = txId := by simpa using hkeep
    exact hstale (htouch t ht hid a.key hp (touches_key hp htoken hconcerns))

theorem patchRow {txId : ℕ} {f : Transaction → Transaction} {hid : ∀ t, (f t).id = t.id}
    {hkey : ∀ t, (f t).hashKey = t.hashKey} (h : SoundExcept N view tokens p stale db)
    (hname : ∀ t ∈ db.transactions.rows, t.id = txId → (f t).portfolioId = p →
      (f t).symbol? ≠ some "")
    (htouch : ∀ t ∈ db.transactions.rows, t.id = txId → ∀ key, key.1 = p →
      t.Touches tokens key ∨ (f t).Touches tokens key → key ∈ stale) :
    SoundExcept N view tokens p stale (db.updateTransactionRow txId f hid hkey) := by
  apply h.of_transactions
  · intro t ht hp
    obtain ⟨s, hs, rfl⟩ := List.mem_map.mp ht
    by_cases htx : s.id = txId
    · simp only [htx, if_true] at hp ⊢
      exact hname s hs htx hp
    · simp only [htx, if_false] at hp ⊢
      exact h.named s hs hp
  · intro a ha hp hstale token htoken
    rw [ledgerEvents_congr]
    apply eventRows_map
    intro t ht
    by_cases htx : t.id = txId
    · rw [if_pos htx]
      refine .inr ⟨fun hconcerns => ?_, fun hconcerns => ?_⟩
      · exact hstale (htouch t ht htx a.key hp (.inl (touches_key hp htoken hconcerns)))
      · exact hstale (htouch t ht htx a.key hp (.inr (touches_key hp htoken hconcerns)))
    · exact .inl (if_neg htx)

theorem createAsset {a : Asset} (h : SoundExcept N view tokens p stale db)
    (hcreate : db.createAsset a = .ok db') (hmem : a.key ∈ stale) :
    SoundExcept N view tokens p stale db' := by
  obtain ⟨assets, rfl, hrows, -⟩ := createAsset_ok hcreate
  refine ⟨h.catalog, h.manual, h.named, fun b hb hp hstale => ?_⟩
  change b ∈ assets.rows at hb
  rw [hrows] at hb
  rcases List.mem_append.mp hb with hb | hb
  · exact h.coherent b hb hp hstale
  · rw [List.mem_singleton.mp hb] at hstale
    exact absurd hmem hstale

theorem createIfNeeded {needed : Bool} {portfolioId tokenId : ℕ}
    (h : SoundExcept N view tokens p stale db)
    (hcreate : Ledger.createIfNeeded needed portfolioId tokenId db = .ok db')
    (hmem : (portfolioId, tokenId) ∈ stale) : SoundExcept N view tokens p stale db' := by
  rcases createIfNeeded_ok hcreate with rfl | hcreate
  · exact h
  · exact h.createAsset hcreate hmem

theorem updateAssetRow {portfolioId tokenId : ℕ} {f : Asset → Asset}
    {hf : ∀ a, (f a).key = a.key} (h : SoundExcept N view tokens p stale db)
    (hmem : (portfolioId, tokenId) ∈ stale) :
    SoundExcept N view tokens p stale (db.updateAssetRow portfolioId tokenId f hf) := by
  refine ⟨h.catalog, h.manual, h.named, fun b hb hp hstale => ?_⟩
  obtain ⟨a, ha, rfl⟩ := List.mem_map.mp hb
  by_cases hkey : a.key = (portfolioId, tokenId)
  · simp only [hkey, if_true] at hstale
    rw [hf, hkey] at hstale
    exact absurd hmem hstale
  · simp only [hkey, if_false] at hp hstale ⊢
    exact h.coherent a ha hp hstale

theorem deleteAsset {key : ℕ × ℕ} (h : SoundExcept N view tokens p stale db) :
    SoundExcept N view tokens p stale (db.deleteAsset key) :=
  ⟨h.catalog, h.manual, h.named, fun b hb => h.coherent b (List.mem_of_mem_filter hb)⟩

theorem setNetDeposit {portfolioId : ℕ} {netDeposit : ℚ} (h : SoundExcept N view tokens p stale db)
    :
    SoundExcept N view tokens p stale (db.setNetDeposit portfolioId netDeposit) := by
  refine ⟨h.catalog, ?_, h.named, h.coherent⟩
  have hfind := h.manual
  unfold Db.findPortfolioById Db.setNetDeposit at *
  rw [SerialTable.find?_modify, Option.map_map, ← hfind]
  congr 1
  funext portfolio
  simp only [Function.comp_apply]
  split <;> rfl

/-- Recalculating an asset whose token is in the catalog makes it coherent. -/
theorem recalc {portfolioId tokenId : ℕ} {token : Token}
    (h : SoundExcept N view tokens p (insert (portfolioId, tokenId) stale) db)
    (htoken : tokens.find? tokenId = some token) :
    SoundExcept N view tokens p stale (recalcAssetBalance N portfolioId tokenId db) := by
  obtain rfl := h.catalog
  unfold recalcAssetBalance
  split
  · next hconnected =>
      apply h.mono
      intro key hkey hp
      rcases Set.mem_insert_iff.mp hkey with rfl | hkey
      · change portfolioId = p at hp
        rw [hp, h.manual] at hconnected
        cases hconnected
      · exact hkey
  · rw [show db.findTokenById tokenId = some token from htoken]
    refine ⟨h.catalog, h.manual, h.named, fun b hb hp hstale => ?_⟩
    obtain ⟨a, ha, rfl⟩ := List.mem_map.mp hb
    by_cases hkey : a.key = (portfolioId, tokenId)
    · simp only [hkey, if_true] at hp hstale ⊢
      have hportfolio : a.portfolioId = portfolioId := congrArg Prod.fst hkey
      have htokenId : a.tokenId = tokenId := congrArg Prod.snd hkey
      refine ⟨token, ?_, ?_⟩
      · show db.tokens.find? a.tokenId = some token
        rw [htokenId, htoken]
      · rw [Asset.derived_setDerived]
        show view ((replay a (ledgerEvents db portfolioId token.symbol)).stored N) =
          view ((replay a (ledgerEvents db a.portfolioId token.symbol)).stored N)
        rw [hportfolio]
    · simp only [hkey, if_false] at hp hstale ⊢
      have hfresh : a.key ∉ insert (portfolioId, tokenId) stale := by
        rw [Set.mem_insert_iff]
        exact fun hmem => hmem.elim hkey hstale
      exact h.coherent a ha hp hfresh

/-- Recalculating an asset that may stay stale. -/
theorem recalcStale {portfolioId tokenId : ℕ} (h : SoundExcept N view tokens p stale db)
    (hmem : (portfolioId, tokenId) ∈ stale) :
    SoundExcept N view tokens p stale (recalcAssetBalance N portfolioId tokenId db) := by
  unfold recalcAssetBalance
  split
  · exact h
  · split
    · exact h
    · exact h.updateAssetRow hmem

theorem commit (h : SoundExcept N view tokens p stale db) (hcommit : db.commit N = .ok db') :
    SoundExcept N view tokens p stale db' := by
  rw [(commit_ok hcommit).1]
  exact h

end SoundExcept

end Neonfi.Ledger

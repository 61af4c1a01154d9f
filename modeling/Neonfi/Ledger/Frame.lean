import Neonfi.Ledger.Requests

/-!
# What the statements leave alone

One lemma per statement of a write transaction: which table it rewrites and how, and which
token's events it can change.
-/

namespace Neonfi.Ledger

open Lib

/-! ## Statements -/

theorem commit_ok {N : Numeric} {db db' : Db} (h : db.commit N = .ok db') :
    db' = db ∧ db.fits N := by
  unfold Db.commit at h
  split at h
  · next hfits =>
      cases h
      exact ⟨rfl, hfits⟩
  · cases h

theorem createAsset_ok {a : Asset} {db db' : Db} (h : db.createAsset a = .ok db') :
    ∃ assets : AssetTable, db' = { db with assets } ∧
      assets.rows = db.assets.rows ++ [a] ∧ db.assets.find? a.key = none := by
  unfold Db.createAsset at h
  split at h
  · next assets hinsert =>
      cases h
      have hrows := Table.rows_of_insert? hinsert
      exact ⟨assets, rfl, hrows.1, hrows.2⟩
  · cases h

theorem createPortfolio_ok {mk : ℕ → Portfolio} {hmk : ∀ n, (mk n).id = n} {p : ℕ} {db db' : Db}
    (h : db.createPortfolio mk hmk = .ok (p, db')) :
    p = db.portfolios.next ∧ ∃ portfolios : PortfolioTable, db' = { db with portfolios } ∧
      portfolios.rows = db.portfolios.rows ++ [mk p] := by
  unfold Db.createPortfolio at h
  split at h
  · next portfolios hinsert =>
      cases h
      exact ⟨rfl, portfolios, rfl, (SerialTable.of_insert? hinsert).1⟩
  · cases h

theorem createTransactionRow_ok {data : TransactionData} {db db' : Db}
    (h : db.createTransactionRow data = .ok db') :
    ∃ transactions : TransactionTable, db' = { db with transactions } ∧
      transactions.rows = db.transactions.rows ++ [⟨data, db.transactions.next⟩] := by
  unfold Db.createTransactionRow at h
  split at h
  · next transactions hinsert =>
      cases h
      exact ⟨transactions, rfl, (SerialTable.of_insert? hinsert).1⟩
  · cases h

theorem insertTransaction_ok {data : TransactionData} {db db' : Db}
    (h : insertTransaction data db = .ok db') : db.createTransactionRow data = .ok db' := by
  unfold insertTransaction at h
  split at h
  · next hrow =>
      cases h
      exact hrow
  · cases h

theorem createIfNeeded_ok {needed : Bool} {portfolioId tokenId : ℕ} {db db' : Db}
    (h : createIfNeeded needed portfolioId tokenId db = .ok db') :
    db' = db ∨ db.createAsset (emptyAsset portfolioId tokenId) = .ok db' := by
  unfold createIfNeeded at h
  split at h
  · exact .inr h
  · cases h
    exact .inl rfl

/-- A missing asset can be created. -/
theorem exists_createIfNeeded {needed : Bool} {portfolioId tokenId : ℕ} {db : Db}
    (h : needed = true → db.findAsset portfolioId tokenId = none) : ∃ assets : AssetTable,
      createIfNeeded needed portfolioId tokenId db = .ok { db with assets } := by
  unfold createIfNeeded
  split
  · next hneeded =>
      obtain ⟨assets, hinsert, -⟩ := Table.insert?_of_find?_eq_none
        (T := db.assets) (r := emptyAsset portfolioId tokenId) (h hneeded)
      refine ⟨assets, ?_⟩
      unfold Db.createAsset
      rw [hinsert]
  · exact ⟨db.assets, rfl⟩

/-! ## Shared checks -/

theorem assertManualPortfolio_ok {portfolio : Portfolio} {u : Unit}
    (h : assertManualPortfolio portfolio = .ok u) : portfolio.type = .manual := by
  have hne := ensure_ok h
  cases htype : portfolio.type with
  | manual => rfl
  | connected => exact absurd htype hne

theorem assertManualPortfolio_eq {portfolio : Portfolio} (h : portfolio.type = .manual) :
    assertManualPortfolio portfolio = .ok () := by
  unfold assertManualPortfolio ensure
  rw [h]
  rfl

theorem resolveToken_of_found {db : Db} {symbol : String} {token : Token}
    (h : db.findTokenBySymbol symbol = some token) : resolveToken db symbol = .ok token := by
  unfold resolveToken
  rw [h]
  rfl

/-! ## Tokens -/

theorem findTokenBySymbol_eq {db : Db} {symbol : String} {token : Token}
    (h : db.findTokenBySymbol symbol = some token) :
    token ∈ db.tokens.rows ∧ token.symbol = symbol := by
  have hfound := SerialTable.findUniq?_eq_some_iff.mp h
  exact ⟨hfound.1, by simpa using hfound.2⟩

theorem findTokenById_of_symbol {db : Db} {symbol : String} {token : Token}
    (h : db.findTokenBySymbol symbol = some token) : db.findTokenById token.id = some token :=
  SerialTable.find?_eq_some_iff.mpr ⟨(findTokenBySymbol_eq h).1, rfl⟩

theorem findTokenBySymbol_of_id {db : Db} {tokenId : ℕ} {token : Token}
    (h : db.findTokenById tokenId = some token) :
    db.findTokenBySymbol token.symbol = some token :=
  SerialTable.findUniq?_eq_some_iff.mpr ⟨(SerialTable.find?_eq_some_iff.mp h).1, rfl⟩

theorem id_of_findTokenById {db : Db} {tokenId : ℕ} {token : Token}
    (h : db.findTokenById tokenId = some token) : token.id = tokenId :=
  (SerialTable.find?_eq_some_iff.mp h).2

theorem computeUsdValue_entered {N : Numeric} {env : Env} {db : Db} {symbol : String}
    {amount price : ℚ} (h : 0 ≤ price) :
    computeUsdValue N env db symbol amount (some price) = N.fix (amount * price) := by
  have hentered : (some price).filter (fun price => decide (0 ≤ price)) = some price := by
    rw [Option.filter, if_pos (by simpa using h)]
  unfold computeUsdValue
  rw [hentered]
  rfl

/-! ## Events -/

/-- The row is a native or erc20 transaction of the token in the portfolio. -/
def TransactionData.Concerns (t : TransactionData) (portfolioId : ℕ) (symbol : String) : Prop :=
  t.portfolioId = portfolioId ∧ t.symbol? = some symbol

theorem eventOf_eq_none {t : Transaction} {portfolioId : ℕ} {symbol : String}
    (h : ¬ t.Concerns portfolioId symbol) :
    t.eventOf Detail.native? portfolioId symbol = none ∧
      t.eventOf Detail.erc20? portfolioId symbol = none := by
  unfold Transaction.eventOf
  by_cases hportfolio : t.portfolioId = portfolioId
  · rw [if_pos hportfolio, if_pos hportfolio]
    have hsymbol : t.symbol? ≠ some symbol := fun hs => h ⟨hportfolio, hs⟩
    unfold TransactionData.symbol? at hsymbol
    cases hdetail : t.detail with
    | native d =>
        have hne : ¬ d.symbol = symbol := by simpa [hdetail, Detail.trade?] using hsymbol
        simp [Detail.native?, Detail.erc20?, TransactionData.event?, hne]
    | erc20 d info =>
        have hne : ¬ d.symbol = symbol := by simpa [hdetail, Detail.trade?] using hsymbol
        simp [Detail.native?, Detail.erc20?, TransactionData.event?, hne]
    | nft d => simp [Detail.native?, Detail.erc20?, TransactionData.event?]
  · rw [if_neg hportfolio, if_neg hportfolio]
    exact ⟨rfl, rfl⟩

theorem eventRows_concat {rows : List Transaction} {t : Transaction} {portfolioId : ℕ}
    {symbol : String} (h : ¬ t.Concerns portfolioId symbol) :
    eventRows (rows ++ [t]) portfolioId symbol = eventRows rows portfolioId symbol := by
  have hnone := eventOf_eq_none h
  unfold eventRows
  rw [List.filterMap_append, List.filterMap_append]
  simp [hnone.1, hnone.2]

theorem filterMap_filter_of_none {α β : Type} {f : α → Option β} {keep : α → Bool}
    {xs : List α} (h : ∀ x ∈ xs, keep x = false → f x = none) :
    (xs.filter keep).filterMap f = xs.filterMap f := by
  induction xs with
  | nil => rfl
  | cons x xs ih =>
      have htail := ih fun y hy => h y (List.mem_cons_of_mem x hy)
      by_cases hkeep : keep x
      · rw [List.filter_cons_of_pos hkeep, List.filterMap_cons, List.filterMap_cons, htail]
      · have hnone := h x List.mem_cons_self (by simpa using hkeep)
        rw [List.filter_cons_of_neg hkeep, List.filterMap_cons, hnone]
        exact htail

theorem eventRows_filter {rows : List Transaction} {keep : Transaction → Bool}
    {portfolioId : ℕ} {symbol : String}
    (h : ∀ t ∈ rows, keep t = false → ¬ t.Concerns portfolioId symbol) :
    eventRows (rows.filter keep) portfolioId symbol = eventRows rows portfolioId symbol := by
  unfold eventRows
  rw [filterMap_filter_of_none fun t ht hkeep => (eventOf_eq_none (h t ht hkeep)).1,
    filterMap_filter_of_none fun t ht hkeep => (eventOf_eq_none (h t ht hkeep)).2]

theorem eventRows_map {rows : List Transaction} {f : Transaction → Transaction}
    {portfolioId : ℕ} {symbol : String}
    (h : ∀ t ∈ rows, f t = t ∨
      ¬ t.Concerns portfolioId symbol ∧ ¬ (f t).Concerns portfolioId symbol) :
    eventRows (rows.map f) portfolioId symbol = eventRows rows portfolioId symbol := by
  have hone : ∀ detail? ∈ [Detail.native?, Detail.erc20?],
      (rows.map f).filterMap (Transaction.eventOf detail? portfolioId symbol) =
        rows.filterMap (Transaction.eventOf detail? portfolioId symbol) := by
    intro detail? hdetail
    rw [List.filterMap_map]
    apply List.filterMap_congr
    intro t ht
    rcases h t ht with heq | ⟨hbefore, hafter⟩
    · rw [Function.comp_apply, heq]
    · have hb := eventOf_eq_none hbefore
      have ha := eventOf_eq_none hafter
      rw [Function.comp_apply]
      rcases List.mem_pair.mp hdetail with rfl | rfl
      · rw [ha.1, hb.1]
      · rw [ha.2, hb.2]
  unfold eventRows
  rw [hone _ (by simp), hone _ (by simp)]

theorem ledgerEvents_congr {db db' : Db} {portfolioId : ℕ} {symbol : String}
    (h : eventRows db'.transactions.rows portfolioId symbol =
      eventRows db.transactions.rows portfolioId symbol) :
    ledgerEvents db' portfolioId symbol = ledgerEvents db portfolioId symbol := by
  unfold ledgerEvents
  rw [h]

end Neonfi.Ledger

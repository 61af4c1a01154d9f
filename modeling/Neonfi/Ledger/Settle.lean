import Neonfi.Ledger.Coherence
import Neonfi.Ledger.Order

/-!
# Settling many rows at once

Recalculating a list of tokens and then the portfolio total writes each column from the
opening lots and the transactions alone.  So it does not matter whether
the rows of an import are settled one by one or all together at the end.
-/

namespace Neonfi.Ledger

open Lib

/-- Recalculate each token, then the portfolio total. -/
def settle (N : Numeric) (portfolioId : ℕ) (tokenIds : List ℕ) (db : Db) : Db :=
  recalcPortfolioNetDeposit N portfolioId
    (tokenIds.foldl (fun db tokenId => recalcAssetBalance N portfolioId tokenId db) db)

/-- An asset after the recalculation of some tokens of a portfolio. -/
def recalced (N : Numeric) (p : ℕ) (db : Db) (tokenIds : List ℕ) (a : Asset) : Asset :=
  match db.findTokenById a.tokenId with
  | none => a
  | some token =>
      if a.portfolioId = p ∧ a.tokenId ∈ tokenIds then
        a.setDerived ((replay a (ledgerEvents db p token.symbol)).stored N)
      else a

section

variable {N : Numeric} {p : ℕ} {db db' : Db}

@[simp] theorem key_recalced {tokenIds : List ℕ} {a : Asset} :
    (recalced N p db tokenIds a).key = a.key := by
  unfold recalced
  split
  · rfl
  · split <;> rfl

theorem recalced_of_notMem {tokenIds : List ℕ} {a : Asset}
    (h : ¬ (a.portfolioId = p ∧ a.tokenId ∈ tokenIds)) : recalced N p db tokenIds a = a := by
  unfold recalced
  split
  · rfl
  · exact if_neg h

theorem recalced_of_mem {tokenIds : List ℕ} {a : Asset} {token : Token}
    (htoken : db.findTokenById a.tokenId = some token) (hp : a.portfolioId = p)
    (hmem : a.tokenId ∈ tokenIds) :
    recalced N p db tokenIds a =
      a.setDerived ((replay a (ledgerEvents db p token.symbol)).stored N) := by
  unfold recalced
  rw [htoken]
  exact if_pos ⟨hp, hmem⟩

theorem recalced_congr {tokenIds : List ℕ} {a : Asset} (htokens : db'.tokens = db.tokens)
    (htransactions : db'.transactions = db.transactions) :
    recalced N p db' tokenIds a = recalced N p db tokenIds a := by
  unfold recalced Db.findTokenById ledgerEvents
  rw [htokens, htransactions]

/-- Recalculation reads an asset's opening lot, which it never writes. -/
theorem recalced_recalced {tokenIds newIds : List ℕ} {a : Asset}
    (htokens : db'.tokens = db.tokens)
    (hevents : ∀ token, a.tokenId ∉ newIds → a.tokenId ∈ tokenIds →
      db.findTokenById a.tokenId = some token →
      ledgerEvents db' p token.symbol = ledgerEvents db p token.symbol) :
    recalced N p db' newIds (recalced N p db tokenIds a) =
      recalced N p db' (tokenIds ++ newIds) a := by
  have hfind : db'.findTokenById a.tokenId = db.findTokenById a.tokenId := by
    unfold Db.findTokenById
    rw [htokens]
  cases htoken : db.findTokenById a.tokenId with
  | none =>
      have hone : ∀ {d : Db} {ids : List ℕ}, d.findTokenById a.tokenId = none →
          recalced N p d ids a = a := by
        intro d ids hnone
        unfold recalced
        rw [hnone]
      rw [hone htoken, hone (hfind.trans htoken), hone (hfind.trans htoken)]
  | some token =>
      by_cases hp : a.portfolioId = p
      · by_cases hnew : a.tokenId ∈ newIds
        · rw [recalced_of_mem (hfind.trans htoken) hp (List.mem_append_right _ hnew)]
          by_cases hold : a.tokenId ∈ tokenIds
          · rw [recalced_of_mem htoken hp hold,
              recalced_of_mem (a := a.setDerived _) (hfind.trans htoken) hp hnew]
            rfl
          · rw [recalced_of_notMem fun h => hold h.2,
              recalced_of_mem (hfind.trans htoken) hp hnew]
        · by_cases hold : a.tokenId ∈ tokenIds
          · rw [recalced_of_mem htoken hp hold,
              recalced_of_mem (hfind.trans htoken) hp (List.mem_append_left _ hold),
              recalced_of_notMem (a := a.setDerived _) fun h => hnew h.2,
              hevents token hnew hold htoken]
          · rw [recalced_of_notMem fun h => hold h.2, recalced_of_notMem fun h => hnew h.2,
              recalced_of_notMem fun h => (List.mem_append.mp h.2).elim hold hnew]
      · have hkeep : ∀ {d : Db} {ids : List ℕ}, recalced N p d ids a = a :=
          recalced_of_notMem fun h => hp h.1
        rw [hkeep, hkeep, hkeep]

/-! ## The rows that a settlement writes -/

theorem recalcAssetBalance_rows
    (hmanual : (db.findPortfolioById p).map Portfolio.type ≠ some .connected) (tokenId : ℕ) :
    (recalcAssetBalance N p tokenId db).assets.rows =
      db.assets.rows.map (recalced N p db [tokenId]) := by
  unfold recalcAssetBalance
  rw [if_neg hmanual]
  cases htoken : db.findTokenById tokenId with
  | none =>
      have hkeep : ∀ a ∈ db.assets.rows, recalced N p db [tokenId] a = a := by
        intro a _
        by_cases hid : a.tokenId = tokenId
        · unfold recalced
          rw [hid, htoken]
        · exact recalced_of_notMem fun h => hid (List.mem_singleton.mp h.2)
      rw [List.map_congr_left hkeep, List.map_id']
  | some token =>
      apply List.map_congr_left
      intro a _
      by_cases hkey : a.key = (p, tokenId)
      · have hp : a.portfolioId = p := congrArg Prod.fst hkey
        have hid : a.tokenId = tokenId := congrArg Prod.snd hkey
        rw [if_pos hkey, recalced_of_mem (hid ▸ htoken) hp (by simp [hid])]
      · rw [if_neg hkey, recalced_of_notMem]
        rintro ⟨hp, hid⟩
        exact hkey (Prod.ext hp (List.mem_singleton.mp hid))

theorem recalcAssetBalance_frame {tokenId : ℕ} :
    (recalcAssetBalance N p tokenId db).tokens = db.tokens ∧
      (recalcAssetBalance N p tokenId db).portfolios = db.portfolios ∧
      (recalcAssetBalance N p tokenId db).transactions = db.transactions := by
  unfold recalcAssetBalance
  split
  · exact ⟨rfl, rfl, rfl⟩
  · split
    · exact ⟨rfl, rfl, rfl⟩
    · exact ⟨rfl, rfl, rfl⟩

/-- One state shows what the other shows once some tokens are recalculated; the total of
the portfolio may differ. -/
structure Mirrors (N : Numeric) (p : ℕ) (tokenIds : List ℕ) (db db' : Db) : Prop where
  tokens : db'.tokens = db.tokens
  transactions : db'.transactions = db.transactions
  assets : db'.assets.rows = db.assets.rows.map (recalced N p db tokenIds)
  portfolios : ∀ total, (db'.setNetDeposit p total).portfolios =
    (db.setNetDeposit p total).portfolios

namespace Mirrors

variable {tokenIds : List ℕ}

theorem refl : Mirrors N p [] db db where
  tokens := rfl
  transactions := rfl
  assets := by
    have hkeep : ∀ a ∈ db.assets.rows, recalced N p db [] a = a := fun a _ =>
      recalced_of_notMem fun h => List.not_mem_nil h.2
    rw [List.map_congr_left hkeep, List.map_id']
  portfolios _ := rfl

/-- Only which tokens are recalculated matters. -/
theorem congr (h : Mirrors N p tokenIds db db') {tokenIds' : List ℕ}
    (hsame : ∀ t, t ∈ tokenIds' ↔ t ∈ tokenIds) : Mirrors N p tokenIds' db db' where
  tokens := h.tokens
  transactions := h.transactions
  assets := by
    rw [h.assets]
    apply List.map_congr_left
    intro a _
    unfold recalced
    simp only [hsame]
  portfolios := h.portfolios

theorem events (h : Mirrors N p tokenIds db db') (portfolioId : ℕ) (symbol : String) :
    ledgerEvents db' portfolioId symbol = ledgerEvents db portfolioId symbol := by
  apply ledgerEvents_congr
  rw [h.transactions]

/-- The type of the portfolio is the same on both sides. -/
theorem type_eq (h : Mirrors N p tokenIds db db') :
    (db'.findPortfolioById p).map Portfolio.type =
      (db.findPortfolioById p).map Portfolio.type := by
  have htype : ∀ d : Db, (d.findPortfolioById p).map Portfolio.type =
      ((d.setNetDeposit p 0).findPortfolioById p).map Portfolio.type := by
    intro d
    unfold Db.setNetDeposit Db.findPortfolioById
    rw [SerialTable.find?_modify, Option.map_map]
    congr 1
    funext portfolio
    simp only [Function.comp_apply]
    split <;> rfl
  rw [htype db', htype db]
  unfold Db.findPortfolioById
  rw [h.portfolios 0]

/-- One more token is recalculated. -/
theorem recalc (h : Mirrors N p tokenIds db db') {tokenId : ℕ}
    (hmanual : (db.findPortfolioById p).map Portfolio.type ≠ some .connected) :
    Mirrors N p (tokenIds ++ [tokenId]) db (recalcAssetBalance N p tokenId db') := by
  obtain ⟨htokens, hportfolios, htransactions⟩ :=
    @recalcAssetBalance_frame N p db' tokenId
  refine ⟨htokens.trans h.tokens, htransactions.trans h.transactions, ?_, fun total => ?_⟩
  · rw [recalcAssetBalance_rows (by rw [h.type_eq]; exact hmanual), h.assets, List.map_map]
    apply List.map_congr_left
    intro a _
    rw [Function.comp_apply, recalced_recalced h.tokens fun token _ _ _ => h.events p _]
    exact recalced_congr h.tokens h.transactions
  · rw [← h.portfolios total]
    unfold Db.setNetDeposit
    simp only [hportfolios]

theorem recalcList (h : Mirrors N p tokenIds db db') {newIds : List ℕ}
    (hmanual : (db.findPortfolioById p).map Portfolio.type ≠ some .connected) :
    Mirrors N p (tokenIds ++ newIds) db
      (newIds.foldl (fun db tokenId => recalcAssetBalance N p tokenId db) db') := by
  induction newIds generalizing tokenIds db' with
  | nil => simpa using h
  | cons tokenId newIds ih =>
      have hstep := ih (@Mirrors.recalc _ _ _ _ _ h tokenId hmanual)
      rwa [List.append_assoc, List.singleton_append] at hstep

theorem total (h : Mirrors N p tokenIds db db') :
    Mirrors N p tokenIds db (recalcPortfolioNetDeposit N p db') where
  tokens := h.tokens
  transactions := h.transactions
  assets := h.assets
  portfolios total := by
    rw [← h.portfolios total]
    apply SerialTable.ext
    · show (db'.portfolios.rows.map _).map _ = db'.portfolios.rows.map _
      rw [List.map_map]
      apply List.map_congr_left
      intro portfolio _
      simp only [Function.comp_apply]
      by_cases hp : portfolio.id = p
      · simp [hp]
      · simp [hp]
    · rfl

theorem findAsset_isSome (h : Mirrors N p tokenIds db db') (portfolioId tokenId : ℕ) :
    (db'.findAsset portfolioId tokenId).isSome = (db.findAsset portfolioId tokenId).isSome := by
  have hmap : db'.findAsset portfolioId tokenId =
      (db.findAsset portfolioId tokenId).map (recalced N p db tokenIds) := by
    have htable : db'.assets =
        db.assets.modify (recalced N p db tokenIds) fun _ => key_recalced :=
      Table.ext h.assets
    unfold Db.findAsset
    rw [htable, Table.find?_modify]
  rw [hmap, Option.isSome_map]

/-- An asset row that can be created on one side can be created on the other. -/
theorem createIfNeeded {needed : Bool} {tokenId : ℕ} {db₁ : Db}
    (h : Mirrors N p tokenIds db db')
    (hcreate : Ledger.createIfNeeded needed p tokenId db' = .ok db₁) :
    ∃ db₂ new, Ledger.createIfNeeded needed p tokenId db = .ok db₂ ∧
      (∀ a ∈ new, a.portfolioId = p ∧ a.tokenId = tokenId) ∧
      (∃ assets : AssetTable, db₁ = { db' with assets } ∧ assets.rows = db'.assets.rows ++ new) ∧
      ∃ assets : AssetTable, db₂ = { db with assets } ∧ assets.rows = db.assets.rows ++ new := by
  unfold Ledger.createIfNeeded at *
  cases needed with
  | false =>
      cases hcreate
      exact ⟨db, [], rfl, fun a ha => absurd ha List.not_mem_nil,
        ⟨db'.assets, rfl, (List.append_nil _).symm⟩, ⟨db.assets, rfl, (List.append_nil _).symm⟩⟩
  | true =>
      obtain ⟨assets, hassets, hrows, hfree⟩ := createAsset_ok hcreate
      have hfree' : db.assets.find? (emptyAsset p tokenId).key = none := by
        have hsome := h.findAsset_isSome p tokenId
        rw [show db'.findAsset p tokenId = none from hfree, Option.isSome_none] at hsome
        exact Option.isNone_iff_eq_none.mp (Option.isSome_eq_false_iff.mp hsome.symm)
      obtain ⟨assets', hinsert', hrows'⟩ := Table.insert?_of_find?_eq_none hfree'
      refine ⟨{ db with assets := assets' }, [emptyAsset p tokenId], ?_, fun a ha => ?_,
        ⟨assets, hassets, hrows⟩, ⟨assets', rfl, hrows'⟩⟩
      · show db.createAsset _ = _
        unfold Db.createAsset
        rw [hinsert']
      · rw [List.mem_singleton.mp ha]
        exact ⟨rfl, rfl⟩

/-- A row inserted on both sides is mirrored once its token is recalculated. -/
theorem insert {db₁ : Db} {r : PreparedTxRow} {trade : TradeFields} {token : Token}
    (h : Mirrors N p tokenIds db db') (hmanual : (db.findPortfolioById p).map Portfolio.type ≠
      some .connected)
    (hpayload : r.body.payload = .native trade)
    (htoken : db.findTokenBySymbol trade.symbol = some token) (hid : r.tokenId = token.id)
    (hinsert : insertPrepared N p db' r = .ok db₁) :
    ∃ db₂, insertPrepared N p db r = .ok db₂ ∧ db₂.tokens = db.tokens ∧
      db₂.portfolios = db.portfolios ∧
      Mirrors N p (tokenIds ++ [r.tokenId]) db₂ (recalcAssetBalance N p r.tokenId db₁) := by
  unfold insertPrepared at *
  obtain ⟨db₁', hcreate, hrow⟩ := bind_eq_ok hinsert
  obtain ⟨db₂', new, hcreate', hnew, ⟨assets₁, rfl, hrows₁⟩, ⟨assets₂, rfl, hrows₂⟩⟩ :=
    h.createIfNeeded hcreate
  obtain ⟨transactions, rfl, hrows⟩ := createTransactionRow_ok hrow
  refine ⟨{ db with assets := assets₂, transactions }, ?_, rfl, rfl, ?_⟩
  · rw [hcreate']
    show Db.createTransactionRow _ _ = _
    unfold Db.createTransactionRow at *
    rw [show ({ db' with assets := assets₁ } : Db).transactions = db.transactions from
      h.transactions] at hrow
    split at hrow
    · next transactions' hinsert' =>
        have hsame : transactions' = transactions := congrArg Db.transactions (Except.ok.inj hrow)
        rw [show ({ db with assets := assets₂ } : Db).transactions.insert? _ _ =
          some transactions' from hinsert', hsame]
    · cases hrow
  · have hother : ∀ (a : Asset) token', a.tokenId ∉ [r.tokenId] → db.findTokenById a.tokenId = some
      token' →
        ledgerEvents { db' with assets := assets₁, transactions } p token'.symbol =
          ledgerEvents db p token'.symbol := by
      intro a token' hne htoken'
      refine (ledgerEvents_createTransactionRow_of_ne hrow fun hconcerns => ?_).trans
        (h.events p token'.symbol)
      have hsymbol : token'.symbol = trade.symbol := by
        have hsym := hconcerns.2
        simp only [CreateTransactionBody.row, TransactionData.symbol?, hpayload, Detail.trade?,
          TradeFields.stored, Option.map_some, Option.some.injEq] at hsym
        exact hsym.symm
      have hfound := findTokenBySymbol_of_id htoken'
      rw [hsymbol, htoken] at hfound
      cases hfound
      exact hne (List.mem_singleton.mpr ((id_of_findTokenById htoken').symm.trans hid.symm))
    have hmanual' : (({ db' with assets := assets₁, transactions } : Db).findPortfolioById p).map
        Portfolio.type ≠ some .connected := by
      rw [← h.type_eq] at hmanual
      exact hmanual
    obtain ⟨htokens, hportfolios, htransactions⟩ := @recalcAssetBalance_frame N p
        { db' with assets := assets₁, transactions } r.tokenId
    refine ⟨htokens.trans h.tokens, htransactions, ?_, fun total => ?_⟩
    · rw [recalcAssetBalance_rows hmanual']
      show assets₁.rows.map _ = assets₂.rows.map _
      rw [hrows₁, hrows₂, h.assets, List.map_append, List.map_append, List.map_map]
      congr 1
      · apply List.map_congr_left
        intro a _
        rw [Function.comp_apply,
          @recalced_recalced _ _ db { db' with assets := assets₁, transactions } _ _ _ h.tokens
            fun token' hne _ htoken' => hother a token' hne htoken']
        exact @recalced_congr _ _ { db with assets := assets₂, transactions } _ _ _ h.tokens rfl
      · apply List.map_congr_left
        intro a ha
        obtain ⟨hp, ht⟩ := hnew a ha
        have hfound := findTokenById_of_symbol htoken
        rw [← hid] at hfound
        rw [@recalced_of_mem _ _ { db' with assets := assets₁, transactions } _ _ _
            ((congrArg (fun T : TokenTable => T.find? a.tokenId) h.tokens).trans (ht ▸ hfound)) hp
            (by simp [ht]),
          @recalced_of_mem _ _ { db with assets := assets₂, transactions } _ _ _ (ht ▸ hfound) hp
            (by simp [ht])]
        rfl
    · refine Eq.trans ?_ (h.portfolios total)
      unfold Db.setNetDeposit
      simp only [hportfolios]

/-- Settling fewer of the tokens later gives the same state, when the rest is mirrored. -/
theorem settle_eq {db₁ db₂ : Db} (h₁ : Mirrors N p tokenIds db db₁)
    (h₂ : Mirrors N p tokenIds db db₂) :
    recalcPortfolioNetDeposit N p db₁ = recalcPortfolioNetDeposit N p db₂ := by
  have hassets : db₁.assets = db₂.assets := Table.ext (h₁.assets.trans h₂.assets.symm)
  have htotal : netDepositSum db₁ p = netDepositSum db₂ p := by
    unfold netDepositSum assetsOf
    rw [hassets]
  apply Db.ext
  · exact h₁.tokens.trans h₂.tokens.symm
  · unfold recalcPortfolioNetDeposit
    rw [h₁.portfolios, h₂.portfolios, htotal]
  · exact hassets
  · exact h₁.transactions.trans h₂.transactions.symm

end Mirrors

end

end Neonfi.Ledger

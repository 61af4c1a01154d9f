import Neonfi.Ledger.Coherence
import Neonfi.Ledger.Order
import Neonfi.Ledger.Prepared

/-!
# Which requests keep the ledger coherent

Every operation recalculates the assets its statements touch, with one exception: a PATCH
that only moves a trade in time.
-/

namespace Neonfi.Ledger

open Lib

namespace SoundExcept

variable {β : Type} {N : Numeric} {view : Derived → β} {tokens : TokenTable} {p : ℕ}
variable {stale : Set (ℕ × ℕ)} {db db' : Db}
variable {env : Env} {portfolio : Portfolio}

/-- A trade row inserted while the asset of its token may be stale. -/
theorem insertTrade {data : TransactionData} {symbol : SymbolStr} {token : Token}
    (h : SoundExcept N view tokens p stale db) (hrow : db.createTransactionRow data = .ok db')
    (hsymbol : data.symbol? = some symbol.val)
    (htoken : tokens.findUniq? symbol.val = some token)
    (hmem : (data.portfolioId, token.id) ∈ stale) : SoundExcept N view tokens p stale db' := by
  obtain rfl := h.catalog
  apply h.insertRow hrow
  · rw [hsymbol]
    exact fun hempty => symbolStr_ne_empty symbol (Option.some.inj hempty)
  · intro key _ htouch
    rw [(touches_iff hsymbol htoken).mp htouch]
    exact hmem

theorem createTrade {body : CreateTransactionBody} {trade : TradeFields}
    (h : SoundExcept N view tokens p ∅ db)
    (hsymbol : ∀ usd, (body.row N portfolio.id usd).symbol? = some trade.symbol.val)
    (hrun : Ledger.createTrade N env portfolio body trade db = .ok db') :
    SoundExcept N view tokens p ∅ db' := by
  obtain rfl := h.catalog
  unfold Ledger.createTrade at hrun
  obtain ⟨token, htoken, hrun⟩ := bind_eq_ok hrun
  obtain ⟨auto, -, hrun⟩ := bind_eq_ok hrun
  obtain ⟨-, -, hrun⟩ := bind_eq_ok hrun
  obtain ⟨db₁, hcreate, hrun⟩ := bind_eq_ok hrun
  obtain ⟨db₂, hinsert, hrun⟩ := bind_eq_ok hrun
  have hfound := require_ok htoken
  have hwide : SoundExcept N view db.tokens p (insert (portfolio.id, token.id) ∅) db :=
    h.mono fun _ hmem => absurd hmem (Set.notMem_empty _)
  have hcreated := hwide.createIfNeeded hcreate (Set.mem_insert _ _)
  have hinserted := hcreated.insertTrade (insertTransaction_ok hinsert) (hsymbol _) hfound
    (Set.mem_insert _ _)
  exact ((hinserted.recalc (findTokenById_of_symbol hfound)).setNetDeposit).commit hrun

theorem createTransaction {body : CreateTransactionBody} (h : SoundExcept N view tokens p ∅ db)
    (hrun : Ledger.createTransaction N env portfolio body db = .ok db') :
    SoundExcept N view tokens p ∅ db' := by
  unfold Ledger.createTransaction at hrun
  obtain ⟨-, -, hrun⟩ := bind_eq_ok hrun
  cases hpayload : body.payload with
  | native trade =>
      rw [hpayload] at hrun
      refine h.createTrade (fun usd => ?_) hrun
      simp [CreateTransactionBody.row, TransactionData.symbol?, hpayload, Detail.trade?,
        TradeFields.stored]
  | erc20 trade info =>
      rw [hpayload] at hrun
      refine h.createTrade (fun usd => ?_) hrun
      simp [CreateTransactionBody.row, TransactionData.symbol?, hpayload, Detail.trade?,
        TradeFields.stored]
  | nft nft =>
      rw [hpayload] at hrun
      obtain ⟨db₁, hinsert, hrun⟩ := bind_eq_ok hrun
      have hnone : (body.row N portfolio.id 0).symbol? = none := by
        simp [CreateTransactionBody.row, TransactionData.symbol?, hpayload, Detail.trade?]
      refine (h.insertRow (insertTransaction_ok hinsert) (by simp [hnone]) ?_).commit hrun
      rintro key - ⟨token, -, -, hsymbol⟩
      rw [hnone] at hsymbol
      cases hsymbol

theorem addAsset {userId : ℕ} {body : CreateAssetBody} (h : SoundExcept N view tokens p ∅ db)
    (hrun : Ledger.addAsset N userId env portfolio body db = .ok db') :
    SoundExcept N view tokens p ∅ db' := by
  obtain rfl := h.catalog
  unfold Ledger.addAsset at hrun
  obtain ⟨-, -, hrun⟩ := bind_eq_ok hrun
  obtain ⟨-, -, hrun⟩ := bind_eq_ok hrun
  obtain ⟨token, htoken, hrun⟩ := bind_eq_ok hrun
  obtain ⟨-, -, hrun⟩ := bind_eq_ok hrun
  obtain ⟨-, -, hrun⟩ := bind_eq_ok hrun
  obtain ⟨opening, -, hrun⟩ := bind_eq_ok hrun
  obtain ⟨db₁, hcreate, hrun⟩ := bind_eq_ok hrun
  have hwide : SoundExcept N view db.tokens p (insert (portfolio.id, body.tokenId) ∅) db :=
    h.mono fun _ hmem => absurd hmem (Set.notMem_empty _)
  have hcreated := hwide.createAsset hcreate (Set.mem_insert _ _)
  exact ((hcreated.recalc (require_ok htoken)).setNetDeposit).commit hrun

/-! ### Updates -/

theorem findNamedToken_some {symbol : String} {token : Token}
    (h : db.findNamedToken symbol = some token) :
    symbol ≠ "" ∧ db.findTokenBySymbol symbol = some token := by
  unfold Db.findNamedToken at h
  split at h
  · cases h
  · next hne => exact ⟨hne, h⟩

theorem findNamedToken_of_ne {symbol : String} (h : symbol ≠ "") :
    db.findNamedToken symbol = db.findTokenBySymbol symbol := if_neg h

/-- The ids a PATCH resolves are those of the stored and of the patched symbol. -/
theorem resolvePatchedTokens_ok {body : UpdateTransactionBody} {existing : Transaction}
    {old new : Option ℕ} {oldSymbol : String} (hsymbol : existing.symbol? = some oldSymbol)
    (h : resolvePatchedTokens portfolio body existing db = .ok (old, new)) :
    old = (db.findNamedToken oldSymbol).map Token.id ∧
      new = (db.findNamedToken ((body.symbol.map Subtype.val).getD oldSymbol)).map Token.id := by
  unfold resolvePatchedTokens at h
  rw [hsymbol] at h
  cases hbody : body.symbol with
  | none =>
      simp only [hbody] at h
      cases h
      exact ⟨rfl, rfl⟩
  | some symbol =>
      simp only [hbody] at h
      split at h
      · next hsame =>
          cases h
          simp [hsame]
      · obtain ⟨token, hnew, h⟩ := bind_eq_ok h
        cases h
        unfold resolveNewToken at hnew
        obtain ⟨token', htoken, hnew⟩ := bind_eq_ok hnew
        obtain ⟨-, -, hnew⟩ := bind_eq_ok hnew
        cases hnew
        have hfound := require_ok htoken
        refine ⟨rfl, ?_⟩
        simp [findNamedToken_of_ne (symbolStr_ne_empty symbol), hfound]

/-- A row under a name touches the asset of the id looked up for that name. -/
theorem key_of_touches {t : Transaction} {symbol : String} {key : ℕ × ℕ}
    (hsymbol : t.symbol? = some symbol) (hname : symbol ≠ "")
    (h : t.Touches db.tokens key) :
    key.1 = t.portfolioId ∧ (db.findNamedToken symbol).map Token.id = some key.2 := by
  have hne : t.symbol? ≠ some "" := by
    rw [hsymbol]
    exact fun heq => hname (Option.some.inj heq)
  have htarget := recalcTarget_of_touches hne h
  unfold recalcTarget? at htarget
  rw [hsymbol] at htarget
  obtain ⟨token, htoken, hkey⟩ := Option.map_eq_some_iff.mp htarget
  subst hkey
  exact ⟨rfl, by rw [htoken, Option.map_some]⟩

theorem exists_token_of_namedId {symbol : String} {tokenId : ℕ}
    (h : (db.findNamedToken symbol).map Token.id = some tokenId) :
    ∃ token, db.tokens.find? tokenId = some token := by
  obtain ⟨token, htoken, rfl⟩ := Option.map_eq_some_iff.mp h
  exact ⟨token, findTokenById_of_symbol (findNamedToken_some htoken).2⟩

theorem recalcPatched {portfolioId : ℕ} {old new : Option ℕ}
    (h : SoundExcept N view tokens p {key | key.1 = portfolioId ∧
        (old = some key.2 ∨ new = some key.2)}
      db)
    (hold : ∀ tokenId, old = some tokenId → ∃ token, tokens.find? tokenId = some token)
    (hnew : ∀ tokenId, new = some tokenId → ∃ token, tokens.find? tokenId = some token) :
    SoundExcept N view tokens p ∅ (Ledger.recalcPatched N portfolioId old new db) := by
  apply SoundExcept.setNetDeposit
  cases old with
  | none =>
      cases new with
      | none => exact h.mono fun key hkey _ => by simp at hkey
      | some n =>
          obtain ⟨token, htoken⟩ := hnew n rfl
          refine SoundExcept.recalc (h.mono fun key hkey _ => ?_) htoken
          obtain ⟨hp, hkey⟩ := hkey
          have hid : n = key.2 := by simpa using hkey
          exact Set.mem_insert_iff.mpr (.inl (Prod.ext hp hid.symm))
  | some o =>
      obtain ⟨oldToken, holdToken⟩ := hold o rfl
      cases new with
      | none =>
          refine SoundExcept.recalc (h.mono fun key hkey _ => ?_) holdToken
          obtain ⟨hp, hkey⟩ := hkey
          have hid : o = key.2 := by simpa using hkey
          exact Set.mem_insert_iff.mpr (.inl (Prod.ext hp hid.symm))
      | some n =>
          obtain ⟨newToken, hnewToken⟩ := hnew n rfl
          have hwide : SoundExcept N view tokens p
              (insert (portfolioId, o) (insert (portfolioId, n) ∅)) db := by
            refine h.mono fun key hkey _ => ?_
            obtain ⟨hp, hkey | hkey⟩ := hkey
            · exact Set.mem_insert_iff.mpr (.inl (Prod.ext hp (Option.some.inj hkey).symm))
            · exact Set.mem_insert_of_mem _
                (Set.mem_insert_iff.mpr (.inl (Prod.ext hp (Option.some.inj hkey).symm)))
          dsimp only
          split
          · next hsame =>
              subst hsame
              rw [Set.insert_idem] at hwide
              exact hwide.recalc holdToken
          · exact (hwide.recalc holdToken).recalc hnewToken

theorem findOwnTransaction_ok {txId : ℕ} {existing : Transaction}
    (h : findOwnTransaction portfolio txId db = .ok existing) :
    existing ∈ db.transactions.rows ∧ existing.id = txId ∧
      existing.portfolioId = portfolio.id := by
  unfold findOwnTransaction at h
  obtain ⟨t, hfind, h⟩ := bind_eq_ok h
  obtain ⟨_, hown, h⟩ := bind_eq_ok h
  cases h
  have hrow := SerialTable.find?_eq_some_iff.mp (require_ok hfind)
  exact ⟨hrow.1, hrow.2, ensure_ok hown⟩

theorem symbol_apply {body : UpdateTransactionBody} {env : Env} {db : Db} {t : Transaction} :
    (body.apply N env db t).symbol? =
      t.symbol?.map fun symbol => (body.symbol.map Subtype.val).getD symbol := by
  unfold UpdateTransactionBody.apply TransactionData.symbol?
  cases t.detail <;>
    simp [UpdateTransactionBody.applyDetail, Detail.trade?, UpdateTransactionBody.applyTrade]

theorem named_apply {body : UpdateTransactionBody} {env : Env} {db : Db} {t : Transaction}
    (h : t.symbol? ≠ some "") : (body.apply N env db t).symbol? ≠ some "" := by
  rw [symbol_apply]
  cases hsymbol : t.symbol? with
  | none => simp
  | some symbol =>
      cases hbody : body.symbol with
      | none => simpa [hsymbol] using h
      | some new => simpa using symbolStr_ne_empty new

/-- A PATCH that recalculates, whatever it changes. -/
theorem updateTrade {txId : ℕ} {body : UpdateTransactionBody} {existing : Transaction}
    {old new : Option ℕ} (h : SoundExcept N view tokens p ∅ db)
    (hown : existing ∈ db.transactions.rows ∧ existing.id = txId ∧
      existing.portfolioId = portfolio.id)
    (htokens : resolvePatchedTokens portfolio body existing db = .ok (old, new))
    (htrade : existing.detail.trade?.isSome) :
    SoundExcept N view tokens p ∅ (Ledger.recalcPatched N portfolio.id old new
      (db.updateTransactionRow txId (body.apply N env db) (fun _ => rfl) fun _ => rfl)) := by
  obtain rfl := h.catalog
  obtain ⟨hmem, hid, hportfolio⟩ := hown
  obtain ⟨d, hd⟩ := Option.isSome_iff_exists.mp htrade
  have hsymbol : existing.symbol? = some d.symbol := by
    unfold TransactionData.symbol?
    rw [hd, Option.map_some]
  obtain ⟨hold, hnew⟩ := resolvePatchedTokens_ok hsymbol htokens
  have hunique : ∀ t ∈ db.transactions.rows, t.id = txId → t = existing := fun t ht htx =>
    SerialTable.eq_of_id_eq ht hmem (htx.trans hid.symm)
  apply recalcPatched
  · apply SoundExcept.patchRow
    · exact h.mono fun _ hkey => absurd hkey (Set.notMem_empty _)
    · intro t ht htx hp
      exact named_apply (h.named t ht hp)
    · intro t ht htx key hkeyp htouch
      rw [hunique t ht htx] at htouch
      have hp : existing.portfolioId = p := by
        rcases htouch with ⟨_, _, hconcerns⟩ | ⟨_, _, hconcerns⟩
        · exact hconcerns.1.trans hkeyp
        · exact hconcerns.1.trans hkeyp
      have hnamed := h.named existing hmem hp
      rcases htouch with htouch | htouch
      · have hname : d.symbol ≠ "" := fun heq => hnamed (heq ▸ hsymbol)
        have hkey := key_of_touches hsymbol hname htouch
        exact ⟨hkey.1.trans hportfolio, .inl (hold.trans hkey.2)⟩
      · have hafter : (body.apply N env db existing).symbol? =
            some ((body.symbol.map Subtype.val).getD d.symbol) := by
          rw [symbol_apply, hsymbol, Option.map_some]
        have hnamed' := @named_apply N body env db _ hnamed
        have hname : (body.symbol.map Subtype.val).getD d.symbol ≠ "" := fun heq =>
          hnamed' (heq ▸ hafter)
        have hkey := key_of_touches hafter hname htouch
        exact ⟨hkey.1.trans hportfolio, .inr (hnew.trans hkey.2)⟩
  · intro tokenId hsome
    exact exists_token_of_namedId (hold.symm.trans hsome)
  · intro tokenId hsome
    exact exists_token_of_namedId (hnew.symm.trans hsome)

/-- A PATCH that changes no amount, symbol or price keeps the trade columns. -/
theorem applyDetail_keeps {body : UpdateTransactionBody} (husd : body.usdAffected = false)
    (d : Detail) :
    (body.applyDetail N env db d).native? = d.native? ∧
      (body.applyDetail N env db d).erc20? = d.erc20? ∧
      (body.applyDetail N env db d).trade? = d.trade? := by
  have hfields := husd
  simp only [UpdateTransactionBody.usdAffected, Bool.or_eq_false_iff, Option.isSome_eq_false_iff,
    Option.isNone_iff_eq_none] at hfields
  obtain ⟨⟨hamount, hsymbol⟩, hprice⟩ := hfields
  cases d <;>
    simp [UpdateTransactionBody.applyDetail, UpdateTransactionBody.applyTrade, Detail.native?,
      Detail.erc20?, Detail.trade?, husd, hamount, hsymbol, hprice]

/-- The PATCH keeps the order of the trades of every token of the portfolio. -/
def KeepsOrder (portfolioId txId : ℕ) (body : UpdateTransactionBody) (db : Db) : Prop :=
  ∀ ts, body.timestamp = some ts → body.balanceAffected = false → body.usdAffected = false →
    ∀ symbol, tradeOrder (retimed db txId ts) portfolioId symbol =
      tradeOrder db portfolioId symbol

/-- A PATCH without a recalculation moves no trade past another. -/
theorem updateQuiet {txId : ℕ} {body : UpdateTransactionBody} {existing : Transaction}
    (h : SoundExcept N view tokens p ∅ db)
    (hown : existing ∈ db.transactions.rows ∧ existing.id = txId ∧
      existing.portfolioId = portfolio.id)
    (hquiet : existing.detail.trade?.isSome →
      body.balanceAffected = false ∧ body.usdAffected = false)
    (horder : KeepsOrder portfolio.id txId body db) :
    SoundExcept N view tokens p ∅
      (db.updateTransactionRow txId (body.apply N env db) (fun _ => rfl) fun _ => rfl) := by
  obtain rfl := h.catalog
  obtain ⟨hmem, hid, hportfolio⟩ := hown
  have hunique : ∀ t ∈ db.transactions.rows, t.id = txId → t = existing := fun t ht htx =>
    SerialTable.eq_of_id_eq ht hmem (htx.trans hid.symm)
  have hname : ∀ t ∈ db.transactions.rows, t.id = txId →
      (body.apply N env db t).portfolioId = p →
      (body.apply N env db t).symbol? ≠ some "" := fun t ht _ hp =>
    named_apply (h.named t ht hp)
  by_cases hcase : existing.detail.trade?.isSome ∧ existing.portfolioId = p
  · obtain ⟨htrade, hp⟩ := hcase
    obtain ⟨hbalance, husd⟩ := hquiet htrade
    have hdirection : body.direction = none := by
      simp only [UpdateTransactionBody.balanceAffected, Bool.or_eq_false_iff] at hbalance
      simpa using hbalance.1.1
    apply h.of_transactions
    · intro t ht hpt
      obtain ⟨s, hs, rfl⟩ := List.mem_map.mp ht
      by_cases htx : s.id = txId
      · simp only [htx, if_true] at hpt ⊢
        exact hname s hs htx hpt
      · simp only [htx, if_false] at hpt ⊢
        exact h.named s hs hpt
    · intro a _ _ _ token _
      apply replay_of_tradeOrder (f := fun t => if t.id = txId then body.apply N env db t else t)
        rfl
      · intro t _
        by_cases htx : t.id = txId
        · rw [if_pos htx]
          refine ⟨rfl, ?_, (applyDetail_keeps husd t.detail).2.2, rfl⟩
          simp [UpdateTransactionBody.apply, hdirection]
        · rw [if_neg htx]
          exact ⟨rfl, rfl, rfl, rfl⟩
      · have hpid : p = portfolio.id := hp.symm.trans hportfolio
        cases hts : body.timestamp with
        | none =>
            apply tradeOrder_congr
            rw [show db.transactions.rows = db.transactions.rows.map id by simp]
            apply eventRows_map_congr
            intro t _
            by_cases htx : t.id = txId
            · have hkeeps := @applyDetail_keeps N db env _ husd t.detail
              simp [htx, UpdateTransactionBody.apply, hdirection, hts, hkeeps]
            · simp [htx]
        | some ts =>
            rw [hpid, ← horder ts hts hbalance husd token.symbol]
            apply tradeOrder_congr
            apply eventRows_map_congr
            intro t _
            by_cases htx : t.id = txId
            · have hkeeps := @applyDetail_keeps N db env _ husd t.detail
              simp [htx, UpdateTransactionBody.apply, hdirection, hts, hkeeps]
            · simp [htx]
  · apply h.patchRow hname
    intro t ht htx key hkeyp htouch
    rw [hunique t ht htx] at htouch
    exfalso
    apply hcase
    have hafter := @symbol_apply N body env db existing
    rcases htouch with ⟨token, _, hpid, hsymbol⟩ | ⟨token, _, hpid, hsymbol⟩
    · refine ⟨?_, hpid.trans hkeyp⟩
      unfold TransactionData.symbol? at hsymbol
      cases htrade : existing.detail.trade? with
      | none => simp [htrade] at hsymbol
      | some d => rfl
    · refine ⟨?_, hpid.trans hkeyp⟩
      rw [hafter] at hsymbol
      unfold TransactionData.symbol? at hsymbol
      cases htrade : existing.detail.trade? with
      | none => simp [htrade] at hsymbol
      | some d => rfl

theorem updateTransaction {txId : ℕ} {body : UpdateTransactionBody}
    (h : SoundExcept N view tokens p ∅ db) (horder : KeepsOrder portfolio.id txId body db)
    (hrun : Ledger.updateTransaction N env portfolio txId body db = .ok db') :
    SoundExcept N view tokens p ∅ db' := by
  unfold Ledger.updateTransaction at hrun
  obtain ⟨-, -, hrun⟩ := bind_eq_ok hrun
  obtain ⟨existing, hown, hrun⟩ := bind_eq_ok hrun
  obtain ⟨-, -, hrun⟩ := bind_eq_ok hrun
  obtain ⟨⟨old, new⟩, htokens, hrun⟩ := bind_eq_ok hrun
  have hown := findOwnTransaction_ok hown
  dsimp only at hrun
  split at hrun
  · next hrecalc =>
      have htrade := (Bool.and_eq_true_iff.mp hrecalc).2
      exact (h.updateTrade hown htokens htrade).commit hrun
  · next hquiet =>
      refine (h.updateQuiet hown (fun htrade => ?_) horder).commit hrun
      rw [htrade, Bool.and_true, Bool.not_eq_true, Bool.or_eq_false_iff] at hquiet
      exact hquiet

/-! ### Deletes and transfers -/

/-- Recalculating a list of assets settles them all. -/
theorem recalcList {targets : List (ℕ × ℕ)}
    (h : SoundExcept N view tokens p (stale ∪ {key | key ∈ targets}) db)
    (htokens : ∀ key ∈ targets, ∃ token, tokens.find? key.2 = some token) :
    SoundExcept N view tokens p stale
      (targets.foldl (fun db target => recalcAssetBalance N target.1 target.2 db) db) := by
  induction targets generalizing db with
  | nil => exact h.mono fun key hkey _ => by simpa using hkey
  | cons target targets ih =>
      obtain ⟨token, htoken⟩ := htokens target List.mem_cons_self
      refine ih ?_ fun key hkey => htokens key (List.mem_cons_of_mem _ hkey)
      refine SoundExcept.recalc (h.mono fun key hkey _ => ?_) htoken
      rcases hkey with hkey | hkey
      · exact Set.mem_insert_of_mem _ (.inl hkey)
      · rcases List.mem_cons.mp hkey with rfl | hkey
        · exact Set.mem_insert _ _
        · exact Set.mem_insert_of_mem _ (.inr hkey)

theorem totalsList {portfolioIds : List ℕ} (h : SoundExcept N view tokens p stale db) :
    SoundExcept N view tokens p stale
      (portfolioIds.foldl (fun db portfolioId => recalcPortfolioNetDeposit N portfolioId db) db)
      := by
  induction portfolioIds generalizing db with
  | nil => exact h
  | cons portfolioId portfolioIds ih => exact ih h.setNetDeposit

/-- Deleting rows whose assets may be stale. -/
theorem deleteRows {legs : List Transaction} (h : SoundExcept N view tokens p stale db)
    (htouch : ∀ t ∈ db.transactions.rows, t ∈ legs → ∀ key, key.1 = p →
      t.Touches tokens key → key ∈ stale)
    (hlegs : ∀ t ∈ db.transactions.rows, ∀ leg ∈ legs, t.id = leg.id → t ∈ legs) :
    SoundExcept N view tokens p stale
      (legs.foldl (fun db leg => db.deleteTransactionRow leg.id) db) := by
  suffices hgen : ∀ (todo : List Transaction) (db : Db), SoundExcept N view tokens p stale db →
      (∀ t ∈ db.transactions.rows, ∀ leg ∈ todo, t.id = leg.id → ∀ key, key.1 = p →
        t.Touches tokens key → key ∈ stale) →
      SoundExcept N view tokens p stale
        (todo.foldl (fun db leg => db.deleteTransactionRow leg.id) db) from
    hgen legs db h fun t ht leg hleg hid => htouch t ht (hlegs t ht leg hleg hid)
  intro todo
  induction todo with
  | nil => exact fun _ h _ => h
  | cons leg todo ih =>
      intro db h htouch
      refine ih _ (h.deleteRow fun t ht hid => htouch t ht leg List.mem_cons_self hid) ?_
      intro t ht leg' hleg'
      exact htouch t (List.mem_of_mem_filter ht) leg' (List.mem_cons_of_mem _ hleg')

theorem recalcTarget_token {t : Transaction} {key : ℕ × ℕ}
    (h : recalcTarget? db t = some key) : ∃ token, db.tokens.find? key.2 = some token := by
  unfold recalcTarget? at h
  split at h
  · cases h
  · obtain ⟨token, htoken, rfl⟩ := Option.map_eq_some_iff.mp h
    exact ⟨token, findTokenById_of_symbol (findNamedToken_some htoken).2⟩

theorem deleteTransfer {groupId : String} (h : SoundExcept N view tokens p ∅ db)
    (hrun : Ledger.deleteTransfer N groupId db = .ok db') : SoundExcept N view tokens p ∅ db' := by
  obtain rfl := h.catalog
  unfold Ledger.deleteTransfer Ledger.recalcTargets at hrun
  refine SoundExcept.commit (SoundExcept.totalsList (SoundExcept.recalcList ?_ ?_)) hrun
  · apply SoundExcept.deleteRows
    · exact h.mono fun _ hkey => absurd hkey (Set.notMem_empty _)
    · intro t ht hleg key hkeyp htouch
      right
      have hp : t.portfolioId = p := by
        obtain ⟨_, _, hpid, _⟩ := htouch
        exact hpid.trans hkeyp
      exact List.mem_filterMap.mpr
        ⟨t, hleg, recalcTarget_of_touches (h.named t ht hp) htouch⟩
    · intro t ht leg hleg hid
      rw [SerialTable.eq_of_id_eq ht (List.mem_of_mem_filter hleg) hid]
      exact hleg
  · intro key hkey
    obtain ⟨leg, -, htarget⟩ := List.mem_filterMap.mp hkey
    exact recalcTarget_token htarget

theorem deleteTransaction {txId : ℕ} (h : SoundExcept N view tokens p ∅ db)
    (hrun : Ledger.deleteTransaction N portfolio txId db = .ok db') :
    SoundExcept N view tokens p ∅ db' := by
  obtain rfl := h.catalog
  unfold Ledger.deleteTransaction at hrun
  obtain ⟨-, -, hrun⟩ := bind_eq_ok hrun
  obtain ⟨existing, hown, hrun⟩ := bind_eq_ok hrun
  obtain ⟨hmem, hid, hportfolio⟩ := findOwnTransaction_ok hown
  have htarget : ∀ t ∈ db.transactions.rows, t.id = txId → ∀ key, key.1 = p →
      t.Touches db.tokens key → recalcTarget? db existing = some key := by
    intro t ht htx key hkeyp htouch
    rw [SerialTable.eq_of_id_eq ht hmem (htx.trans hid.symm)] at htouch
    have hp : existing.portfolioId = p := by
      obtain ⟨_, _, hpid, _⟩ := htouch
      exact hpid.trans hkeyp
    exact recalcTarget_of_touches (h.named existing hmem hp) htouch
  split at hrun
  · exact h.deleteTransfer hrun
  · split at hrun
    · next hnone =>
        refine (h.deleteRow fun t ht htx key hkeyp htouch => ?_).commit hrun
        have hsome := htarget t ht htx key hkeyp htouch
        rw [hnone] at hsome
        cases hsome
    · next target hsome =>
        obtain ⟨token, htoken⟩ := recalcTarget_token hsome
        have hwide : SoundExcept N view db.tokens p (insert (portfolio.id, target.2) ∅) db :=
          h.mono fun _ hkey => absurd hkey (Set.notMem_empty _)
        have hdeleted := @SoundExcept.deleteRow _ _ _ _ _ _ _ txId hwide fun t ht htx key hkeyp
            htouch => by
          have hkey := htarget t ht htx key hkeyp htouch
          rw [hsome] at hkey
          obtain rfl := Option.some.inj hkey
          have hpid : existing.portfolioId = target.1 := by
            obtain ⟨_, _, hpid, _⟩ := htouch
            rw [← SerialTable.eq_of_id_eq ht hmem (htx.trans hid.symm)]
            exact hpid
          exact Set.mem_insert_iff.mpr (.inl (Prod.ext (hpid.symm.trans hportfolio) rfl))
        exact ((hdeleted.recalc htoken).setNetDeposit).commit hrun

theorem createCrossPortfolioTransfer {body : TransferBody} (h : SoundExcept N view tokens p ∅ db)
    (hrun : Ledger.createCrossPortfolioTransfer N env portfolio body db = .ok db') :
    SoundExcept N view tokens p ∅ db' := by
  obtain rfl := h.catalog
  unfold Ledger.createCrossPortfolioTransfer at hrun
  obtain ⟨-, -, hrun⟩ := bind_eq_ok hrun
  obtain ⟨dest, -, hrun⟩ := bind_eq_ok hrun
  obtain ⟨token, htoken, hrun⟩ := bind_eq_ok hrun
  obtain ⟨sourceAsset, -, hrun⟩ := bind_eq_ok hrun
  obtain ⟨db₁, hcreate, hrun⟩ := bind_eq_ok hrun
  obtain ⟨db₂, hsource, hrun⟩ := bind_eq_ok hrun
  obtain ⟨db₃, hdest, hrun⟩ := bind_eq_ok hrun
  have hfound := require_ok htoken
  have hid := findTokenById_of_symbol hfound
  have hwide : SoundExcept N view db.tokens p
      (insert (portfolio.id, token.id) (insert (dest.id, token.id) ∅)) db :=
    h.mono fun _ hkey => absurd hkey (Set.notMem_empty _)
  have hcreated := hwide.createIfNeeded hcreate (Set.mem_insert_of_mem _ (Set.mem_insert _ _))
  have hsold := hcreated.insertTrade hsource rfl hfound (Set.mem_insert _ _)
  have hbought := hsold.insertTrade hdest rfl hfound
    (Set.mem_insert_of_mem _ (Set.mem_insert _ _))
  have hsettled := @SoundExcept.setNetDeposit _ _ _ _ _ _ _ portfolio.id
      (N.fix (netDepositSum (recalcAssetBalance N portfolio.id token.id db₃)
      portfolio.id)) (hbought.recalc hid)
  exact ((hsettled.recalc hid).setNetDeposit).commit hrun

/-! ### Opening positions -/

theorem findOwnAsset_ok {assetId : ℕ × ℕ} {existing : Asset}
    (h : findOwnAsset portfolio assetId db = .ok existing) :
    existing ∈ db.assets.rows ∧ existing.key = assetId ∧
      existing.portfolioId = portfolio.id := by
  unfold findOwnAsset at h
  obtain ⟨a, hfind, h⟩ := bind_eq_ok h
  obtain ⟨_, hown, h⟩ := bind_eq_ok h
  cases h
  have hrow := Table.find?_eq_some_iff.mp (require_ok hfind)
  exact ⟨hrow.1, hrow.2, ensure_ok hown⟩

theorem editOpening {existing : Asset} {balance : ℚ} {cost : Option Cost}
    (h : SoundExcept N view tokens p ∅ db) (hmem : existing ∈ db.assets.rows)
    (hpid : existing.portfolioId = portfolio.id)
    (hrun : Ledger.editOpening N env portfolio existing balance cost db = .ok db') :
    SoundExcept N view tokens p ∅ db' := by
  obtain rfl := h.catalog
  unfold Ledger.editOpening at hrun
  obtain ⟨-, -, hrun⟩ := bind_eq_ok hrun
  obtain ⟨opening, -, hrun⟩ := bind_eq_ok hrun
  have hwide : SoundExcept N view db.tokens p (insert (portfolio.id, existing.tokenId) ∅) db :=
    h.mono fun _ hkey => absurd hkey (Set.notMem_empty _)
  have hedited := @SoundExcept.updateAssetRow _ _ _ _ _ _ _ existing.portfolioId existing.tokenId
      (setOpening N balance opening) (fun _ => rfl) hwide (hpid ▸ Set.mem_insert _ _)
  refine SoundExcept.commit (SoundExcept.setNetDeposit ?_) hrun
  by_cases hp : existing.portfolioId = p
  · obtain ⟨token, htoken, -⟩ := h.coherent existing hmem hp (Set.notMem_empty _)
    exact hedited.recalc htoken
  · -- The asset belongs to another portfolio, so it may as well stay stale here.
    refine (hedited.recalcStale (Set.mem_insert _ _)).mono fun key hkey hkeyp => ?_
    rcases Set.mem_insert_iff.mp hkey with rfl | hkey
    · exact absurd (hpid.trans hkeyp) hp
    · exact hkey

/-- A view that does not show `netDeposit` does not see it being edited. -/
theorem setNetDepositColumn {portfolioId tokenId : ℕ} {netDeposit : ℚ}
    (h : SoundExcept N view tokens p stale db)
    (hview : ∀ d value, view { d with netDeposit := value } = view d) :
    SoundExcept N view tokens p stale
      (db.updateAssetRow portfolioId tokenId (fun a => { a with netDeposit })
        fun _ => rfl) := by
  refine ⟨h.catalog, h.manual, h.named, fun b hb hp hstale => ?_⟩
  obtain ⟨a, ha, rfl⟩ := List.mem_map.mp hb
  by_cases hkey : a.key = (portfolioId, tokenId)
  · simp only [hkey, if_true] at hp hstale ⊢
    obtain ⟨token, htoken, hderived⟩ := h.coherent a ha hp hstale
    refine ⟨token, htoken, ?_⟩
    exact (hview a.derived netDeposit).trans hderived
  · simp only [hkey, if_false] at hp hstale ⊢
    exact h.coherent a ha hp hstale

theorem updateAsset {assetId : ℕ × ℕ} {body : UpdateAssetBody}
    (h : SoundExcept N view tokens p ∅ db)
    (hedit : body.isOpeningEdit ∨ ∀ d value, view { d with netDeposit := value } = view d)
    (hrun : Ledger.updateAsset N env portfolio assetId body db = .ok db') :
    SoundExcept N view tokens p ∅ db' := by
  unfold Ledger.updateAsset at hrun
  obtain ⟨-, -, hrun⟩ := bind_eq_ok hrun
  obtain ⟨existing, hown, hrun⟩ := bind_eq_ok hrun
  obtain ⟨hmem, -, hpid⟩ := findOwnAsset_ok hown
  split at hrun
  · exact h.editOpening hmem hpid hrun
  · next hopening =>
      have hview := hedit.resolve_left hopening
      split at hrun
      · exact (h.setNetDepositColumn hview).commit hrun
      · cases hrun
        exact h

theorem removeAsset {assetId : ℕ × ℕ} (h : SoundExcept N view tokens p ∅ db)
    (hrun : Ledger.removeAsset N portfolio assetId db = .ok db') :
    SoundExcept N view tokens p ∅ db' := by
  unfold Ledger.removeAsset at hrun
  obtain ⟨-, -, hrun⟩ := bind_eq_ok hrun
  obtain ⟨existing, -, hrun⟩ := bind_eq_ok hrun
  exact (h.deleteAsset.setNetDeposit).commit hrun

/-! ### Bulk imports -/

theorem insertPrepared {portfolioId : ℕ} {rows : List PreparedTxRow}
    (h : SoundExcept N view tokens p {key | ∃ r ∈ rows, key = (portfolioId, r.tokenId)} db)
    {db₀ : Db} (hcatalog : db₀.tokens = tokens) (hnames : ∀ r ∈ rows, r.Names db₀)
    (hrun : rows.foldlM (Ledger.insertPrepared N portfolioId) db = .ok db') :
    SoundExcept N view tokens p {key | ∃ r ∈ rows, key = (portfolioId, r.tokenId)} db' := by
  refine foldlM_ok_invariant (fun r hr db₁ db₂ h₁ hinsert => ?_) h hrun
  obtain ⟨trade, token, hpayload, htoken, hid⟩ := hnames r hr
  unfold Ledger.insertPrepared at hinsert
  obtain ⟨db₃, hcreate, hinsert⟩ := bind_eq_ok hinsert
  have hcreated := h₁.createIfNeeded hcreate ⟨r, hr, rfl⟩
  have hsymbol : (r.body.row N portfolioId r.usdValue).symbol? = some trade.symbol.val := by
    simp [CreateTransactionBody.row, TransactionData.symbol?, hpayload, Detail.trade?,
      TradeFields.stored]
  have hfound : tokens.findUniq? trade.symbol.val = some token := hcatalog ▸ htoken
  exact hcreated.insertTrade hinsert hsymbol hfound ⟨r, hr, by rw [hid]; rfl⟩

theorem writePrepared {portfolioId : ℕ} {rows : List PreparedTxRow}
    (h : SoundExcept N view tokens p ∅ db) (hnames : ∀ r ∈ rows, r.Names db)
    (hrun : Ledger.writePrepared N portfolioId rows db = .ok db') :
    SoundExcept N view tokens p ∅ db' := by
  obtain rfl := h.catalog
  unfold Ledger.writePrepared at hrun
  obtain ⟨db₁, hinsert, hrun⟩ := bind_eq_ok hrun
  have hwide : SoundExcept N view db.tokens p {key | ∃ r ∈ rows, key = (portfolioId, r.tokenId)} db
      :=
    h.mono fun _ hkey => absurd hkey (Set.notMem_empty _)
  have hinserted := hwide.insertPrepared rfl hnames hinsert
  have hsettled := @SoundExcept.recalcList _ N _ db.tokens p (∅) db₁
      ((rows.map PreparedTxRow.tokenId).dedup.map fun tokenId => (portfolioId, tokenId))
      (hinserted.mono fun key hkey _ => ?_) ?_
  · rw [List.foldl_map] at hsettled
    exact hsettled.setNetDeposit.commit hrun
  · obtain ⟨r, hr, rfl⟩ := hkey
    right
    exact List.mem_map_of_mem (List.mem_dedup.mpr (List.mem_map_of_mem hr))
  · intro key hkey
    obtain ⟨tokenId, htokenId, rfl⟩ := List.mem_map.mp hkey
    obtain ⟨r, hr, rfl⟩ := List.mem_map.mp (List.mem_dedup.mp htokenId)
    obtain ⟨trade, token, -, htoken, hid⟩ := hnames r hr
    exact ⟨token, hid ▸ findTokenById_of_symbol htoken⟩

theorem insertOpenings {portfolioId : ℕ} {prepared : List PreparedAssetRow}
    (h : SoundExcept N view tokens p ∅ db)
    (hknown : ∀ r ∈ prepared, ∃ token, tokens.find? r.tokenId = some token)
    (hrun : prepared.foldlM (insertOpening N portfolioId) db = .ok db') :
    SoundExcept N view tokens p ∅ db' := by
  refine foldlM_ok_invariant (fun r hr db₁ db₂ h₁ hfirst => ?_) h hrun
  unfold insertOpening at hfirst
  obtain ⟨db₃, hcreate, hfirst⟩ := bind_eq_ok hfirst
  cases hfirst
  obtain ⟨token, htoken⟩ := hknown r hr
  have hwide : SoundExcept N view tokens p (insert (portfolioId, r.tokenId) ∅) db₁ :=
    h₁.mono fun _ hkey => absurd hkey (Set.notMem_empty _)
  exact (hwide.createAsset hcreate (Set.mem_insert _ _)).recalc htoken

theorem writeOpenings {portfolioId : ℕ} {prepared : List PreparedAssetRow}
    (h : SoundExcept N view tokens p ∅ db)
    (hknown : ∀ r ∈ prepared, ∃ token, tokens.find? r.tokenId = some token)
    (hrun : Ledger.writeOpenings N portfolioId prepared db = .ok db') :
    SoundExcept N view tokens p ∅ db' := by
  unfold Ledger.writeOpenings at hrun
  obtain ⟨db₁, hinsert, hrun⟩ := bind_eq_ok hrun
  exact (h.insertOpenings hknown hinsert).setNetDeposit.commit hrun

end SoundExcept

/-! ## Runs -/

/-- A request of the ledger: anything but a PATCH of an asset that only sets `netDeposit`. -/
def Request.InLedger (r : Request) : Prop :=
  match r.action with
  | .updateAsset _ body => body.isOpeningEdit
  | _ => True

/-- The request does not move a trade past another without recalculating. -/
def Request.KeepsTradeOrder (db : Db) (r : Request) : Prop :=
  match r.action with
  | .updateTransaction txId body => SoundExcept.KeepsOrder r.portfolioId txId body db
  | _ => True

theorem ownedPortfolio_ok {userId portfolioId : ℕ} {db : Db} {portfolio : Portfolio}
    (h : ownedPortfolio userId portfolioId db = .ok portfolio) :
    db.findPortfolioById portfolioId = some portfolio ∧ portfolio.id = portfolioId ∧
      portfolio.userId = userId := by
  unfold ownedPortfolio at h
  obtain ⟨portfolio', hfind, h⟩ := bind_eq_ok h
  obtain ⟨_, hown, h⟩ := bind_eq_ok h
  cases h
  have hfound := require_ok hfind
  exact ⟨hfound, (SerialTable.find?_eq_some_iff.mp hfound).2, ensure_ok hown⟩

theorem map_fst_ok {α : Type} {x : Except Failure (Db × α)} {db' : Db}
    (h : x.map Prod.fst = .ok db') : ∃ a, x = .ok (db', a) := by
  cases x with
  | error e => cases h
  | ok r =>
      cases h
      exact ⟨r.2, rfl⟩

theorem SoundExcept.request {β : Type} {N : Numeric} {js : Js} {view : Derived → β}
    {tokens : TokenTable} {p : ℕ} {db db' : Db} {r : Request}
    (h : SoundExcept N view tokens p ∅ db)
    (hledger : r.InLedger ∨ ∀ d value, view { d with netDeposit := value } = view d)
    (horder : r.KeepsTradeOrder db) (hstep : Step N js db r db') :
    SoundExcept N view tokens p ∅ db' := by
  unfold Step handle at hstep
  obtain ⟨portfolio, hportfolio, hrun⟩ := bind_eq_ok hstep
  obtain ⟨-, hid, -⟩ := ownedPortfolio_ok hportfolio
  obtain rfl := h.catalog
  cases haction : r.action with
  | createTransaction body =>
      rw [haction] at hrun
      exact h.createTransaction hrun
  | updateTransaction txId body =>
      rw [haction] at hrun
      unfold Request.KeepsTradeOrder at horder
      rw [haction] at horder
      exact h.updateTransaction (hid ▸ horder) hrun
  | deleteTransaction txId =>
      rw [haction] at hrun
      exact h.deleteTransaction hrun
  | transfer body =>
      rw [haction] at hrun
      exact h.createCrossPortfolioTransfer hrun
  | bulkTransactions body =>
      rw [haction] at hrun
      obtain ⟨result, hbulk⟩ := map_fst_ok hrun
      obtain ⟨-, hsame | ⟨rows, hnames, hwrite⟩⟩ := bulkCreateTransactions_ok hbulk
      · rw [show db' = db from hsame]
        exact h
      · exact h.writePrepared hnames hwrite
  | addAsset body =>
      rw [haction] at hrun
      exact h.addAsset hrun
  | updateAsset assetId body =>
      rw [haction] at hrun
      unfold Request.InLedger at hledger
      rw [haction] at hledger
      exact h.updateAsset hledger hrun
  | removeAsset assetId =>
      rw [haction] at hrun
      exact h.removeAsset hrun
  | bulkAssets body =>
      rw [haction] at hrun
      obtain ⟨result, hbulk⟩ := map_fst_ok hrun
      obtain ⟨-, hsame | ⟨rows, hknown, hwrite⟩⟩ := bulkCreateAssets_ok hbulk
      · rw [show db' = db from hsame]
        exact h
      · exact h.writeOpenings hknown hwrite

/-- A manual portfolio without assets and without transactions. -/
structure EmptyManual (p : ℕ) (db : Db) : Prop where
  manual : (db.findPortfolioById p).map Portfolio.type = some .manual
  noAssets : assetsOf db p = []
  noTransactions : ∀ t ∈ db.transactions.rows, t.portfolioId ≠ p

theorem EmptyManual.sound {β : Type} {N : Numeric} {view : Derived → β} {p : ℕ} {db : Db}
    (h : EmptyManual p db) :
    SoundExcept N view db.tokens p ∅ db where
  catalog := rfl
  manual := h.manual
  named t ht hp := absurd hp (h.noTransactions t ht)
  coherent a ha hp _ := by
    have hmem : a ∈ assetsOf db p := List.mem_filter.mpr ⟨ha, by simpa using hp⟩
    rw [h.noAssets] at hmem
    cases hmem

/-- From an empty manual portfolio, every run of ledger requests that never moves a trade
past another without recalculating keeps each asset equal to its replay. -/
theorem ledger_coherent_of_keepsTradeOrder {N : Numeric} {js : Js} {p : ℕ} {db db' : Db}
    {requests : List Request} (hempty : EmptyManual p db)
    (hrun : Run (Guarded (Step N js) fun s r => r.InLedger ∧ r.KeepsTradeOrder s)
      db requests db') :
    ∀ a ∈ assetsOf db' p, a.Coherent N db' := by
  have hsound : SoundExcept N id db.tokens p ∅ db' :=
    hrun.invariant (I := SoundExcept N id db.tokens p ∅)
      (fun s r t hs hstep => hs.request (.inl hstep.2.1) hstep.2.2 hstep.1) hempty.sound
  intro a ha
  obtain ⟨hmem, hp⟩ := List.mem_filter.mp ha
  exact hsound.coherent a hmem (by simpa using hp) (Set.notMem_empty _)

/-! ## A sample ledger -/

/-- The `Decimal(20,8)` columns of the schema. -/
abbrev decimal20_8 : Numeric := Numeric.decimal 12 8

def sampleJs : Js := ⟨String.toUpper, String.toLower, fun q => toString q.num⟩

def sampleEnv : Env where
  now := 1700000000000
  plan _ := .pro
  cachedPrice _ := none
  snapshotPrice _ _ := none
  historicalPrice _ _ := none
  uuid := "7b0c1e52-4a0f-4d1e-9f53-1c2d3e4f5a6b"

def eth : SymbolStr := ⟨"ETH", by decide⟩

/-- Two empty manual portfolios of one user. -/
def sampleDb : Db where
  tokens := ⟨[{ id := 1, symbol := "ETH", rank := some 2, currentPrice := 200 }], 2,
    by decide, by decide, by decide⟩
  portfolios := ⟨[{ id := 1, userId := 1, type := .manual },
    { id := 2, userId := 1, type := .manual }], 3, by decide, by decide, by decide⟩
  assets := Table.empty
  transactions := SerialTable.empty

theorem bounded_100 : (0 : ℚ) ≤ 100 ∧ (100 : ℚ) < 10 ^ 12 := by norm_num

theorem bounded_110 : (0 : ℚ) ≤ 110 ∧ (110 : ℚ) < 10 ^ 12 := by norm_num

theorem bounded_200 : (0 : ℚ) ≤ 200 ∧ (200 : ℚ) < 10 ^ 12 := by norm_num

theorem bounded_300 : (0 : ℚ) ≤ 300 ∧ (300 : ℚ) < 10 ^ 12 := by norm_num

def trade (direction : Direction) (amount : AmountStr) (price : BoundedDecimal)
    (timestamp : Millis) : CreateTransactionBody where
  payload := .native { amount, symbol := eth, priceAtTime := some price }
  direction := direction
  timestamp := timestamp

def sampleRequest (action : Action) : Request := ⟨1, 1, sampleEnv, action⟩

theorem sample_emptyManual : EmptyManual 1 sampleDb where
  manual := by decide +kernel
  noAssets := by decide +kernel
  noTransactions t ht := by cases ht

/-- The stored columns of the portfolio's assets, checked by evaluation. -/
def coherentCheck (N : Numeric) (p : ℕ) (db : Db) : Bool :=
  (assetsOf db p).all fun a =>
    (db.findTokenById a.tokenId).any fun token =>
      decide (a.derived = (replay a (ledgerEvents db a.portfolioId token.symbol)).stored N)

theorem coherentCheck_iff {N : Numeric} {p : ℕ} {db : Db} :
    coherentCheck N p db = true ↔ ∀ a ∈ assetsOf db p, a.Coherent N db := by
  unfold coherentCheck Asset.Coherent Asset.CoherentOn
  rw [List.all_eq_true]
  refine forall₂_congr fun a _ => ?_
  rw [Option.any_eq_true]
  simp

/-- The state after the requests, when all of them succeed. -/
def handleAll (N : Numeric) (js : Js) (requests : List Request) (db : Db) : Except Failure Db :=
  requests.foldlM (fun db r => handle N js r db) db

theorem run_of_handleAll {N : Numeric} {js : Js} {ok : Db → Request → Prop}
    {requests : List Request} {db db' : Db} (hok : ∀ r ∈ requests, ∀ s, ok s r)
    (h : handleAll N js requests db = .ok db') :
    Run (Guarded (Step N js) ok) db requests db' := by
  unfold handleAll at h
  induction requests generalizing db with
  | nil =>
      cases h
      exact .nil _
  | cons r requests ih =>
      rw [List.foldlM_cons] at h
      obtain ⟨db₁, hfirst, h⟩ := bind_eq_ok h
      exact .cons ⟨hfirst, hok r List.mem_cons_self db⟩
        (ih (fun r' hr' => hok r' (List.mem_cons_of_mem _ hr')) h)

/-- A result that succeeds with a state that passes a check. -/
def succeedsWith (check : Db → Bool) (x : Except Failure Db) : Bool :=
  match x with
  | .ok db => check db
  | .error _ => false

theorem exists_of_succeedsWith {check : Db → Bool} {x : Except Failure Db}
    (h : succeedsWith check x = true) : ∃ db, x = .ok db ∧ check db = true := by
  cases x with
  | error e => cases h
  | ok db => exact ⟨db, rfl, h⟩

/-- Bought at 100, sold at 300. -/
def buyThenSell : List Request :=
  [sampleRequest (.createTransaction (trade .buy ⟨1, amount_1⟩ ⟨100, bounded_100⟩ 10)),
    sampleRequest (.createTransaction (trade .sell ⟨1, amount_1⟩ ⟨300, bounded_300⟩ 20))]

theorem ledger_coherent_buyThenSell :
    ∃ db', handleAll decimal20_8 sampleJs buyThenSell sampleDb = .ok db' ∧
      ∀ a ∈ assetsOf db' 1, a.Coherent decimal20_8 db' := by
  have hrun : succeedsWith (fun _ => true)
      (handleAll decimal20_8 sampleJs buyThenSell sampleDb) = true := by decide +kernel
  obtain ⟨db', hok, -⟩ := exists_of_succeedsWith hrun
  refine ⟨db', hok, ledger_coherent_of_keepsTradeOrder sample_emptyManual
    (run_of_handleAll (fun r hr s => ?_) hok)⟩
  rcases List.mem_pair.mp hr with rfl | rfl
  · exact ⟨trivial, trivial⟩
  · exact ⟨trivial, trivial⟩

/-- A second buy at 200 after the sale is then dated before it. -/
def backdatedBuy : List Request :=
  buyThenSell ++
    [sampleRequest (.createTransaction (trade .buy ⟨1, amount_1⟩ ⟨200, bounded_200⟩ 30)),
      sampleRequest (.updateTransaction 3 { timestamp := some 15 })]

/-- A PATCH of the timestamp alone moves the buy before the sale; the stored realized
profit stays that of the old order. -/
theorem backdatedBuy_not_coherent :
    EmptyManual 1 sampleDb ∧ ∃ db',
      Run (Guarded (Step decimal20_8 sampleJs) fun _ r => r.InLedger) sampleDb backdatedBuy db' ∧
        ¬ ∀ a ∈ assetsOf db' 1, a.Coherent decimal20_8 db' := by
  refine ⟨sample_emptyManual, ?_⟩
  have hrun : succeedsWith (fun db => !coherentCheck decimal20_8 1 db)
      (handleAll decimal20_8 sampleJs backdatedBuy sampleDb) = true := by decide +kernel
  obtain ⟨db', hok, hcheck⟩ := exists_of_succeedsWith hrun
  refine ⟨db', run_of_handleAll (fun r hr s => ?_) hok, fun hcoherent => ?_⟩
  · simp only [backdatedBuy, buyThenSell, List.cons_append, List.nil_append, List.mem_cons,
      List.not_mem_nil, or_false] at hr
    rcases hr with rfl | rfl | rfl | rfl <;> trivial
  · rw [coherentCheck_iff.mpr hcoherent] at hcheck
    cases hcheck

end Neonfi.Ledger

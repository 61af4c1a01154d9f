import Neonfi.Ledger.Undo

/-!
# Creating a transaction and deleting it

`createTransaction` followed by `deleteTransaction`, and `createCrossPortfolioTransfer`
followed by the deletion of either leg: the row that was added is gone, and the touched
columns are recalculated.
-/

namespace Neonfi.Ledger

open Lib

/-! ## Rows that come and go -/

theorem filter_of_below {rows : List Transaction} {n : ℕ} (h : ∀ t ∈ rows, t.id < n) :
    rows.filter (fun t => t.id ≠ n) = rows := by
  apply List.filter_eq_self.mpr
  intro t ht
  have hlt := h t ht
  simpa using hlt.ne

/-- Deleting the row that was inserted last. -/
theorem rows_delete_inserted {data : TransactionData} {db db' : Db}
    (hrows : db'.transactions.rows = db.transactions.rows ++ [⟨data, db.transactions.next⟩]) :
    (db'.deleteTransactionRow db.transactions.next).transactions.rows = db.transactions.rows := by
  show db'.transactions.rows.filter _ = _
  rw [hrows, List.filter_append, filter_of_below db.transactions.below]
  simp

/-- An inserted row takes the next number and moves the sequence on. -/
theorem createTransactionRow_next {data : TransactionData} {db db' : Db}
    (h : db.createTransactionRow data = .ok db') :
    db'.transactions.rows = db.transactions.rows ++ [⟨data, db.transactions.next⟩] ∧
      db'.transactions.next = db.transactions.next + 1 := by
  unfold Db.createTransactionRow at h
  split at h
  · next transactions hinsert =>
      cases h
      exact SerialTable.of_insert? hinsert
  · cases h

theorem findOwnTransaction_eq {portfolio : Portfolio} {db : Db} {t : Transaction}
    (hmem : t ∈ db.transactions.rows) (hp : t.portfolioId = portfolio.id) :
    findOwnTransaction portfolio t.id db = .ok t := by
  have hfind : db.findTransactionById t.id = some t :=
    SerialTable.find?_eq_some_iff.mpr ⟨hmem, rfl⟩
  have hensure : ensure (t.portfolioId = portfolio.id) transactionNotFound = .ok () := if_pos hp
  unfold findOwnTransaction
  rw [hfind]
  show (ensure (t.portfolioId = portfolio.id) transactionNotFound >>= fun _ => .ok t) = .ok t
  rw [hensure]
  rfl

/-- The asset a row under a catalog name counts towards. -/
theorem recalcTarget?_eq {db : Db} {t : Transaction} {symbol : SymbolStr} {token : Token}
    (hsymbol : t.symbol? = some symbol.val)
    (htoken : db.findTokenBySymbol symbol.val = some token) :
    recalcTarget? db t = some (t.portfolioId, token.id) := by
  unfold recalcTarget?
  rw [hsymbol]
  show (db.findNamedToken symbol.val).map _ = _
  rw [SoundExcept.findNamedToken_of_ne (symbolStr_ne_empty symbol), htoken, Option.map_some]

/-- The asset row a trade needs is there afterwards, and nothing else is new. -/
theorem createIfNeeded_opened {ps : List ℕ} {p tokenId : ℕ} {db db' : Db}
    (hopened : opened ps tokenId db =
      if (db.findAsset p tokenId).isNone then [emptyAsset p tokenId] else [])
    (h : createIfNeeded (db.findAsset p tokenId).isNone p tokenId db = .ok db') :
    db'.assets.rows = db.assets.rows ++ opened ps tokenId db ∧ db'.tokens = db.tokens ∧
      db'.portfolios = db.portfolios ∧ db'.transactions = db.transactions := by
  rw [hopened]
  unfold createIfNeeded at h
  split at h
  · next hnone =>
      obtain ⟨assets, rfl, hrows, -⟩ := createAsset_ok h
      rw [if_pos hnone]
      exact ⟨hrows, rfl, rfl, rfl⟩
  · next hsome =>
      cases h
      rw [if_neg hsome, List.append_nil]
      exact ⟨rfl, rfl, rfl, rfl⟩

/-- An opened row stores an opening balance of 0. -/
theorem fits_zero_of_opened {N : Numeric} {ps : List ℕ} {p tokenId : ℕ} {opening db : Db}
    (hdrift : Drifts ps tokenId opening db) (hmem : emptyAsset p tokenId ∈ opening.assets.rows)
    (hfits : db.fits N) : N.fits 0 := by
  obtain ⟨f, hrows, hf⟩ := hdrift.assets
  have hrow : f (emptyAsset p tokenId) ∈ db.assets.rows := by
    rw [hrows]
    exact List.mem_map_of_mem hmem
  have hopening : (f (emptyAsset p tokenId)).openingBalance = 0 := by
    rcases hf (emptyAsset p tokenId) with h | ⟨-, -, d, h⟩
    · rw [h]
      rfl
    · rw [h]
      rfl
  unfold Db.fits at hfits
  simp only [Bool.and_eq_true, List.all_eq_true] at hfits
  have hdecimals := hfits.1.2 _ hrow
  refine hdecimals 0 ?_
  rw [← hopening]
  simp [Asset.decimals]

/-! ## One trade -/

theorem resolveAutoCreate_ok {env : Env} {portfolio : Portfolio} {direction : Direction}
    {token : Token} {db : Db} {auto : Bool}
    (h : resolveAutoCreate env portfolio direction token db = .ok auto) :
    auto = (db.findAsset portfolio.id token.id).isNone := by
  unfold resolveAutoCreate at h
  split at h
  · next hsome =>
      cases h
      rw [Option.isSome_iff_ne_none] at hsome
      cases hfind : db.findAsset portfolio.id token.id with
      | none => exact absurd hfind hsome
      | some a => rfl
  · next hnone =>
      have hnone : db.findAsset portfolio.id token.id = none := by
        simpa using hnone
      split at h
      · cases h
      · split at h
        · cases h
        · cases h
          rw [hnone]
          rfl

/-- What a created trade leaves behind: one row, and columns that were recalculated. -/
theorem createTrade_ok {N : Numeric} {env : Env} {portfolio : Portfolio}
    {body : CreateTransactionBody} {trade : TradeFields} {db db' : Db}
    (h : createTrade N env portfolio body trade db = .ok db') :
    ∃ token usdValue opening, db.findTokenBySymbol trade.symbol = some token ∧
      opening.assets.rows = db.assets.rows ++ opened [portfolio.id] token.id db ∧
      opening.tokens = db.tokens ∧ opening.portfolios = db.portfolios ∧
      Drifts [portfolio.id] token.id opening db' ∧
      db'.transactions.rows =
        db.transactions.rows ++ [⟨body.row N portfolio.id usdValue, db.transactions.next⟩] ∧
      db'.fits N := by
  unfold createTrade at h
  obtain ⟨token, htoken, h⟩ := bind_eq_ok h
  obtain ⟨auto, hauto, h⟩ := bind_eq_ok h
  obtain ⟨-, -, h⟩ := bind_eq_ok h
  obtain ⟨opening, hcreate, h⟩ := bind_eq_ok h
  obtain ⟨inserted, hinsert, h⟩ := bind_eq_ok h
  obtain ⟨rfl, hfits⟩ := commit_ok h
  rw [resolveAutoCreate_ok hauto] at hcreate
  have hopened : opened [portfolio.id] token.id db =
      if (db.findAsset portfolio.id token.id).isNone then [emptyAsset portfolio.id token.id]
      else [] := by
    unfold opened
    rw [List.filter_singleton]
    cases (db.findAsset portfolio.id token.id).isNone <;> rfl
  obtain ⟨hassets, htokens, hportfolios, htransactions⟩ := createIfNeeded_opened hopened hcreate
  obtain ⟨transactions, rfl, hrows⟩ := createTransactionRow_ok (insertTransaction_ok hinsert)
  have hinserted : Drifts [portfolio.id] token.id opening { opening with transactions } :=
    .of_tables rfl rfl rfl
  have hmem := @List.mem_cons_self _ portfolio.id []
  have hsettled := (hinserted.trans (.recalcAsset (N := N) hmem)).trans (.recalcTotal (N := N) hmem)
  refine ⟨token, computeUsdValue N env db trade.symbol trade.amount
    (trade.priceAtTime.map Subtype.val), opening, require_ok htoken, hassets, htokens, hportfolios,
    hsettled, ?_, hfits⟩
  rw [transactions_recalcPortfolioNetDeposit, transactions_recalcAssetBalance, ← htransactions]
  exact hrows

theorem manual_of_find {db : Db} {portfolio : Portfolio}
    (hfind : db.findPortfolioById portfolio.id = some portfolio)
    (hmanual : portfolio.type = .manual) :
    (db.findPortfolioById portfolio.id).map Portfolio.type = some .manual := by
  rw [hfind, Option.map_some, hmanual]

/-- What a trade stores is reproducible for its asset; an NFT touches none. -/
def CreatePayload.Reproducible (N : Numeric) (payload : CreatePayload) (db : Db) (p : ℕ) : Prop :=
  ∀ trade, payload.trade? = some trade → ∀ token,
    db.findTokenBySymbol trade.symbol = some token →
      Ledger.Reproducible N db p token.id token.symbol

section Create

variable {N : Numeric} {env : Env} {portfolio : Portfolio} {body : CreateTransactionBody}
variable {db db' : Db}

/-- Deleting a trade right after it was created. -/
theorem delete_createTrade_iff {trade : TradeFields}
    (hfind : db.findPortfolioById portfolio.id = some portfolio)
    (hmanual : portfolio.type = .manual) (hfits : db.fits N)
    (hsymbol : ∀ usdValue, (body.row N portfolio.id usdValue).symbol? = some trade.symbol.val)
    (hrun : createTrade N env portfolio body trade db = .ok db') :
    (∃ db₂, deleteTransaction N portfolio db.transactions.next db' = .ok db₂ ∧
        Restored db db₂) ↔
      ∀ token, db.findTokenBySymbol trade.symbol = some token →
        Ledger.Reproducible N db portfolio.id token.id token.symbol := by
  obtain ⟨token, usdValue, opening, htoken, hassets, htokens, hportfolios, hdrift, hrows, hfits'⟩ :=
    createTrade_ok hrun
  have hid := findTokenById_of_symbol htoken
  have hmem : (⟨body.row N portfolio.id usdValue, db.transactions.next⟩ : Transaction) ∈
      db'.transactions.rows := by
    rw [hrows]
    exact List.mem_append_right _ List.mem_cons_self
  have htoken' : db'.findTokenBySymbol trade.symbol = some token := by
    unfold Db.findTokenBySymbol
    rw [hdrift.tokens, htokens]
    exact htoken
  have hdelete : deleteTransaction N portfolio db.transactions.next db' =
      (recalcTargets N ([portfolio.id].map fun p => (p, token.id)) [portfolio.id]
        (db'.deleteTransactionRow db.transactions.next)).commit N := by
    have hown := @findOwnTransaction_eq portfolio _ _ hmem rfl
    have htarget := @recalcTarget?_eq db' ⟨body.row N portfolio.id usdValue,
      db.transactions.next⟩ _ _ (hsymbol usdValue) htoken'
    unfold deleteTransaction
    rw [assertManualPortfolio_eq hmanual]
    show (findOwnTransaction portfolio db.transactions.next db' >>= _) = _
    rw [show findOwnTransaction portfolio db.transactions.next db' = _ from hown]
    dsimp only [Bind.bind, Except.bind]
    rw [htarget]
    rfl
  have hdeleted : Drifts [portfolio.id] token.id opening
      (db'.deleteTransactionRow db.transactions.next) :=
    hdrift.trans (.of_tables rfl rfl rfl)
  have hundone := undone_of_drifts (N := N) hassets hportfolios htokens hdeleted
    (rows_delete_inserted hrows) (fun p hp => by
      rw [List.mem_singleton.mp hp]
      exact manual_of_find hfind hmanual) hid
  have hiff := commit_restored_iff hundone hfits (fun p hp hnone => by
      rw [List.mem_singleton.mp hp] at hnone
      refine fits_zero_of_opened (p := portfolio.id) hdrift ?_ hfits'
      rw [hassets]
      exact List.mem_append_right _ (mem_opened.mpr ⟨_, List.mem_cons_self, hnone, rfl⟩))
    (fun p hp => by
      rw [List.mem_singleton.mp hp, hfind]
      rfl)
  rw [hdelete, hiff]
  constructor
  · intro h token' htoken''
    obtain rfl : token = token' := Option.some.inj (htoken.symm.trans htoken'')
    exact h portfolio.id List.mem_cons_self
  · intro h p hp
    rw [List.mem_singleton.mp hp]
    exact h token htoken

/-- Deleting an NFT row right after it was created. -/
theorem delete_createNft {nft : NftDetail} (hpayload : body.payload = .nft nft)
    (hmanual : portfolio.type = .manual) (hfits : db.fits N)
    (hinsert : insertTransaction (body.row N portfolio.id 0) db = .ok db') :
    ∃ db₂, deleteTransaction N portfolio db.transactions.next db' = .ok db₂ ∧
      Restored db db₂ := by
  obtain ⟨transactions, rfl, hrows⟩ := createTransactionRow_ok (insertTransaction_ok hinsert)
  have hmem : (⟨body.row N portfolio.id 0, db.transactions.next⟩ : Transaction) ∈
      transactions.rows := by
    rw [hrows]
    exact List.mem_append_right _ List.mem_cons_self
  have hnone : recalcTarget? { db with transactions }
      ⟨body.row N portfolio.id 0, db.transactions.next⟩ = none := by
    unfold recalcTarget? TransactionData.symbol? CreateTransactionBody.row
    simp only [hpayload]
    rfl
  have hdelete : deleteTransaction N portfolio db.transactions.next { db with transactions } =
      (({ db with transactions } : Db).deleteTransactionRow db.transactions.next).commit N := by
    have hown := @findOwnTransaction_eq portfolio { db with transactions } _ hmem rfl
    unfold deleteTransaction
    rw [assertManualPortfolio_eq hmanual]
    show (findOwnTransaction portfolio db.transactions.next { db with transactions } >>= _) = _
    rw [show findOwnTransaction portfolio db.transactions.next { db with transactions } = _ from
      hown]
    dsimp only [Bind.bind, Except.bind]
    rw [hnone]
    rfl
  have hundone : Undone N [] 0 "" db
      (({ db with transactions } : Db).deleteTransactionRow db.transactions.next) := by
    refine ⟨@rows_delete_inserted _ _ { db with transactions } hrows, ?_, ?_⟩
    · show db.assets.rows = (db.assets.rows ++ []).map _
      rw [List.append_nil]
      refine ((List.map_congr_left fun a _ => ?_).trans (List.map_id _)).symm
      exact resettled_of_notMem fun _ hp => absurd hp List.not_mem_nil
    · refine ((List.map_congr_left fun q _ => ?_).trans (List.map_id _)).symm
      exact if_neg List.not_mem_nil
  rw [hdelete, commit_restored_iff hundone hfits (fun _ hp => absurd hp List.not_mem_nil)
    fun _ hp => absurd hp List.not_mem_nil]
  exact fun _ hp => absurd hp List.not_mem_nil

theorem delete_createTransaction_iff
    (hfind : db.findPortfolioById portfolio.id = some portfolio) (hfits : db.fits N)
    (hrun : createTransaction N env portfolio body db = .ok db') :
    (∃ db₂, deleteTransaction N portfolio db.transactions.next db' = .ok db₂ ∧
        Restored db db₂) ↔
      body.payload.Reproducible N db portfolio.id := by
  unfold createTransaction at hrun
  obtain ⟨_, hassert, hrun⟩ := bind_eq_ok hrun
  have hmanual := assertManualPortfolio_ok hassert
  unfold CreatePayload.Reproducible CreatePayload.trade?
  cases hpayload : body.payload with
  | native trade =>
      rw [hpayload] at hrun
      rw [delete_createTrade_iff hfind hmanual hfits (fun usdValue => ?_) hrun]
      · simp only [Option.some.injEq, forall_eq']
      · simp [CreateTransactionBody.row, TransactionData.symbol?, hpayload, Detail.trade?,
          TradeFields.stored]
  | erc20 trade info =>
      rw [hpayload] at hrun
      rw [delete_createTrade_iff hfind hmanual hfits (fun usdValue => ?_) hrun]
      · simp only [Option.some.injEq, forall_eq']
      · simp [CreateTransactionBody.row, TransactionData.symbol?, hpayload, Detail.trade?,
          TradeFields.stored]
  | nft nft =>
      rw [hpayload] at hrun
      obtain ⟨inserted, hinsert, hrun⟩ := bind_eq_ok hrun
      obtain ⟨rfl, -⟩ := commit_ok hrun
      have hrestored := delete_createNft hpayload hmanual hfits hinsert
      simp only [hrestored, reduceCtorEq, false_implies, implies_true]

end Create

/-! ## A transfer -/

theorem resolveDest_find {source dest : Portfolio} {destPortfolioId : ℕ} {db : Db}
    (h : resolveDest source destPortfolioId db = .ok dest) :
    db.findPortfolioById destPortfolioId = some dest ∧ dest.type = .manual := by
  unfold resolveDest at h
  obtain ⟨dest', hfind, h⟩ := bind_eq_ok h
  obtain ⟨_, -, h⟩ := bind_eq_ok h
  obtain ⟨_, -, h⟩ := bind_eq_ok h
  obtain ⟨_, hne, h⟩ := bind_eq_ok h
  cases h
  refine ⟨require_ok hfind, ?_⟩
  have hne := ensure_ok hne
  cases htype : dest.type with
  | manual => rfl
  | connected => exact absurd htype hne

section Transfer

variable {N : Numeric} {env : Env} {source : Portfolio} {body : TransferBody} {db db' : Db}

/-- What a transfer leaves behind: two rows, and columns that were recalculated. -/
theorem createCrossPortfolioTransfer_drifts
    (h : createCrossPortfolioTransfer N env source body db = .ok db') :
    ∃ dest token sourceAsset usdValue opening, source.type = .manual ∧
      db.findPortfolioById body.destPortfolioId = some dest ∧ dest.id ≠ source.id ∧
      dest.type = .manual ∧ db.findTokenBySymbol body.symbol = some token ∧
      db.findAsset source.id token.id = some sourceAsset ∧
      usdValue = N.fix (body.amount * sourceAsset.netDeposit / sourceAsset.balance) ∧
      opening.assets.rows = db.assets.rows ++ opened [source.id, dest.id] token.id db ∧
      opening.tokens = db.tokens ∧ opening.portfolios = db.portfolios ∧
      Drifts [source.id, dest.id] token.id opening db' ∧
      db'.transactions.rows = db.transactions.rows ++
        [⟨transferLeg N env body source.id .sell usdValue, db.transactions.next⟩,
          ⟨transferLeg N env body dest.id .buy usdValue, db.transactions.next + 1⟩] ∧
      db'.fits N := by
  unfold createCrossPortfolioTransfer at h
  obtain ⟨_, hassert, h⟩ := bind_eq_ok h
  obtain ⟨dest, hdest, h⟩ := bind_eq_ok h
  obtain ⟨token, htoken, h⟩ := bind_eq_ok h
  obtain ⟨sourceAsset, hlock, h⟩ := bind_eq_ok h
  obtain ⟨opening, hcreate, h⟩ := bind_eq_ok h
  obtain ⟨sold, hsell, h⟩ := bind_eq_ok h
  obtain ⟨bought, hbuy, h⟩ := bind_eq_ok h
  obtain ⟨rfl, hfits⟩ := commit_ok h
  obtain ⟨hfind, htype⟩ := resolveDest_find hdest
  obtain ⟨-, hne⟩ := resolveDest_ok hdest
  obtain ⟨hheld, -⟩ := lockTransferSource_ok hlock
  have hopened : opened [source.id, dest.id] token.id db =
      if (db.findAsset dest.id token.id).isNone then [emptyAsset dest.id token.id] else [] := by
    unfold opened
    rw [List.filter_cons_of_neg (by rw [hheld]; simp), List.filter_singleton]
    cases (db.findAsset dest.id token.id).isNone <;> rfl
  obtain ⟨hassets, htokens, hportfolios, htransactions⟩ := createIfNeeded_opened hopened hcreate
  obtain ⟨hrowsSold, hnextSold⟩ := createTransactionRow_next hsell
  obtain ⟨hrowsBought, -⟩ := createTransactionRow_next hbuy
  obtain ⟨rows₁, rfl, -⟩ := createTransactionRow_ok hsell
  obtain ⟨rows₂, rfl, -⟩ := createTransactionRow_ok hbuy
  have hinserted : Drifts [source.id, dest.id] token.id opening
      { opening with transactions := rows₂ } := .of_tables rfl rfl rfl
  have hsource : source.id ∈ [source.id, dest.id] := List.mem_cons_self
  have hmem : dest.id ∈ [source.id, dest.id] := List.mem_cons_of_mem _ List.mem_cons_self
  have hsettledSource := (hinserted.trans (.recalcAsset (N := N) hsource)).trans
    (.recalcTotal (N := N) hsource)
  have hsettled := (hsettledSource.trans (.recalcAsset (N := N) hmem)).trans
    (.recalcTotal (N := N) hmem)
  refine ⟨dest, token, sourceAsset, _, opening, assertManualPortfolio_ok hassert, hfind, hne,
    htype, require_ok htoken, hheld, rfl, hassets, htokens, hportfolios, hsettled, ?_, hfits⟩
  have hids := hrowsBought
  rw [hrowsSold, hnextSold, htransactions, List.append_assoc, List.singleton_append] at hids
  simpa only [transactions_recalcPortfolioNetDeposit, transactions_recalcAssetBalance] using hids

/-- The rows of a fresh group are the two legs, and without them the rows are those of before. -/
theorem legs_of_fresh {sell buy : TransactionData} {groupId : String}
    (hfresh : ∀ t ∈ db.transactions.rows, t.transferGroupId ≠ some groupId)
    (hsell : sell.transferGroupId = some groupId) (hbuy : buy.transferGroupId = some groupId)
    (hrows : db'.transactions.rows = db.transactions.rows ++
      [⟨sell, db.transactions.next⟩, ⟨buy, db.transactions.next + 1⟩]) :
    db'.transactions.rows.filter (fun t => t.transferGroupId = some groupId) =
        [⟨sell, db.transactions.next⟩, ⟨buy, db.transactions.next + 1⟩] ∧
      ((db'.deleteTransactionRow db.transactions.next).deleteTransactionRow
        (db.transactions.next + 1)).transactions.rows = db.transactions.rows := by
  have hnone : db.transactions.rows.filter (fun t => t.transferGroupId = some groupId) = [] := by
    apply List.filter_eq_nil_iff.mpr
    intro t ht hgroup
    exact hfresh t ht (by simpa using hgroup)
  have hbelow : ∀ t ∈ db.transactions.rows, t.id < db.transactions.next + 1 := fun t ht =>
    Nat.lt_succ_of_lt (db.transactions.below t ht)
  constructor
  · rw [hrows, List.filter_append, hnone]
    simp [hsell, hbuy]
  · show (db'.transactions.rows.filter _).filter _ = _
    rw [hrows, List.filter_append, filter_of_below db.transactions.below, List.filter_append,
      List.filter_cons_of_neg (by simp), List.filter_singleton]
    simp only [ne_eq, Nat.add_eq_left, one_ne_zero, not_false_eq_true, decide_true, cond_true]
    rw [filter_of_below hbelow]
    simp

/-- A portfolio and the row of the transfer that is a leg of it. -/
def TransferLeg (source dest : Portfolio) (db : Db) (leg : Portfolio × ℕ) : Prop :=
  leg = (source, db.transactions.next) ∨ leg = (dest, db.transactions.next + 1)

/-- What a transfer stores is reproducible for both its assets. -/
def TransferBody.Reproducible (N : Numeric) (body : TransferBody) (db : Db) (sourceId : ℕ) :
    Prop :=
  ∀ token, db.findTokenBySymbol body.symbol = some token →
    Ledger.Reproducible N db sourceId token.id token.symbol ∧
      Ledger.Reproducible N db body.destPortfolioId token.id token.symbol

/-- Deleting a transfer by either leg right after it was created. -/
theorem delete_transfer_iff {dest : Portfolio} {leg : Portfolio × ℕ}
    (hfind : db.findPortfolioById source.id = some source)
    (hdest : db.findPortfolioById body.destPortfolioId = some dest) (hfits : db.fits N)
    (hfresh : ∀ t ∈ db.transactions.rows, t.transferGroupId ≠ some env.uuid)
    (hrun : createCrossPortfolioTransfer N env source body db = .ok db')
    (hleg : TransferLeg source dest db leg) :
    (∃ db₂, deleteTransaction N leg.1 leg.2 db' = .ok db₂ ∧ Restored db db₂) ↔
      body.Reproducible N db source.id := by
  obtain ⟨dest', token, -, usdValue, opening, hsource, hdest', hne, htype, htoken, -, -, hassets,
    htokens, hportfolios, hdrift, hrows, hfits'⟩ := createCrossPortfolioTransfer_drifts hrun
  obtain rfl : dest = dest' := Option.some.inj (hdest.symm.trans hdest')
  have hid := findTokenById_of_symbol htoken
  have hdestId : dest.id = body.destPortfolioId := (SerialTable.find?_eq_some_iff.mp hdest).2
  have htoken' : db'.findTokenBySymbol body.symbol = some token := by
    unfold Db.findTokenBySymbol
    rw [hdrift.tokens, htokens]
    exact htoken
  obtain ⟨hlegs, hback⟩ := legs_of_fresh hfresh rfl rfl hrows
  have htransfer : deleteTransfer N env.uuid db' =
      (recalcTargets N ([source.id, dest.id].map fun p => (p, token.id)) [source.id, dest.id]
        ((db'.deleteTransactionRow db.transactions.next).deleteTransactionRow
          (db.transactions.next + 1))).commit N := by
    have htarget : ∀ portfolioId direction id,
        recalcTarget? db' ⟨transferLeg N env body portfolioId direction usdValue, id⟩ =
          some (portfolioId, token.id) := fun _ _ _ => recalcTarget?_eq rfl htoken'
    unfold deleteTransfer
    rw [hlegs]
    simp only [List.filterMap_cons, htarget, List.filterMap_nil, List.map_cons, List.map_nil,
      List.foldl_cons, List.foldl_nil]
    have hids : ([(transferLeg N env body source.id .sell usdValue).portfolioId,
        (transferLeg N env body dest.id .buy usdValue).portfolioId] : List ℕ).dedup =
          [source.id, dest.id] := by
      show [source.id, dest.id].dedup = _
      rw [List.dedup_cons_of_notMem (by simpa using hne.symm)]
      rfl
    rw [hids]
  have hdelete : deleteTransaction N leg.1 leg.2 db' = deleteTransfer N env.uuid db' := by
    have hown : ∀ (portfolio : Portfolio) direction id, portfolio.type = .manual →
        (⟨transferLeg N env body portfolio.id direction usdValue, id⟩ : Transaction) ∈
          db'.transactions.rows →
        deleteTransaction N portfolio id db' = deleteTransfer N env.uuid db' := by
      intro portfolio direction id hmanual hmem
      have hrow := @findOwnTransaction_eq portfolio _ _ hmem rfl
      unfold deleteTransaction
      rw [assertManualPortfolio_eq hmanual]
      show (findOwnTransaction portfolio id db' >>= _) = _
      rw [show findOwnTransaction portfolio id db' = _ from hrow]
      rfl
    rcases hleg with rfl | rfl
    · refine hown source .sell _ hsource ?_
      rw [hrows]
      exact List.mem_append_right _ List.mem_cons_self
    · refine hown dest .buy _ htype ?_
      rw [hrows]
      exact List.mem_append_right _ (List.mem_cons_of_mem _ List.mem_cons_self)
  have hdeleted : Drifts [source.id, dest.id] token.id opening
      ((db'.deleteTransactionRow db.transactions.next).deleteTransactionRow
        (db.transactions.next + 1)) := hdrift.trans (.of_tables rfl rfl rfl)
  have hmanual : ∀ p ∈ [source.id, dest.id],
      (db.findPortfolioById p).map Portfolio.type = some .manual := by
    intro p hp
    rcases List.mem_pair.mp hp with rfl | rfl
    · exact manual_of_find hfind hsource
    · rw [hdestId, hdest, Option.map_some, htype]
  have hundone := undone_of_drifts (N := N) hassets hportfolios htokens hdeleted hback hmanual hid
  have hiff := commit_restored_iff hundone hfits (fun p hp hnone => by
      refine fits_zero_of_opened (p := p) hdrift ?_ hfits'
      rw [hassets]
      exact List.mem_append_right _ (mem_opened.mpr ⟨p, hp, hnone, rfl⟩))
    (fun p hp => by
      have htypeOf := hmanual p hp
      cases hp : db.findPortfolioById p with
      | none => simp [hp] at htypeOf
      | some q => rfl)
  rw [hdelete, htransfer, hiff]
  constructor
  · intro h token' htoken''
    obtain rfl : token = token' := Option.some.inj (htoken.symm.trans htoken'')
    rw [← hdestId]
    exact ⟨h source.id List.mem_cons_self, h dest.id (List.mem_cons_of_mem _ List.mem_cons_self)⟩
  · intro h p hp
    obtain ⟨hsourceAsset, hdestAsset⟩ := h token htoken
    rcases List.mem_pair.mp hp with rfl | rfl
    · exact hsourceAsset
    · rw [hdestId]
      exact hdestAsset

end Transfer

/-- In every state whose numbers fit their columns, whatever the transaction or the transfer:
creating it and deleting it again restores every holding and every total exactly when what
the touched assets and their portfolios stored is what a recalculation makes of the ledger.
The group id of a new transfer is one no row has. -/
theorem createThenDelete_iff {N : Numeric} {env : Env} {portfolio : Portfolio} {db : Db}
    (hfind : db.findPortfolioById portfolio.id = some portfolio) (hfits : db.fits N) :
    (∀ body db', createTransaction N env portfolio body db = .ok db' →
      ((∃ db₂, deleteTransaction N portfolio db.transactions.next db' = .ok db₂ ∧
          Restored db db₂) ↔
        body.payload.Reproducible N db portfolio.id)) ∧
    ∀ body dest leg db', db.findPortfolioById body.destPortfolioId = some dest →
      (∀ t ∈ db.transactions.rows, t.transferGroupId ≠ some env.uuid) →
      createCrossPortfolioTransfer N env portfolio body db = .ok db' →
      TransferLeg portfolio dest db leg →
      ((∃ db₂, deleteTransaction N leg.1 leg.2 db' = .ok db₂ ∧ Restored db db₂) ↔
        body.Reproducible N db portfolio.id) := by
  constructor
  · intro body db' hrun
    exact delete_createTransaction_iff hfind hfits hrun
  · intro body dest leg db' hdest hfresh hrun hleg
    exact delete_transfer_iff hfind hdest hfits hfresh hrun hleg

/-! ### A portfolio that holds two units -/

def reproducibleCheck (N : Numeric) (p : ℕ) (token : Token) (db : Db) : Bool :=
  decide (holding db p token.id =
      (replay (heldAsset db p token.id) (ledgerEvents db p token.symbol)).stored N) &&
    decide ((db.findPortfolioById p).map Portfolio.netDeposit =
      some (N.fix (netDepositSum db p)))

theorem reproducible_of_check {N : Numeric} {p : ℕ} {token : Token} {db : Db}
    (h : reproducibleCheck N p token db = true) : Reproducible N db p token.id token.symbol := by
  obtain ⟨hasset, htotal⟩ := Bool.and_eq_true_iff.mp h
  exact ⟨of_decide_eq_true hasset, of_decide_eq_true htotal⟩

/-- Portfolio 1 of the sample once it has bought 2 ETH at 100. -/
def sampleBuyer : Portfolio := { id := 1, userId := 1, type := .manual, netDeposit := 200 }

def sampleOther : Portfolio := { id := 2, userId := 1, type := .manual }

def boughtTwo : List Request :=
  [sampleRequest (.createTransaction (trade .buy ⟨2, amount_2⟩ ⟨100, bounded_100⟩ 10))]

def saleBody : CreateTransactionBody := trade .sell ⟨1, amount_1⟩ ⟨300, bounded_300⟩ 20

def moveBody : TransferBody where
  destPortfolioId := 2
  symbol := eth
  amount := ⟨1, amount_1⟩

def undoableCheck (db : Db) : Bool :=
  db.fits decimal20_8 && decide (db.findPortfolioById 1 = some sampleBuyer) &&
    decide (db.findPortfolioById 2 = some sampleOther) &&
    decide (db.findTokenBySymbol eth.val = some ethToken) &&
    db.transactions.rows.all (fun t => t.transferGroupId ≠ some sampleEnv.uuid) &&
    reproducibleCheck decimal20_8 1 ethToken db && reproducibleCheck decimal20_8 2 ethToken db &&
    succeedsWith (fun _ => true) (createTransaction decimal20_8 sampleEnv sampleBuyer saleBody db) &&
    succeedsWith (fun _ => true)
      (createCrossPortfolioTransfer decimal20_8 sampleEnv sampleBuyer moveBody db)

/-- A sale, or a transfer deleted by its incoming leg, leaves no trace. -/
theorem createThenDelete_boughtTwo :
    ∃ db, handleAll decimal20_8 sampleJs boughtTwo sampleDb = .ok db ∧
      (∃ db' db₂, createTransaction decimal20_8 sampleEnv sampleBuyer saleBody db = .ok db' ∧
        deleteTransaction decimal20_8 sampleBuyer db.transactions.next db' = .ok db₂ ∧
        Restored db db₂) ∧
      ∃ db' db₂, createCrossPortfolioTransfer decimal20_8 sampleEnv sampleBuyer moveBody db =
          .ok db' ∧
        deleteTransaction decimal20_8 sampleOther (db.transactions.next + 1) db' = .ok db₂ ∧
        Restored db db₂ := by
  have hrun : succeedsWith undoableCheck
      (handleAll decimal20_8 sampleJs boughtTwo sampleDb) = true := by decide +kernel
  obtain ⟨db, hok, hcheck⟩ := exists_of_succeedsWith hrun
  unfold undoableCheck at hcheck
  simp only [Bool.and_eq_true, decide_eq_true_eq, List.all_eq_true] at hcheck
  obtain
    ⟨⟨⟨⟨⟨⟨⟨⟨hfits, hfind⟩, hdest⟩, htoken⟩, hfresh⟩, hsource⟩, hother⟩, hsale⟩, hmove⟩ := hcheck
  obtain ⟨sold, hsold, -⟩ := exists_of_succeedsWith hsale
  obtain ⟨moved, hmoved, -⟩ := exists_of_succeedsWith hmove
  have hiff := @createThenDelete_iff decimal20_8 sampleEnv sampleBuyer db hfind hfits
  obtain ⟨db₂, hdeleted, hrestored⟩ := (hiff.1 saleBody sold hsold).mpr fun t ht token ht' => by
    cases ht
    obtain rfl : ethToken = token := Option.some.inj (htoken.symm.trans ht')
    exact reproducible_of_check hsource
  obtain ⟨db₃, hundone, hrestored'⟩ := (hiff.2 moveBody sampleOther
      (sampleOther, db.transactions.next + 1) moved hdest (fun t ht => by simpa using hfresh t ht)
      hmoved (.inr rfl)).mpr fun token ht => by
    obtain rfl : ethToken = token := Option.some.inj (htoken.symm.trans ht)
    exact ⟨reproducible_of_check hsource, reproducible_of_check hother⟩
  exact ⟨db, hok, ⟨sold, db₂, hsold, hdeleted, hrestored⟩, moved, db₃, hmoved, hundone, hrestored'⟩

theorem decimal_500 : (0 : ℚ) ≤ 500 := by norm_num

/-- A manual portfolio with a starting balance of 500: after a buy of 1 ETH at 100 and its
deletion the net deposit is 0. -/
theorem startingBalance_not_restored :
    ∃ portfolio db db' db₂, createManualPortfolio decimal20_8 sampleEnv 1
        (some ⟨500, decimal_500⟩) [] sampleDb = .ok (portfolio.id, db) ∧
      db.findPortfolioById portfolio.id = some portfolio ∧
      createTransaction decimal20_8 sampleEnv portfolio
        (trade .buy ⟨1, amount_1⟩ ⟨100, bounded_100⟩ 10) db = .ok db' ∧
      deleteTransaction decimal20_8 portfolio db.transactions.next db' = .ok db₂ ∧
      ¬ Restored db db₂ := by
  have hcheck : (match createManualPortfolio decimal20_8 sampleEnv 1 (some ⟨500, decimal_500⟩) []
      sampleDb with
      | .ok (p, db) => (db.findPortfolioById p).any fun portfolio =>
          decide (portfolio.id = p) &&
            succeedsWith (fun db' => succeedsWith (fun db₂ => decide
                ((db₂.findPortfolioById p).map Portfolio.netDeposit ≠ some portfolio.netDeposit))
                (deleteTransaction decimal20_8 portfolio db.transactions.next db'))
              (createTransaction decimal20_8 sampleEnv portfolio
                (trade .buy ⟨1, amount_1⟩ ⟨100, bounded_100⟩ 10) db)
      | .error _ => false) = true := by decide +kernel
  split at hcheck
  · next p db hcreate =>
      rw [Option.any_eq_true] at hcheck
      obtain ⟨portfolio, hfind, hcheck⟩ := hcheck
      obtain ⟨hid, hcheck⟩ := Bool.and_eq_true_iff.mp hcheck
      obtain rfl := of_decide_eq_true hid
      obtain ⟨db', hbuy, hcheck⟩ := exists_of_succeedsWith hcheck
      obtain ⟨db₂, hdelete, hcheck⟩ := exists_of_succeedsWith hcheck
      refine ⟨portfolio, db, db', db₂, hcreate, hfind, hbuy, hdelete, fun hrestored => ?_⟩
      have hsame := hrestored.netDeposit portfolio.id
      rw [hfind] at hsame
      exact of_decide_eq_true hcheck hsame
  · cases hcheck

end Neonfi.Ledger

import Neonfi.Ledger.Frame

/-!
# What the forward pass prepares

Every prepared row carries the body that the single-create schema parsed from its cells,
under the catalog symbol of its token.
-/

namespace Neonfi.Ledger

open Lib

theorem bind_eq_ok_issue {α β : Type} {x : Except Issue α} {f : α → Except Issue β} {b : β}
    (h : (x >>= f) = .ok b) : ∃ a, x = .ok a ∧ f a = .ok b := by
  cases x with
  | error e => cases h
  | ok a => exact ⟨a, rfl, h⟩

theorem parseBounded_ok {field value : String} {q : BoundedDecimal}
    (h : parseBounded field value = .ok q) : decimal? value = some q.val := by
  unfold parseBounded at h
  split at h
  · cases h
  · next q' hq =>
      split at h
      · cases h
        exact hq
      · cases h

theorem parseAmount_ok {field value : String} {q : AmountStr}
    (h : parseAmount field value = .ok q) : decimal? value = some q.val := by
  unfold parseAmount at h
  obtain ⟨q', hparse, h⟩ := bind_eq_ok_issue h
  split at h
  · cases h
    exact parseBounded_ok hparse
  · cases h

theorem parseSymbol_ok {field value : String} {s : SymbolStr}
    (h : parseSymbol field value = .ok s) : s.val = value := by
  unfold parseSymbol at h
  split at h
  · split at h
    · cases h
      rfl
    · cases h
  · cases h

theorem parseText_ok {field : String} {cap : ℕ} {value text : Option String}
    (h : parseText field cap value = .ok text) : text = value := by
  unfold parseText at h
  split at h
  · cases h
    rfl
  · split at h
    · cases h
      rfl
    · cases h

theorem parseTimestamp_ok {env : Env} {ts ts' : Millis} (h : parseTimestamp env ts = .ok ts') :
    ts' = ts := by
  unfold parseTimestamp at h
  split at h
  · cases h
    rfl
  · cases h

/-- The body that a candidate parses to has the candidate's fields. -/
theorem safeParse_ok {env : Env} {c : Candidate} {body : CreateTransactionBody}
    (h : safeParse env c = .ok body) :
    ∃ (trade : TradeFields) (price : BoundedDecimal),
      body.payload = .native trade ∧ decimal? c.amount = some trade.amount.val ∧
      trade.symbol.val = c.symbol ∧ trade.priceAtTime = some price ∧
      decimal? c.priceAtTime = some price.val ∧ body.direction = c.direction ∧
      body.timestamp = c.timestamp ∧ body.transactionHash = c.transactionHash := by
  unfold safeParse at h
  obtain ⟨amount, hamount, h⟩ := bind_eq_ok_issue h
  obtain ⟨symbol, hsymbol, h⟩ := bind_eq_ok_issue h
  obtain ⟨price, hprice, h⟩ := bind_eq_ok_issue h
  obtain ⟨timestamp, htimestamp, h⟩ := bind_eq_ok_issue h
  obtain ⟨hash, hhash, h⟩ := bind_eq_ok_issue h
  obtain ⟨fromAddr, -, h⟩ := bind_eq_ok_issue h
  obtain ⟨toAddr, -, h⟩ := bind_eq_ok_issue h
  obtain ⟨gasFee, -, h⟩ := bind_eq_ok_issue h
  obtain ⟨notes, -, h⟩ := bind_eq_ok_issue h
  cases h
  exact ⟨_, price, rfl, parseAmount_ok hamount, parseSymbol_ok hsymbol, rfl,
    parseBounded_ok hprice, rfl, parseTimestamp_ok htimestamp, parseText_ok hhash⟩

/-! ## Prepared rows -/

section

variable {N : Numeric} {js : Js} {env : Env} {portfolio : Portfolio} {db : Db}

theorem rowToken_eq {raw : BulkRow} {token : Token} (h : rowToken js db raw = some token) :
    db.findTokenBySymbol token.symbol = some token := by
  unfold rowToken at h
  split at h
  · cases h
  · rw [(findTokenBySymbol_eq h).2]
    exact h

/-- The prepared row books the catalog token that its body names. -/
def PreparedTxRow.Names (p : PreparedTxRow) (db : Db) : Prop :=
  ∃ (trade : TradeFields) (token : Token), p.body.payload = .native trade ∧
    db.findTokenBySymbol trade.symbol.val = some token ∧ p.tokenId = token.id

theorem applyRunning_prepared {plan : Plan} {token : Token} {direction : Direction}
    {amountCell : String} {amount : ℚ} {b b' : Batch} {createAsset : Bool}
    (h : applyRunning js plan token direction amountCell amount b = .ok (b', createAsset)) :
    b'.prepared = b.prepared ∧ b'.errors = b.errors ∧ b'.seenHashes = b.seenHashes := by
  unfold applyRunning at h
  split at h
  · split at h
    · cases h
      exact ⟨rfl, rfl, rfl⟩
    · split at h
      · cases h
      · cases h
        exact ⟨rfl, rfl, rfl⟩
  · split at h
    · cases h
    · dsimp only at h
      split at h
      · cases h
      · cases h
        exact ⟨rfl, rfl, rfl⟩

theorem names_prepareRow {row : ℕ} {raw : BulkRow} {b : Batch}
    (h : ∀ p ∈ b.prepared, p.Names db) :
    ∀ p ∈ (prepareRow N js env portfolio db row raw b).prepared, p.Names db := by
  have hparsed : ∀ {token : Token} {body : CreateTransactionBody} (p : PreparedTxRow),
      rowToken js db raw = some token →
      safeParse env (rowCandidate js env token.symbol raw) = .ok body →
      p.body = body → p.tokenId = token.id → p.Names db := by
    intro token body p htoken hbody hp hid
    obtain ⟨trade, price, hpayload, -, hsymbol, -⟩ := safeParse_ok hbody
    refine ⟨trade, token, hp ▸ hpayload, ?_, hid⟩
    rw [hsymbol]
    exact rowToken_eq htoken
  unfold prepareRow
  split
  · next token _ htoken =>
      split
      · exact h
      · next body hbody =>
          dsimp only
          split
          · intro p hp
            rcases List.mem_append.mp hp with hp | hp
            · exact h p hp
            · rw [List.mem_singleton.mp hp]
              exact hparsed _ htoken hbody rfl rfl
          · split
            · exact h
            · next b' createAsset hrunning =>
                intro p hp
                rcases List.mem_append.mp hp with hp | hp
                · rw [(applyRunning_prepared hrunning).1] at hp
                  exact h p hp
                · rw [List.mem_singleton.mp hp]
                  exact hparsed _ htoken hbody rfl rfl
  · exact h

theorem names_prepareRows {rows : List BulkRow} {row : ℕ} {b : Batch}
    (h : ∀ p ∈ b.prepared, p.Names db) :
    ∀ p ∈ (prepareRows N js env portfolio db rows row b).prepared, p.Names db := by
  induction rows generalizing row b with
  | nil => exact h
  | cons raw rows ih => exact ih (names_prepareRow h)

/-- A bulk import either writes nothing or runs its write transaction on rows that name
their tokens. -/
theorem bulkCreateTransactions_ok {body : BulkBody} {result : Db × BulkResult}
    (h : bulkCreateTransactions N js env portfolio body db = .ok result) :
    portfolio.type = .manual ∧ (result.1 = db ∨ ∃ toInsert : List PreparedTxRow,
      (∀ p ∈ toInsert, p.Names db) ∧ writePrepared N portfolio.id toInsert db = .ok result.1) := by
  unfold bulkCreateTransactions at h
  obtain ⟨_, hmanual, h⟩ := bind_eq_ok h
  refine ⟨ensure_ok hmanual, ?_⟩
  obtain ⟨-, -, h⟩ := bind_eq_ok h
  obtain ⟨-, -, h⟩ := bind_eq_ok h
  dsimp only at h
  split at h
  · cases h
    exact .inl rfl
  · obtain ⟨db', hwrite, h⟩ := bind_eq_ok h
    cases h
    refine .inr ⟨_, fun p hp => ?_, hwrite⟩
    exact names_prepareRows (fun p hp => by cases hp) p (List.mem_of_mem_filter hp)

end

/-! ## Prepared openings -/

section

variable {N : Numeric} {js : Js} {env : Env} {userId : ℕ} {portfolio : Portfolio} {db : Db}

theorem known_prepareAssetRow {row : ℕ} {raw : BulkRow} {b : AssetBatch}
    (h : ∀ p ∈ b.prepared, ∃ token, db.findTokenById p.tokenId = some token) :
    ∀ p ∈ (prepareAssetRow N js env userId portfolio db row raw b).prepared,
      ∃ token, db.findTokenById p.tokenId = some token := by
  unfold prepareAssetRow
  split
  · next token _ htoken =>
      split
      · exact h
      · split
        · exact h
        · split
          · exact h
          · split
            · exact h
            · intro p hp
              rcases List.mem_append.mp hp with hp | hp
              · exact h p hp
              · rw [List.mem_singleton.mp hp]
                exact ⟨token, findTokenById_of_symbol (rowToken_eq htoken)⟩
  · exact h

theorem known_prepareAssetRows {rows : List BulkRow} {row : ℕ} {b : AssetBatch}
    (h : ∀ p ∈ b.prepared, ∃ token, db.findTokenById p.tokenId = some token) :
    ∀ p ∈ (prepareAssetRows N js env userId portfolio db rows row b).prepared,
      ∃ token, db.findTokenById p.tokenId = some token := by
  induction rows generalizing row b with
  | nil => exact h
  | cons raw rows ih => exact ih (known_prepareAssetRow h)

theorem bulkCreateAssets_ok {body : BulkBody} {result : Db × BulkResult}
    (h : bulkCreateAssets N js env userId portfolio body db = .ok result) :
    portfolio.type = .manual ∧ (result.1 = db ∨ ∃ prepared : List PreparedAssetRow,
      (∀ p ∈ prepared, ∃ token, db.findTokenById p.tokenId = some token) ∧
        writeOpenings N portfolio.id prepared db = .ok result.1) := by
  unfold bulkCreateAssets at h
  obtain ⟨_, hmanual, h⟩ := bind_eq_ok h
  refine ⟨ensure_ok hmanual, ?_⟩
  obtain ⟨-, -, h⟩ := bind_eq_ok h
  obtain ⟨-, -, h⟩ := bind_eq_ok h
  dsimp only at h
  split at h
  · cases h
    exact .inl rfl
  · obtain ⟨db', hwrite, h⟩ := bind_eq_ok h
    cases h
    exact .inr ⟨_, known_prepareAssetRows (fun p hp => by cases hp), hwrite⟩

end

end Neonfi.Ledger

import Neonfi.Ledger.CoherentRuns
import Neonfi.Wallet.Sync

/-!
# Balances of the held tokens

Which row every holding of a summary is mapped to, and what its balance is after a pass.
-/

namespace Neonfi.Wallet

open Lib
open Ledger (Db Portfolio Asset sampleJs sampleEnv)

/-- The asset row of the token shows the balance. -/
def Shows (p : ℕ) (db : Db) (tokenId : ℕ) (balance : ℚ) : Prop :=
  (db.findAsset p tokenId).map Asset.balance = some balance

instance (p : ℕ) (db : Db) (tokenId : ℕ) (balance : ℚ) : Decidable (Shows p db tokenId balance) :=
  inferInstanceAs (Decidable (_ = _))

/-- The held list of a resolution. -/
def heldTokens (text : Text) (rows : List Resolved) : List HeldToken :=
  rows.map fun r => r.holding.held text r.token

section Pass

variable {text : Text} {p : ℕ} {cost : Option CostMap} {db : Db} {rows : List Resolved}

theorem mem_setIds {held : List HeldToken} {h : HeldToken} (hmem : h ∈ held) :
    h.tokenId ∈ setIds held cost := by
  unfold setIds
  rw [List.mem_eraseDups]
  exact List.mem_append_left _ (List.mem_map_of_mem hmem)

theorem mem_setIds_heldTokens {r : Resolved} (hr : r ∈ rows) :
    r.token.id ∈ setIds (heldTokens text rows) cost :=
  mem_setIds (@List.mem_map_of_mem _ _ _ _ (fun r : Resolved => r.holding.held text r.token) hr)

/-- The map by token keeps one holding of every row, the last one. -/
theorem heldById_heldTokens {r : Resolved} (hr : r ∈ rows) :
    ∃ last ∈ rows, last.token.id = r.token.id ∧
      heldById (heldTokens text rows) r.token.id = some (last.holding.held text last.token) := by
  unfold heldById heldTokens
  rw [← List.map_reverse, List.find?_map]
  cases hlast : rows.reverse.find? ((fun h : HeldToken => decide (h.tokenId = r.token.id)) ∘
      fun r => r.holding.held text r.token) with
  | none =>
      have hnone := List.find?_eq_none.mp hlast r (List.mem_reverse.mpr hr)
      simp [WalletToken.held] at hnone
  | some last =>
      have hmem := List.mem_reverse.mp (List.mem_of_find?_eq_some hlast)
      have hid := List.find?_some hlast
      simp only [Function.comp_apply, WalletToken.held, decide_eq_true_eq] at hid
      exact ⟨last, hmem, hid, rfl⟩

theorem heldById_last {rows₁ rows₂ : List Resolved} {r : Resolved}
    (hlast : ∀ r' ∈ rows₂, r'.token.id ≠ r.token.id) :
    heldById (heldTokens text (rows₁ ++ r :: rows₂)) r.token.id =
      some (r.holding.held text r.token) := by
  unfold heldById heldTokens
  rw [← List.map_reverse, List.find?_map, List.reverse_append, List.reverse_cons,
    List.append_assoc, List.find?_append]
  have hnone : rows₂.reverse.find? ((fun h : HeldToken => decide (h.tokenId = r.token.id)) ∘
      fun r => r.holding.held text r.token) = none := by
    rw [List.find?_eq_none]
    intro r' hr'
    simpa [WalletToken.held] using hlast r' (List.mem_reverse.mp hr')
  rw [hnone]
  simp [WalletToken.held]

/-- A write that fits stores the holding's balance to eight places. -/
theorem balance_of_fits {held : List HeldToken} {h : HeldToken} {tokenId : ℕ}
    (hheld : heldById held tokenId = some h) (hpos : 0 < h.balance)
    (hfits : (balanceWrite held cost tokenId).fits) :
    (balanceWrite held cost tokenId).balance = column.fix h.balance := by
  have hbalance : (balanceWrite held cost tokenId).balance = toDecimalString h.balance := by
    unfold balanceWrite
    rw [hheld]
    rfl
  have hcolumn : column.fits (toDecimalString h.balance) := by
    rw [← hbalance]
    apply List.all_eq_true.mp hfits
    unfold BalanceWrite.decimals
    split
    · simp
    · simp
  rw [hbalance]
  apply toDecimalString_eq hpos.le
  by_contra hbig
  rw [not_fits_of_maxDecimal_le (not_le.mp hbig).le] at hcolumn
  cases hcolumn

theorem shows_of_fits {held : List HeldToken} {h : HeldToken} {tokenId : ℕ}
    (hmem : tokenId ∈ setIds held cost) (hheld : heldById held tokenId = some h)
    (hpos : 0 < h.balance) (hfits : (balanceWrite held cost tokenId).fits) :
    Shows p (setConnectedBalancesFromSummary p held cost db) tokenId (column.fix h.balance) := by
  unfold Shows
  rw [findAsset_setConnectedBalances, if_neg (by simp), if_neg (by simpa using hmem),
    if_pos hfits, Option.map_some, BalanceWrite.balance_apply,
    balance_of_fits hheld hpos hfits]

/-- A row whose write is refused stays as it was. -/
theorem shows_of_not_fits {held : List HeldToken} {tokenId : ℕ} {balance : ℚ}
    (hmem : tokenId ∈ setIds held cost) (hfits : ¬ (balanceWrite held cost tokenId).fits) :
    Shows p (setConnectedBalancesFromSummary p held cost db) tokenId balance ↔
      Shows p db tokenId balance := by
  unfold Shows
  rw [findAsset_setConnectedBalances, if_neg (by simp), if_neg (by simpa using hmem),
    if_neg hfits]

end Pass

/-! ## A sync keeps the holdings apart, ticker collisions aside -/

/-- The rows the holdings of an answered summary are mapped to. -/
def Answers.rows (text : Text) (answers : Answers) (db : Db) : List Resolved :=
  resolution text answers.summary.tokens db

/-- The cost map a sync writes, computed after its imports. -/
def syncCost (text : Text) (portfolio : Portfolio) (answers : Answers) (db : Db) :
    Option CostMap :=
  let (held, db) := resolveHeldTokens text answers.summary.tokens db
  let (_, db) := importTransfers text answers.env portfolio answers.nftStored answers.transfers db
  resolveConnectedCostMap text portfolio.id held answers.pnl db

theorem syncHoldings_ok {text : Text} {portfolio : Portfolio} {answers : Answers}
    {result : ResyncResult} {db db' : Db}
    (h : syncHoldings text portfolio answers db = (.ok result, db')) :
    (answers.rows text db).map Resolved.holding = answers.summary.tokens ∧
      ∃ mid, db' = setConnectedBalancesFromSummary portfolio.id
        (heldTokens text (answers.rows text db)) (syncCost text portfolio answers db) mid := by
  unfold syncHoldings at h
  unfold syncCost Answers.rows
  have hheld := @held_eq_resolution text answers.summary.tokens db
  dsimp only
  split at h
  · cases h
  · dsimp only at h
    split at h
    · cases h
    · next hlength =>
        rw [not_not] at hlength
        refine ⟨holdings_of_length_eq hlength, ?_⟩
        cases h
        exact ⟨_, by rw [hheld]; rfl⟩

/-- The calls that sync a connected portfolio: at connect time, and on request. -/
inductive Synced (text : Text) (p : ℕ) (answers : Answers) (db db' : Db) : Prop
  | sync : syncConnectedHoldings text p answers db = (.ok (), db') → Synced text p answers db db'
  | resync {address : String} {chain : ℕ} {result : ResyncResult} : address ≠ "" →
      resyncConnectedHoldings text p (some address) (some chain) answers db = (.ok result, db') →
      Synced text p answers db db'

theorem syncConnectedHoldings_eq {text : Text} {p : ℕ} {answers : Answers}
    {portfolio : Portfolio} {db : Db} (hfound : db.findPortfolioById p = some portfolio) :
    syncConnectedHoldings text p answers db =
      ((syncHoldings text portfolio answers db).1.map fun _ => (),
        (syncHoldings text portfolio answers db).2) := by
  unfold syncConnectedHoldings
  rw [hfound]

theorem resyncConnectedHoldings_eq {text : Text} {p : ℕ} {answers : Answers} {address : String}
    {chain : ℕ} {portfolio : Portfolio} {db : Db}
    (hfound : db.findPortfolioById p = some portfolio) (haddress : address ≠ "") :
    resyncConnectedHoldings text p (some address) (some chain) answers db =
      syncHoldings text portfolio answers db := by
  unfold resyncConnectedHoldings
  have hfilter : (some address).filter (· ≠ "") = some address := by simp [haddress]
  rw [hfound, hfilter]

theorem map_ok_iff {ε α : Type} {x : Except ε α × Db} {db : Db} :
    (x.1.map (fun _ => ()), x.2) = (.ok (), db) ↔ ∃ a, x = (.ok a, db) := by
  cases x with
  | mk outcome db₁ =>
      cases outcome with
      | error e => simp [Except.map]
      | ok a => simp [Except.map]

theorem Synced.holdings {text : Text} {p : ℕ} {answers : Answers} {portfolio : Portfolio}
    {db db' : Db} (hfound : db.findPortfolioById p = some portfolio)
    (h : Synced text p answers db db') :
    ∃ result, syncHoldings text portfolio answers db = (.ok result, db') := by
  cases h with
  | sync h =>
      rw [syncConnectedHoldings_eq hfound] at h
      exact map_ok_iff.mp h
  | resync haddress h =>
      rw [resyncConnectedHoldings_eq hfound haddress] at h
      exact ⟨_, h⟩

/-- No holding shares the row of another contract, and each shows its own balance. -/
def KeptApart (p : ℕ) (rows : List Resolved) (db : Db) : Prop :=
  (rows.Pairwise fun r r' => r'.holding.contractAddress ≠ r.holding.contractAddress →
    r'.token.id ≠ r.token.id) ∧
  ∀ r ∈ rows, Shows p db r.token.id (column.fix r.holding.balance)

instance (p : ℕ) (rows : List Resolved) (db : Db) : Decidable (KeptApart p rows db) :=
  inferInstanceAs (Decidable (_ ∧ _))

def sampleText : Text := { sampleJs with insensitive := fun a b => a.toLower = b.toLower }

def walletPortfolio : Portfolio where
  id := 1
  userId := 1
  type := .connected
  walletAddress := some "0xcc"
  chainId := some 1

/-- A connected portfolio and a catalog that lists one token by contract. -/
def walletDb : Db where
  tokens := ⟨[{ id := 1, symbol := "USDT", currentPrice := 1, contractAddress := some "0xaa" }], 2,
    by decide, by decide, by decide⟩
  portfolios := ⟨[walletPortfolio], 2, by decide, by decide, by decide⟩
  assets := Table.empty
  transactions := SerialTable.empty

def usdt (contract : String) (balance : ℚ) (usdValue : Option ℚ) : WalletToken where
  symbol := "USDT"
  contractAddress := some contract
  balance := balance
  usdValue := usdValue

def summaryAnswers (kept : List WalletToken) : Answers where
  summary := .ok (buildSummary "moralis" kept "ETH")
  transfers := []
  pnl := none
  nftStored _ := true
  env := sampleEnv

def firstSync (kept : List WalletToken) : Except SyncError Unit × Db :=
  syncConnectedHoldings sampleText 1 (summaryAnswers kept) walletDb

section Kept

variable (text : Text) (p : ℕ) (providerName native : String) (kept : List WalletToken)

/-- The rows of the kept tokens, through the summary that is made of them. -/
def keptRows (db : Db) : List Resolved :=
  resolution text (buildSummary providerName kept native).tokens db

/-- The summary of the kept tokens, resolved and written. -/
def syncKept (cost : Option CostMap) (db : Db) : Db :=
  let (held, db) := resolveHeldTokens text (buildSummary providerName kept native).tokens db
  setConnectedBalancesFromSummary p held cost db

/-- Every kept token ends with its positive balance, and a row is only zeroed when no kept
token is mapped to it. -/
structure HoldsAll (rows : List Resolved) (db db' : Db) : Prop where
  held : ∀ t ∈ kept, ∃ r ∈ rows, r.holding = t ∧ 0 < column.fix t.balance ∧
    Shows p db' r.token.id (column.fix t.balance)
  zeroed : ∀ u a, db.findAsset p u = some a → a.balance ≠ 0 → Shows p db' u 0 →
    ∀ r ∈ rows, r.token.id ≠ u

/-- Nothing is cut off or left out, no two balances meet in one row, and each one is positive
to eight places and can be stored, if the row does not show it already. -/
structure Storable (rows : List Resolved) (cost : Option CostMap) (db : Db) : Prop where
  short : kept.length ≤ maxTokens
  mapped : rows.length = kept.length
  apart : rows.Pairwise fun r r' => r'.token.id = r.token.id →
    column.fix r'.holding.balance = column.fix r.holding.balance
  stored : ∀ r ∈ rows, 0 < column.fix r.holding.balance ∧
    ((balanceWrite (heldTokens text rows) cost r.token.id).fits ∨
      Shows p db r.token.id (column.fix r.holding.balance))

variable {text p providerName native kept} {cost : Option CostMap} {db : Db}

theorem syncKept_eq : ∃ tokens, syncKept text p providerName native kept cost db =
    setConnectedBalancesFromSummary p (heldTokens text (keptRows text providerName native kept db))
      cost { db with tokens } := by
  unfold syncKept keptRows heldTokens
  have hheld := @held_eq_resolution text (buildSummary providerName kept native).tokens db
  have hcatalog := @catalog_resolveHeldTokens text (buildSummary providerName kept native).tokens db
  cases hresolve : resolveHeldTokens text (buildSummary providerName kept native).tokens db with
  | mk held mid =>
      rw [hresolve] at hheld hcatalog
      dsimp only at hheld hcatalog
      obtain ⟨tokens, htokens⟩ := hcatalog
      exact ⟨tokens, by rw [hheld, htokens]⟩

theorem holdings_nodup (hkept : kept.Nodup) :
    ((keptRows text providerName native kept db).map Resolved.holding).Nodup :=
  (nodup_buildSummary hkept).sublist (sublist_resolution _ _)

theorem length_keptRows_le :
    (keptRows text providerName native kept db).length ≤ min maxTokens kept.length := by
  have hlength := (@sublist_resolution text (buildSummary providerName kept native).tokens
    db).length_le
  rwa [List.length_map, length_buildSummary] at hlength

/-- A row of the kept tokens is that of the kept token it is for. -/
theorem HoldsAll.shows {db' : Db} (hkept : kept.Nodup)
    (h : HoldsAll p kept (keptRows text providerName native kept db) db db') {r : Resolved}
    (hr : r ∈ keptRows text providerName native kept db) :
    0 < column.fix r.holding.balance ∧ Shows p db' r.token.id (column.fix r.holding.balance) := by
  have hmem : r.holding ∈ kept :=
    mem_of_mem_buildSummary ((sublist_resolution _ _).mem (List.mem_map_of_mem hr))
  obtain ⟨r', hr', hholding, hpos, hshows⟩ := h.held r.holding hmem
  have heq : r' = r := List.inj_on_of_nodup_map (holdings_nodup hkept) hr' hr hholding
  rw [heq] at hshows
  exact ⟨hpos, hshows⟩

theorem HoldsAll.length {db' : Db} (hkept : kept.Nodup)
    (h : HoldsAll p kept (keptRows text providerName native kept db) db db') :
    kept.length ≤ (keptRows text providerName native kept db).length := by
  have hsubset : kept ⊆ (keptRows text providerName native kept db).map Resolved.holding := by
    intro t ht
    obtain ⟨r, hr, hholding, -⟩ := h.held t ht
    exact hholding ▸ List.mem_map_of_mem hr
  have hle := (List.subperm_of_subset hkept hsubset).length_le
  rwa [List.length_map] at hle

theorem shows_syncKept_iff {r : Resolved} (hr : r ∈ keptRows text providerName native kept db)
    {balance : ℚ} (hfits : ¬ (balanceWrite
      (heldTokens text (keptRows text providerName native kept db)) cost r.token.id).fits) :
    Shows p (syncKept text p providerName native kept cost db) r.token.id balance ↔
      Shows p db r.token.id balance := by
  obtain ⟨tokens, hsync⟩ := @syncKept_eq text p providerName native kept cost db
  rw [hsync]
  exact shows_of_not_fits (mem_setIds_heldTokens hr) hfits

theorem Storable.shows
    (h : Storable text p kept (keptRows text providerName native kept db) cost db)
    {r : Resolved} (hr : r ∈ keptRows text providerName native kept db) :
    Shows p (syncKept text p providerName native kept cost db) r.token.id
      (column.fix r.holding.balance) := by
  by_cases hfits : (balanceWrite
      (heldTokens text (keptRows text providerName native kept db)) cost r.token.id).fits
  · obtain ⟨last, hlast, hid, hheld⟩ := @heldById_heldTokens text _ _ hr
    have hpos : 0 < last.holding.balance := (mem_resolution hlast).2.1
    have hsame : column.fix last.holding.balance = column.fix r.holding.balance :=
      h.apart.forall_of_forall_of_flip (fun _ _ _ => rfl)
        (h.apart.imp fun hxy heq => (hxy heq.symm).symm) hr hlast hid
    obtain ⟨tokens, hsync⟩ := @syncKept_eq text p providerName native kept cost db
    have hshows := @shows_of_fits p _ { db with tokens } _ _ _ (mem_setIds_heldTokens hr) hheld
      hpos hfits
    rw [hsync, ← hsame]
    exact hshows
  · rw [shows_syncKept_iff hr hfits]
    exact (h.stored r hr).2.resolve_left hfits

/-- A pass keeps every token it was handed exactly when nothing was cut off, left out or
merged on the way and every balance can be stored. -/
theorem holdsAll_iff (hkept : kept.Nodup) :
    HoldsAll p kept (keptRows text providerName native kept db) db
        (syncKept text p providerName native kept cost db) ↔
      Storable text p kept (keptRows text providerName native kept db) cost db := by
  have hle := @length_keptRows_le text providerName native kept db
  constructor
  · intro h
    have hlength := h.length hkept
    refine ⟨by omega, by omega, ?_, ?_⟩
    · apply List.pairwise_of_forall_mem_list
      intro r hr r' hr' hid
      have hshows := (h.shows hkept hr).2
      have hshows' := (h.shows hkept hr').2
      unfold Shows at hshows hshows'
      rw [hid, hshows] at hshows'
      exact (Option.some_injective _ hshows').symm
    · intro r hr
      have hshows := h.shows hkept hr
      refine ⟨hshows.1, ?_⟩
      by_cases hfits : (balanceWrite
          (heldTokens text (keptRows text providerName native kept db)) cost r.token.id).fits
      · exact .inl hfits
      · exact .inr ((shows_syncKept_iff hr hfits).mp hshows.2)
  · intro h
    have htokens : (buildSummary providerName kept native).tokens.length = kept.length := by
      rw [length_buildSummary]
      exact min_eq_right h.short
    have hholdings : (keptRows text providerName native kept db).map Resolved.holding =
        (buildSummary providerName kept native).tokens := by
      apply (sublist_resolution _ _).eq_of_length
      rw [htokens, ← h.mapped, List.length_map]
      rfl
    have hmem : ∀ r ∈ keptRows text providerName native kept db, 0 < column.fix r.holding.balance :=
      fun r hr => (h.stored r hr).1
    constructor
    · intro t ht
      have hrow : t ∈ (keptRows text providerName native kept db).map Resolved.holding := by
        rw [hholdings]
        exact (perm_buildSummary h.short).mem_iff.mpr ht
      obtain ⟨r, hr, rfl⟩ := List.mem_map.mp hrow
      exact ⟨r, hr, rfl, hmem r hr, h.shows hr⟩
    · intro u a _ _ hzero r hr hid
      have hshows := h.shows hr
      unfold Shows at hshows hzero
      rw [hid, hzero] at hshows
      have hpos := hmem r hr
      rw [← Option.some_injective _ hshows] at hpos
      exact lt_irrefl _ hpos

end Kept

theorem holdsAll_usdt :
    HoldsAll 1 [usdt "0xaa" 500 (some 500)]
      (keptRows sampleText "moralis" "ETH" [usdt "0xaa" 500 (some 500)] walletDb) walletDb
      (syncKept sampleText 1 "moralis" "ETH" [usdt "0xaa" 500 (some 500)] none walletDb) :=
  (holdsAll_iff (List.nodup_singleton _)).mpr
    ⟨by decide, by decide +kernel, by decide +kernel, by decide +kernel⟩

/-- Coin `i` of a wallet; the first is worth the least. -/
def coin (i : ℕ) : WalletToken where
  symbol := String.ofList [Char.ofNat (0x4E00 + i)]
  contractAddress := some (String.ofList [Char.ofNat (0x4E00 + i)])
  balance := 5
  usdValue := some (i : ℚ)

def coins : List WalletToken := (List.range 101).map coin

theorem coins_symbols_nodup : (coins.map WalletToken.symbol).Nodup := by
  have hchars : ((List.range 101).map fun i => Char.ofNat (0x4E00 + i)).Nodup := by
    have hvalue : ∀ i ∈ List.range 101, (Char.ofNat (0x4E00 + i)).toNat = 0x4E00 + i := by
      intro i hi
      have hvalid : (0x4E00 + i).isValidChar := by
        rw [List.mem_range] at hi
        left
        omega
      rw [Char.ofNat, dif_pos hvalid]
      rfl
    refine List.nodup_range.map_on fun i hi j hj h => ?_
    have hsame : 0x4E00 + i = 0x4E00 + j := by rw [← hvalue i hi, h, hvalue j hj]
    exact Nat.add_left_cancel hsame
  have hinj : Function.Injective fun c => String.ofList [c] := by
    intro c d h
    simpa using String.ofList_injective h
  have hmap : coins.map WalletToken.symbol =
      ((List.range 101).map fun i => Char.ofNat (0x4E00 + i)).map fun c => String.ofList [c] := by
    unfold coins
    simp [Function.comp_def, coin]
  rw [hmap]
  exact hchars.map hinj

theorem coins_contracts_nodup : (coins.map WalletToken.contractAddress).Nodup := by
  have hmap : coins.map WalletToken.contractAddress = (coins.map WalletToken.symbol).map some := by
    unfold coins
    simp [Function.comp_def, coin]
  rw [hmap]
  exact coins_symbols_nodup.map (Option.some_injective _)

theorem leastCoin_not_held :
    (coins.map WalletToken.symbol).Nodup ∧ (coins.map WalletToken.contractAddress).Nodup ∧
      (∀ t ∈ coins, 0 < t.balance) ∧
      ¬ HoldsAll 1 coins (keptRows sampleText "moralis" "ETH" coins walletDb) walletDb
        (syncKept sampleText 1 "moralis" "ETH" coins none walletDb) := by
  refine ⟨coins_symbols_nodup, coins_contracts_nodup, by decide +kernel, ?_⟩
  intro h
  have hlength := h.length coins_symbols_nodup.of_map
  have hle := @length_keptRows_le sampleText "moralis" "ETH" coins walletDb
  have hcoins : coins.length = 101 := by decide
  unfold maxTokens at hle
  omega

end Neonfi.Wallet

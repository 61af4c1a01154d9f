import Neonfi.Webhooks.Bookings

/-!
# The collectible moves of a payload

Like its bookings, the collectibles a payload moves are decided by the tables before the
delivery.  Whether a move goes through depends on its texts and on the rows that are there.
-/

namespace Neonfi.Webhooks

open Lib
open Ledger (Db Failure Direction ensure bind_eq_ok)
open Wallet (storable)

abbrev NftKey := ℕ × String × String

structure NftMove where
  portfolioId : ℕ
  leg : NftLeg
  direction : Direction

/-! ## One move -/

namespace NftMove

variable (rt : Runtime) (chain : Chain) (m : NftMove)

def move (nfts : NftTable) : Except Failure NftTable :=
  moveNft rt chain m.leg m.direction m.portfolioId nfts

/-- The row that an upsert asks for. -/
def row : Except Failure Nft := do
  let columns ← readNftColumns rt m.leg.transfer
  let tokenId ← Ledger.require m.leg.tokenId.text? invalidArgument
  return { columns with
    portfolioId := m.portfolioId
    contractAddress := m.leg.tokenAddress
    tokenId
    chain := chain.slug }

/-- The rows a delete selects. -/
def selected (selects : String → Bool) (k : NftKey) : Prop :=
  k.1 = m.portfolioId ∧ k.2.1 = m.leg.tokenAddress ∧ selects k.2.2

instance (selects : String → Bool) (k : NftKey) : Decidable (m.selected selects k) :=
  inferInstanceAs (Decidable (_ ∧ _ ∧ _))

/-- The contract is a storable text, and the row or the filter is accepted. -/
def accepted (keys : List NftKey) : Bool :=
  storable m.leg.tokenAddress &&
    if m.direction = .buy then
      match m.row rt chain with
      | .ok nft => nft.upsertFits rt (nft.key ∈ keys)
      | .error _ => false
    else (tokenIdFilter rt m.leg.tokenId).isOk

/-- The rows that are there after the move. -/
def keysAfter (keys : List NftKey) : List NftKey :=
  if m.direction = .buy then
    match m.row rt chain with
    | .ok nft => if nft.key ∈ keys then keys else keys ++ [nft.key]
    | .error _ => keys
  else
    match tokenIdFilter rt m.leg.tokenId with
    | .ok selects => keys.filter fun k => ¬ m.selected selects k
    | .error _ => keys

end NftMove

def nftKeys (nfts : NftTable) : List NftKey := nfts.rows.map Nft.key

section Moves

variable {rt : Runtime} {chain : Chain} {m : NftMove} {nfts : NftTable}

theorem isSome_find?_iff (nfts : NftTable) (k : NftKey) :
    (nfts.find? k).isSome = decide (k ∈ nftKeys nfts) := by
  rw [Bool.eq_iff_iff, decide_eq_true_iff]
  unfold nftKeys
  constructor
  · intro h
    obtain ⟨nft, hfound⟩ := Option.isSome_iff_exists.mp h
    obtain ⟨hmem, hkey⟩ := Table.find?_eq_some_iff.mp hfound
    exact hkey ▸ List.mem_map_of_mem hmem
  · intro h
    obtain ⟨nft, hmem, hkey⟩ := List.mem_map.mp h
    rw [Table.find?_eq_some_iff.mpr ⟨hmem, hkey⟩]
    rfl

/-- The upsert, once its row is read. -/
def storeNft (rt : Runtime) (transfer : JsonValue) (nft : Nft) (nfts : NftTable) :
    Except Failure NftTable := do
  ensure (nft.upsertFits rt (nfts.find? nft.key).isSome) Wallet.valueTooLong
  match nfts.insert? nft with
  | some nfts => return nfts
  | none =>
      return nfts.modify (fun old => if old.key = nft.key then nft.refresh transfer old else old)
        fun old => by split <;> rfl

theorem upsertNft_eq (h : storable m.leg.tokenAddress) :
    upsertNft rt m.portfolioId chain.slug m.leg nfts =
      (m.row rt chain).bind fun nft => storeNft rt m.leg.transfer nft nfts := by
  unfold upsertNft NftMove.row ensure
  rw [if_pos h]
  cases readNftColumns rt m.leg.transfer with
  | error e => rfl
  | ok columns =>
      cases Ledger.require m.leg.tokenId.text? invalidArgument with
      | error e => rfl
      | ok tokenId => rfl

theorem storeNft_ok {transfer : JsonValue} {nft : Nft}
    (h : nft.upsertFits rt (nft.key ∈ nftKeys nfts)) :
    ∃ nfts', storeNft rt transfer nft nfts = .ok nfts' ∧
      nftKeys nfts' =
        if nft.key ∈ nftKeys nfts then nftKeys nfts else nftKeys nfts ++ [nft.key] := by
  unfold storeNft ensure
  rw [isSome_find?_iff, if_pos h]
  by_cases hstored : nft.key ∈ nftKeys nfts
  · have hinsert : nfts.insert? nft = none := dif_pos hstored
    rw [hinsert, if_pos hstored]
    refine ⟨_, rfl, ?_⟩
    unfold nftKeys
    rw [Table.rows_modify, List.map_map]
    refine List.map_congr_left fun old _ => ?_
    rw [Function.comp_apply]
    split <;> rfl
  · obtain ⟨nfts', hinsert, hrows⟩ : ∃ nfts', nfts.insert? nft = some nfts' ∧
        nfts'.rows = nfts.rows ++ [nft] := ⟨_, dif_neg hstored, rfl⟩
    rw [hinsert, if_neg hstored]
    refine ⟨nfts', rfl, ?_⟩
    unfold nftKeys
    rw [hrows, List.map_append]
    rfl

theorem storeNft_error {transfer : JsonValue} {nft : Nft}
    (h : ¬ nft.upsertFits rt (nft.key ∈ nftKeys nfts)) :
    storeNft rt transfer nft nfts = .error Wallet.valueTooLong := by
  unfold storeNft ensure
  rw [isSome_find?_iff, if_neg h]
  rfl

/-- A move goes through exactly when it is accepted, and then leaves these rows. -/
theorem move_outcome (m : NftMove) (nfts : NftTable) :
    if m.accepted rt chain (nftKeys nfts) then
      ∃ nfts', m.move rt chain nfts = .ok nfts' ∧
        nftKeys nfts' = m.keysAfter rt chain (nftKeys nfts)
    else ∃ e, m.move rt chain nfts = .error e := by
  unfold NftMove.accepted NftMove.move moveNft NftMove.keysAfter
  by_cases haddress : storable m.leg.tokenAddress
  · by_cases hbuy : m.direction = .buy
    · simp only [haddress, hbuy, if_true, Bool.true_and]
      rw [upsertNft_eq haddress]
      cases hrow : m.row rt chain with
      | error e => exact ⟨e, rfl⟩
      | ok nft =>
          dsimp only
          by_cases hfits : nft.upsertFits rt (nft.key ∈ nftKeys nfts)
          · rw [if_pos hfits]
            exact storeNft_ok hfits
          · rw [if_neg hfits]
            exact ⟨Wallet.valueTooLong, storeNft_error hfits⟩
    · simp only [haddress, hbuy, if_false, Bool.true_and]
      unfold deleteNfts ensure
      rw [if_pos haddress]
      cases hfilter : tokenIdFilter rt m.leg.tokenId with
      | error e => exact ⟨e, rfl⟩
      | ok selects =>
          refine ⟨_, rfl, ?_⟩
          unfold nftKeys
          show (nfts.rows.filter _).map Nft.key = _
          dsimp only
          rw [List.filter_map]
          rfl
  · rw [if_neg (by simp [haddress])]
    refine ⟨Wallet.invalidByteSequence, ?_⟩
    unfold upsertNft deleteNfts ensure
    rw [if_neg haddress]
    split <;> rfl

/-! ## The loops as one list of moves -/

variable (rt) in
def moveOf (chainId : ℕ) (db : Db) (leg : NftLeg) (candidate : String × Direction) :
    Option NftMove :=
  match findConnectedPortfolio rt candidate.1 chainId db with
  | .ok (some portfolio) => some ⟨portfolio.id, leg, candidate.2⟩
  | _ => none

variable (rt) in
/-- The moves of a payload, in order. -/
def nftMoves (chain : Chain) (db : Db) (transfers : List JsonValue) : List NftMove :=
  transfers.flatMap fun transfer =>
    match readNftTransfer rt transfer with
    | .ok (some leg) =>
        (candidates leg.fromAddr leg.toAddr).filterMap (moveOf rt chain.id db leg)
    | _ => []

variable (rt) in
/-- The transfer reads, and so do the lookups of its parties. -/
def nftReads (chain : Chain) (db : Db) (transfer : JsonValue) : Bool :=
  match readNftTransfer rt transfer with
  | .error _ => false
  | .ok none => true
  | .ok (some leg) =>
      (candidates leg.fromAddr leg.toAddr).all fun candidate =>
        (findConnectedPortfolio rt candidate.1 chain.id db).isOk

variable (rt) in
/-- Every move is accepted in its turn. -/
def movesAccepted (chain : Chain) : List NftKey → List NftMove → Bool
  | _, [] => true
  | keys, m :: ms =>
      m.accepted rt chain keys && movesAccepted chain (m.keysAfter rt chain keys) ms

variable (rt) in
def moveAll (chain : Chain) (ms : List NftMove) (nfts : NftTable) : Except Failure NftTable :=
  ms.foldlM (fun nfts m => m.move rt chain nfts) nfts

theorem isOk_moveAll (ms : List NftMove) (nfts : NftTable) :
    (moveAll rt chain ms nfts).isOk = movesAccepted rt chain (nftKeys nfts) ms := by
  induction ms generalizing nfts with
  | nil => rfl
  | cons m ms ih =>
      have hcons : moveAll rt chain (m :: ms) nfts =
          (m.move rt chain nfts).bind (moveAll rt chain ms) := by
        unfold moveAll
        rw [List.foldlM_cons]
        rfl
      have hstep := @move_outcome rt chain m nfts
      rw [hcons, movesAccepted]
      cases haccepted : m.accepted rt chain (nftKeys nfts) with
      | false =>
          rw [if_neg (by simp [haccepted])] at hstep
          obtain ⟨e, hmove⟩ := hstep
          rw [hmove]
          rfl
      | true =>
          rw [if_pos haccepted] at hstep
          obtain ⟨nfts', hmove, hkeys⟩ := hstep
          rw [hmove, Bool.true_and, ← hkeys, ← ih]
          rfl

theorem moveCandidates_iff {leg : NftLeg} {db₀ db : Db} {cs : List (String × Direction)}
    {nfts nfts' : NftTable} (h : SameRoutes db₀ db) :
    (∃ n, moveCandidates rt chain leg db cs nfts = (.ok n, nfts')) ↔
      (cs.all fun c => (findConnectedPortfolio rt c.1 chain.id db₀).isOk) ∧
        moveAll rt chain (cs.filterMap (moveOf rt chain.id db₀ leg)) nfts = .ok nfts' := by
  induction cs generalizing nfts with
  | nil =>
      constructor
      · rintro ⟨n, heq⟩
        cases heq
        exact ⟨rfl, rfl⟩
      · rintro ⟨-, heq⟩
        cases heq
        exact ⟨0, rfl⟩
  | cons c cs ih =>
      obtain ⟨addr, direction⟩ := c
      rw [moveCandidates, List.all_cons, List.filterMap_cons, moveOf]
      rcases h.lookup_cases addr chain.id with ⟨e, h₀, h₁⟩ | ⟨h₀, h₁⟩ | ⟨p, p', hid, h₀, h₁⟩
      · rw [h₀, h₁]
        simp [Except.isOk, Except.toBool]
      · rw [h₀, h₁]
        simpa [Except.isOk, Except.toBool] using ih
      · rw [h₀, h₁]
        dsimp only
        unfold moveAll
        rw [hid, List.foldlM_cons]
        unfold NftMove.move
        dsimp only
        cases hmove : moveNft rt chain leg direction p.id nfts with
        | error e =>
            constructor
            · rintro ⟨n, heq⟩
              cases heq
            · rintro ⟨-, heq⟩
              cases heq
        | ok nfts₁ =>
            rw [Bool.and_eq_true, and_assoc]
            refine Iff.trans ?_ (and_iff_right rfl).symm
            refine Iff.trans ?_ (@ih nfts₁)
            constructor
            · rintro ⟨n, heq⟩
              obtain ⟨hcount, rfl⟩ := Prod.mk.inj heq
              obtain ⟨count, hok⟩ := ok_of_map hcount
              exact ⟨count, Prod.ext hok rfl⟩
            · rintro ⟨n, heq⟩
              dsimp only
              rw [heq]
              exact ⟨n + 1, rfl⟩

theorem moveAll_append (ms ms' : List NftMove) (nfts : NftTable) :
    moveAll rt chain (ms ++ ms') nfts =
      (moveAll rt chain ms nfts).bind (moveAll rt chain ms') := by
  unfold moveAll
  rw [List.foldlM_append]
  rfl

theorem nftMoves_cons (db : Db) (transfer : JsonValue) (transfers : List JsonValue) :
    nftMoves rt chain db (transfer :: transfers) =
      nftMoves rt chain db [transfer] ++ nftMoves rt chain db transfers := by
  simp [nftMoves]

theorem processNftTransfer_iff {db₀ db : Db} {transfer : JsonValue} {nfts nfts' : NftTable}
    (h : SameRoutes db₀ db) :
    (∃ n, processNftTransfer rt chain db transfer nfts = (.ok n, nfts')) ↔
      nftReads rt chain db₀ transfer ∧
        moveAll rt chain (nftMoves rt chain db₀ [transfer]) nfts = .ok nfts' := by
  unfold processNftTransfer nftReads nftMoves
  rw [List.flatMap_singleton]
  cases readNftTransfer rt transfer with
  | error e =>
      constructor
      · rintro ⟨n, heq⟩
        cases heq
      · rintro ⟨hfalse, -⟩
        cases hfalse
  | ok leg? =>
      cases leg? with
      | none =>
          constructor
          · rintro ⟨n, heq⟩
            cases heq
            exact ⟨rfl, rfl⟩
          · rintro ⟨-, heq⟩
            cases heq
            exact ⟨0, rfl⟩
      | some leg => exact moveCandidates_iff h

/-- The collectible loop succeeds exactly when every transfer reads and every move is made. -/
theorem processNftTransfers_iff {db₀ db : Db} {transfers : List JsonValue}
    {nfts nfts' : NftTable} (h : SameRoutes db₀ db) :
    (∃ n, processNftTransfers rt chain db transfers nfts = (.ok n, nfts')) ↔
      transfers.all (nftReads rt chain db₀) ∧
        moveAll rt chain (nftMoves rt chain db₀ transfers) nfts = .ok nfts' := by
  induction transfers generalizing nfts with
  | nil =>
      constructor
      · rintro ⟨n, heq⟩
        cases heq
        exact ⟨rfl, rfl⟩
      · rintro ⟨-, heq⟩
        cases heq
        exact ⟨0, rfl⟩
  | cons transfer transfers ih =>
      rw [nftMoves_cons, moveAll_append, List.all_cons, processNftTransfers]
      constructor
      · rintro ⟨n, heq⟩
        split at heq
        · cases heq
        · next count nfts₁ hfirst =>
            obtain ⟨hcount, rfl⟩ := Prod.mk.inj heq
            obtain ⟨rest, hrest⟩ := ok_of_map hcount
            obtain ⟨hreads, hmove⟩ :=
              (@processNftTransfer_iff rt chain db₀ db transfer nfts nfts₁ h).mp ⟨count, hfirst⟩
            obtain ⟨hreads', hmove'⟩ := (@ih nfts₁).mp ⟨rest, Prod.ext hrest rfl⟩
            rw [hreads, hreads', hmove]
            exact ⟨rfl, hmove'⟩
      · rintro ⟨hreads, hmove⟩
        rw [Bool.and_eq_true] at hreads
        obtain ⟨nfts₁, hfirst, hrest⟩ := bind_eq_ok hmove
        obtain ⟨count, hstep⟩ := (processNftTransfer_iff h).mpr ⟨hreads.1, hfirst⟩
        obtain ⟨rest, htail⟩ := (@ih nfts₁).mpr ⟨hreads.2, hrest⟩
        rw [hstep]
        dsimp only
        rw [htail]
        exact ⟨count + rest, rfl⟩

end Moves

end Neonfi.Webhooks

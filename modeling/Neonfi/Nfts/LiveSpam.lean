import Neonfi.Nfts.Resync
import Neonfi.Nfts.Spam
import Neonfi.Webhooks.Replay

/-!
# The spam verdict of a delivery

The webhook upserts a received item with a verdict of its own: it knows no provider flag, takes
the texts of the transfer, and counts the rows of the contract before the upsert and the arrival.
-/

namespace Neonfi.Nfts

open Lib
open Ledger (Db Portfolio Failure Direction ensure require ensure_ok require_ok bind_eq_ok)
open Wallet (storable valueTooLong invalidByteSequence)
open Webhooks (Nft NftTable NftKey NftColumns NftLeg Chain Runtime JsonValue readNftTransfer
  readNftColumns findConnectedPortfolio candidates tokenIdFilter invalidArgument lowered
  optionalText)

/-! ## The webhook on whole rows -/

section Processing

variable (rt : Runtime) (bulkSpamMin : ℕ) (spamSetFor : String → List String)

/-- The signals of an arrival; a transfer carries no flag. -/
def liveSignals (spamContracts : List String) (leg : NftLeg) (columns : NftColumns)
    (existingHeld : ℕ) : SpamSignals where
  possibleSpam := false
  spamContract := leg.tokenAddress ∈ spamContracts
  name := columns.name
  collectionName := columns.collectionName
  contractAddress := leg.tokenAddress
  heldCount := existingHeld + 1

/-- The rows of a contract in a portfolio. -/
def existingHeld (portfolioId : ℕ) (contract : String) (nfts : NftRecords) : ℕ :=
  nfts.rows.countP fun r => r.portfolioId = portfolioId ∧ r.contractAddress = contract

/-- The upsert, once its row is read. -/
def storeNft (spam : Bool) (transfer : JsonValue) (nft : Nft) (nfts : NftRecords) :
    Except Failure NftRecords := do
  ensure (nft.upsertFits rt (nfts.find? nft.key).isSome) valueTooLong
  match nfts.find? nft.key with
  | none => return nfts.set { nft with description := none, possibleSpam := false, spam }
  | some old => return nfts.set { old with toNft := nft.refresh transfer old.toNft, spam }

def receiveNft (spamContracts : List String) (portfolioId : ℕ) (chainSlug : String)
    (leg : NftLeg) (nfts : NftRecords) : Except Failure NftRecords := do
  ensure (storable leg.tokenAddress) invalidByteSequence
  let columns ← readNftColumns rt leg.transfer
  let tokenId ← require leg.tokenId.text? invalidArgument
  let spam := classifyNftSpam rt.toJs bulkSpamMin
    (liveSignals spamContracts leg columns (existingHeld portfolioId leg.tokenAddress nfts))
  storeNft rt spam leg.transfer
    { columns with portfolioId, contractAddress := leg.tokenAddress, tokenId, chain := chainSlug }
    nfts

def deleteNfts (portfolioId : ℕ) (leg : NftLeg) (nfts : NftRecords) :
    Except Failure NftRecords := do
  ensure (storable leg.tokenAddress) invalidByteSequence
  let selects ← tokenIdFilter rt leg.tokenId
  return nfts.filter fun nft =>
    ¬ (nft.portfolioId = portfolioId ∧ nft.contractAddress = leg.tokenAddress ∧
      selects nft.tokenId)

def moveNft (chain : Chain) (leg : NftLeg) (addr : String) (direction : Direction)
    (portfolioId : ℕ) (nfts : NftRecords) : Except Failure NftRecords :=
  if direction = .buy then
    receiveNft rt bulkSpamMin (spamSetFor addr) portfolioId chain.slug leg nfts
  else deleteNfts rt portfolioId leg nfts

def moveCandidates (chain : Chain) (leg : NftLeg) (db : Db) :
    List (String × Direction) → NftRecords → Except Failure ℕ × NftRecords
  | [], nfts => (.ok 0, nfts)
  | (addr, direction) :: rest, nfts =>
      match findConnectedPortfolio rt addr chain.id db with
      | .error e => (.error e, nfts)
      | .ok none => moveCandidates chain leg db rest nfts
      | .ok (some portfolio) =>
          match moveNft rt bulkSpamMin spamSetFor chain leg addr direction portfolio.id nfts with
          | .error e => (.error e, nfts)
          | .ok nfts =>
              let (count, nfts) := moveCandidates chain leg db rest nfts
              (count.map (· + 1), nfts)

def processNftTransfer (chain : Chain) (db : Db) (transfer : JsonValue) (nfts : NftRecords) :
    Except Failure ℕ × NftRecords :=
  match readNftTransfer rt transfer with
  | .error e => (.error e, nfts)
  | .ok none => (.ok 0, nfts)
  | .ok (some leg) =>
      moveCandidates rt bulkSpamMin spamSetFor chain leg db
        (candidates leg.fromAddr leg.toAddr) nfts

def processNftTransfers (chain : Chain) (db : Db) :
    List JsonValue → NftRecords → Except Failure ℕ × NftRecords
  | [], nfts => (.ok 0, nfts)
  | transfer :: transfers, nfts =>
      match processNftTransfer rt bulkSpamMin spamSetFor chain db transfer nfts with
      | (.error e, nfts) => (.error e, nfts)
      | (.ok count, nfts) =>
          let (rest, nfts) := processNftTransfers chain db transfers nfts
          (rest.map (count + ·), nfts)

end Processing

/-! ## The columns the webhook knows -/

section Columns

variable {rt : Runtime} {bulkSpamMin : ℕ} {spamSetFor : String → List String} {chain : Chain}
  {db : Db} {leg : NftLeg} {nfts : NftRecords}

theorem find?_toNfts (nfts : NftRecords) (k : NftKey) :
    (toNfts nfts).find? k = (nfts.find? k).map NftRecord.toNft := by
  unfold Table.find? toNfts
  exact List.find?_map ..

theorem insert?_toNfts {r : NftRecord} (hfree : nfts.find? r.key = none) :
    (toNfts nfts).insert? r.toNft = some (toNfts (nfts.set r)) := by
  have hnone : (toNfts nfts).find? r.toNft.key = none := by
    rw [find?_toNfts]
    exact Option.map_eq_none_iff.mpr hfree
  obtain ⟨nfts', hinsert, hrows⟩ := Table.insert?_of_find?_eq_none hnone
  have hkey : r.key ∉ nfts.rows.map NftRecord.key := by
    intro hmem
    obtain ⟨s, hs, hkey⟩ := List.mem_map.mp hmem
    exact Table.find?_eq_none_iff.mp hfree s hs hkey
  rw [hinsert]
  congr 1
  apply Table.ext
  rw [hrows]
  show nfts.rows.map NftRecord.toNft ++ [r.toNft] = (nfts.set r).rows.map NftRecord.toNft
  unfold Table.set
  rw [dif_neg hkey, List.map_append, List.map_singleton]

theorem rows_toNfts_set {r old : NftRecord} (hold : nfts.find? r.key = some old)
    {f : Nft → Nft} (hr : r.toNft = f old.toNft) :
    (toNfts (nfts.set r)).rows =
      (toNfts nfts).rows.map fun nft => if nft.key = r.key then f nft else nft := by
  obtain ⟨hmem, hkey⟩ := Table.find?_eq_some_iff.mp hold
  have htaken : r.key ∈ nfts.rows.map NftRecord.key := hkey ▸ List.mem_map_of_mem hmem
  show (nfts.set r).rows.map NftRecord.toNft = (nfts.rows.map NftRecord.toNft).map _
  unfold Table.set
  rw [dif_pos htaken, Table.rows_modify, List.map_map, List.map_map]
  refine List.map_congr_left fun s hs => ?_
  rw [Function.comp_apply, Function.comp_apply]
  by_cases hsame : s.key = r.key
  · obtain rfl := eq_of_key_eq nfts.nodup hs hmem (hsame.trans hkey.symm)
    rw [if_pos hsame, hr]
    exact (if_pos hsame).symm
  · rw [if_neg hsame]
    exact (if_neg hsame).symm

theorem toNfts_storeNft (spam : Bool) (transfer : JsonValue) (nft : Nft) :
    (storeNft rt spam transfer nft nfts).map toNfts =
      Webhooks.storeNft rt transfer nft (toNfts nfts) := by
  unfold storeNft Webhooks.storeNft
  rw [find?_toNfts, Option.isSome_map]
  cases ensure (nft.upsertFits rt (nfts.find? nft.key).isSome) valueTooLong with
  | error e => rfl
  | ok _ =>
      cases hfound : nfts.find? nft.key with
      | none =>
          have hinsert := @insert?_toNfts nfts
            { nft with description := none, possibleSpam := false, spam } hfound
          dsimp only at hinsert
          rw [hinsert]
          rfl
      | some old =>
          have htaken : nft.key ∈ (toNfts nfts).rows.map Nft.key := by
            have hsome := find?_toNfts nfts nft.key
            rw [hfound] at hsome
            obtain ⟨hmem, hkey⟩ := Table.find?_eq_some_iff.mp hsome
            exact hkey ▸ List.mem_map_of_mem hmem
          have hinsert : (toNfts nfts).insert? nft = none := dif_pos htaken
          have hkey : (nft.refresh transfer old.toNft).key = nft.key :=
            (Table.find?_eq_some_iff.mp hfound).2
          rw [hinsert]
          refine congrArg Except.ok (Table.ext ?_)
          have hold : nfts.find? (nft.refresh transfer old.toNft).key = some old := hkey ▸ hfound
          rw [@rows_toNfts_set nfts { old with toNft := nft.refresh transfer old.toNft, spam } old
            hold (nft.refresh transfer) rfl]
          show (toNfts nfts).rows.map (fun s =>
            if s.key = (nft.refresh transfer old.toNft).key then nft.refresh transfer s else s) = _
          rw [hkey]
          rfl

theorem toNfts_receiveNft (spamContracts : List String) (portfolioId : ℕ) (chainSlug : String) :
    (receiveNft rt bulkSpamMin spamContracts portfolioId chainSlug leg nfts).map toNfts =
      Webhooks.upsertNft rt portfolioId chainSlug leg (toNfts nfts) := by
  unfold receiveNft Webhooks.upsertNft
  cases ensure (storable leg.tokenAddress) invalidByteSequence with
  | error e => rfl
  | ok _ =>
      cases readNftColumns rt leg.transfer with
      | error e => rfl
      | ok columns =>
          cases require leg.tokenId.text? invalidArgument with
          | error e => rfl
          | ok tokenId => exact toNfts_storeNft _ leg.transfer _

theorem toNfts_deleteNfts (portfolioId : ℕ) :
    (deleteNfts rt portfolioId leg nfts).map toNfts =
      Webhooks.deleteNfts rt portfolioId leg (toNfts nfts) := by
  unfold deleteNfts Webhooks.deleteNfts
  cases ensure (storable leg.tokenAddress) invalidByteSequence with
  | error e => rfl
  | ok _ =>
      cases tokenIdFilter rt leg.tokenId with
      | error e => rfl
      | ok selects =>
          refine congrArg Except.ok (Table.ext ?_)
          show (nfts.rows.filter _).map NftRecord.toNft = (nfts.rows.map NftRecord.toNft).filter _
          rw [List.filter_map]
          rfl

theorem toNfts_moveNft (addr : String) (direction : Direction) (portfolioId : ℕ) :
    (moveNft rt bulkSpamMin spamSetFor chain leg addr direction portfolioId nfts).map toNfts =
      Webhooks.moveNft rt chain leg direction portfolioId (toNfts nfts) := by
  unfold moveNft Webhooks.moveNft
  split
  · exact toNfts_receiveNft _ portfolioId chain.slug
  · exact toNfts_deleteNfts portfolioId

theorem toNfts_moveCandidates (cs : List (String × Direction)) (nfts : NftRecords) :
    Webhooks.moveCandidates rt chain leg db cs (toNfts nfts) =
      ((moveCandidates rt bulkSpamMin spamSetFor chain leg db cs nfts).1,
        toNfts (moveCandidates rt bulkSpamMin spamSetFor chain leg db cs nfts).2) := by
  induction cs generalizing nfts with
  | nil => rfl
  | cons c cs ih =>
      obtain ⟨addr, direction⟩ := c
      unfold Webhooks.moveCandidates moveCandidates
      cases findConnectedPortfolio rt addr chain.id db with
      | error e => rfl
      | ok portfolio? =>
          cases portfolio? with
          | none => exact ih nfts
          | some portfolio =>
              dsimp only
              rw [← @toNfts_moveNft rt bulkSpamMin spamSetFor chain leg nfts addr direction]
              cases moveNft rt bulkSpamMin spamSetFor chain leg addr direction portfolio.id
                  nfts with
              | error e => rfl
              | ok nfts' =>
                  dsimp only [Except.map]
                  rw [ih nfts']

/-- On the columns that the webhook knows, it does what it does without the verdict. -/
theorem toNfts_processNftTransfers (transfers : List JsonValue) (nfts : NftRecords) :
    Webhooks.processNftTransfers rt chain db transfers (toNfts nfts) =
      ((processNftTransfers rt bulkSpamMin spamSetFor chain db transfers nfts).1,
        toNfts (processNftTransfers rt bulkSpamMin spamSetFor chain db transfers nfts).2) := by
  induction transfers generalizing nfts with
  | nil => rfl
  | cons transfer transfers ih =>
      have hfirst : Webhooks.processNftTransfer rt chain db transfer (toNfts nfts) =
          ((processNftTransfer rt bulkSpamMin spamSetFor chain db transfer nfts).1,
            toNfts (processNftTransfer rt bulkSpamMin spamSetFor chain db transfer nfts).2) := by
        unfold Webhooks.processNftTransfer processNftTransfer
        cases readNftTransfer rt transfer with
        | error e => rfl
        | ok leg? =>
            cases leg? with
            | none => rfl
            | some leg => exact toNfts_moveCandidates _ nfts
      unfold Webhooks.processNftTransfers processNftTransfers
      rw [hfirst]
      cases processNftTransfer rt bulkSpamMin spamSetFor chain db transfer nfts with
      | mk count nfts' =>
          cases count with
          | error e => rfl
          | ok count =>
              dsimp only
              rw [ih nfts']

end Columns

/-! ## Held items -/

def WalletNftHolding.item (h : WalletNftHolding) : String × String :=
  (h.contractAddress, h.tokenId)

/-- The rows of a portfolio are these holdings, as the providers report them: each item once, its
contract in lower case. -/
structure Holds (text : Ledger.Js) (p : ℕ) (held : List WalletNftHolding) (nfts : NftRecords) :
    Prop where
  items : ∀ item, (nfts.find? (p, item)).isSome ↔ item ∈ held.map WalletNftHolding.item
  nodup : (held.map WalletNftHolding.item).Nodup
  lower : ∀ h ∈ held, text.toLowerCase h.contractAddress = h.contractAddress

/-- The holdings once an item was received. -/
def received (h : WalletNftHolding) (held : List WalletNftHolding) : List WalletNftHolding :=
  if h.item ∈ held.map WalletNftHolding.item then held else held ++ [h]

def contractCount (contract : String) (held : List WalletNftHolding) : ℕ :=
  held.countP fun h => h.contractAddress = contract

section Held

variable {text : Ledger.Js} {p : ℕ} {h : WalletNftHolding} {held : List WalletNftHolding}
  {nfts nfts' : NftRecords}

theorem item_mem_received : h.item ∈ (received h held).map WalletNftHolding.item := by
  unfold received
  split
  · next hmem => exact hmem
  · rw [List.map_append]
    exact List.mem_append_right _ List.mem_cons_self

theorem received_received : received h (received h held) = received h held :=
  if_pos item_mem_received

/-- An item that was held already is not counted again. -/
theorem contractCount_received : contractCount h.contractAddress (received h held) =
    contractCount h.contractAddress held +
      if h.item ∈ held.map WalletNftHolding.item then 0 else 1 := by
  unfold received contractCount
  split
  · rfl
  · rw [List.countP_append, List.countP_singleton, if_pos (decide_eq_true rfl)]

theorem lower_received
    (hheld : ∀ h' ∈ held, text.toLowerCase h'.contractAddress = h'.contractAddress)
    (hlower : text.toLowerCase h.contractAddress = h.contractAddress) :
    ∀ h' ∈ received h held, text.toLowerCase h'.contractAddress = h'.contractAddress := by
  unfold received
  split
  · exact hheld
  · intro h' hmem
    rcases List.mem_append.mp hmem with hold | hnew
    · exact hheld h' hold
    · rw [List.mem_singleton.mp hnew]
      exact hlower

theorem Holds.congr (hheld : Holds text p held nfts)
    (hsame : ∀ item, nfts'.find? (p, item) = nfts.find? (p, item)) :
    Holds text p held nfts' where
  items item := by
    rw [hsame]
    exact hheld.items item
  nodup := hheld.nodup
  lower := hheld.lower

/-- A row that is set makes its item held. -/
theorem Holds.set {r : NftRecord} (hheld : Holds text p held nfts) (hkey : r.key = (p, h.item))
    (hlower : text.toLowerCase h.contractAddress = h.contractAddress) :
    Holds text p (received h held) (nfts.set r) := by
  have hfind : ∀ item, ((nfts.set r).find? (p, item)).isSome ↔
      item = h.item ∨ item ∈ held.map WalletNftHolding.item := by
    intro item
    rw [Table.find?_set, hkey]
    by_cases heq : item = h.item
    · simp [heq]
    · have hne : (p, h.item) ≠ (p, item) := fun hsame => heq (Prod.mk.inj hsame).2.symm
      rw [if_neg hne, hheld.items]
      simp [heq]
  have hitems : (∀ item, item = h.item ∨ item ∈ held.map WalletNftHolding.item ↔
      item ∈ (received h held).map WalletNftHolding.item) ∧
      ((received h held).map WalletNftHolding.item).Nodup := by
    unfold received
    split
    · next hmem => exact ⟨fun item => or_iff_right_of_imp fun heq => heq ▸ hmem, hheld.nodup⟩
    · next hnew =>
        refine ⟨fun item => ?_, nodup_map_concat hnew hheld.nodup⟩
        rw [List.map_append, List.mem_append, List.map_singleton, List.mem_singleton]
        exact or_comm
  exact ⟨fun item => (hfind item).trans (hitems.1 item), hitems.2,
    lower_received hheld.lower hlower⟩

/-- The rows of a contract are counted as its holdings are. -/
theorem existingHeld_eq (hheld : Holds text p held nfts) (contract : String) :
    existingHeld p contract nfts = contractCount contract held := by
  let rows := nfts.rows.filter fun r => r.portfolioId = p
  have hkeys : (rows.map NftRecord.key).Nodup := nodup_map_filter _ nfts.nodup
  have hitems : rows.map NftRecord.key =
      (rows.map fun r => (r.contractAddress, r.tokenId)).map (Prod.mk p) := by
    rw [List.map_map]
    refine List.map_congr_left fun r hr => ?_
    have hp : r.portfolioId = p := of_decide_eq_true (List.mem_filter.mp hr).2
    rw [Function.comp_apply, ← hp]
    rfl
  have hperm : (rows.map fun r => (r.contractAddress, r.tokenId)).Perm
      (held.map WalletNftHolding.item) := by
    rw [hitems] at hkeys
    refine (List.perm_ext_iff_of_nodup hkeys.of_map hheld.nodup).mpr fun item => ?_
    rw [← hheld.items, Option.isSome_iff_exists]
    constructor
    · intro hmem
      obtain ⟨r, hr, rfl⟩ := List.mem_map.mp hmem
      obtain ⟨hrow, hp⟩ := List.mem_filter.mp hr
      refine ⟨r, Table.find?_eq_some_iff.mpr ⟨hrow, ?_⟩⟩
      rw [← of_decide_eq_true hp]
      rfl
    · rintro ⟨r, hfound⟩
      obtain ⟨hrow, hkey⟩ := Table.find?_eq_some_iff.mp hfound
      obtain ⟨hp, rfl⟩ := Prod.mk.inj hkey
      exact List.mem_map.mpr ⟨r, List.mem_filter.mpr ⟨hrow, decide_eq_true hp⟩, rfl⟩
  calc existingHeld p contract nfts
      = rows.countP fun r => r.contractAddress = contract := by
        unfold existingHeld
        rw [List.countP_filter]
        refine List.countP_congr fun r _ => ?_
        simp [and_comm]
    _ = (rows.map fun r => (r.contractAddress, r.tokenId)).countP
          fun item => item.1 = contract := by
        rw [List.countP_map]
        rfl
    _ = (held.map WalletNftHolding.item).countP fun item => item.1 = contract :=
        hperm.countP_eq _
    _ = contractCount contract held := by
        rw [List.countP_map]
        rfl

end Held

/-! ## One delivery -/

/-- A text of the transfer. -/
def textField (transfer : JsonValue) (key : String) : Option String :=
  (Webhooks.JsonValue.present (transfer.field key)).bind JsonValue.text?

/-- The transfer brings this item. -/
structure Brings (rt : Runtime) (transfer : JsonValue) (leg : NftLeg) (h : WalletNftHolding) :
    Prop where
  reads : readNftTransfer rt transfer = .ok (some leg)
  tokenId : leg.tokenId.text? = some h.tokenId
  contract : leg.tokenAddress = h.contractAddress

section Delivery

variable {rt : Runtime} {bulkSpamMin : ℕ} {spamContracts : List String}
  {spamSetFor : String → List String} {chain : Chain} {db : Db} {transfer : JsonValue}
  {leg : NftLeg} {h : WalletNftHolding} {p : ℕ} {nfts nfts' : NftRecords}

theorem optionalText_ok {key : String} {s : Option String}
    (hread : optionalText transfer key = .ok s) : s = textField transfer key := by
  unfold optionalText at hread
  unfold textField
  cases hfield : Webhooks.JsonValue.present (transfer.field key) with
  | none =>
      rw [hfield] at hread
      cases hread
      rfl
  | some v =>
      rw [hfield] at hread
      dsimp only at hread
      cases htext : require v.text? invalidArgument with
      | error e =>
          rw [htext] at hread
          cases hread
      | ok text =>
          rw [htext] at hread
          cases hread
          rw [Option.bind_some]
          exact (require_ok htext).symm

theorem readNftColumns_ok {columns : NftColumns}
    (hread : readNftColumns rt transfer = .ok columns) :
    columns.name = textField transfer "tokenName" ∧
      columns.collectionName = textField transfer "collectionName" := by
  unfold readNftColumns at hread
  obtain ⟨name, hname, hread⟩ := bind_eq_ok hread
  obtain ⟨collectionName, hcollection, hread⟩ := bind_eq_ok hread
  obtain ⟨_, -, hread⟩ := bind_eq_ok hread
  obtain ⟨_, -, hread⟩ := bind_eq_ok hread
  obtain ⟨_, -, hread⟩ := bind_eq_ok hread
  obtain ⟨_, -, hread⟩ := bind_eq_ok hread
  obtain ⟨_, -, hread⟩ := bind_eq_ok hread
  obtain ⟨_, -, hread⟩ := bind_eq_ok hread
  obtain ⟨_, -, hread⟩ := bind_eq_ok hread
  obtain ⟨_, -, hread⟩ := bind_eq_ok hread
  cases hread
  exact ⟨optionalText_ok hname, optionalText_ok hcollection⟩

theorem lowered_ok {v : Option JsonValue} {s : String} (hread : lowered rt v = .ok s) :
    s = "" ∨ ∃ x, s = rt.toLowerCase x := by
  unfold lowered at hread
  split at hread
  · cases hread
    exact .inl rfl
  · next x _ =>
      cases hread
      exact .inr ⟨x, rfl⟩
  · cases hread

/-- The addresses of a transfer are lower case. -/
theorem readNftTransfer_ok (hread : readNftTransfer rt transfer = .ok (some leg)) :
    leg.transfer = transfer ∧ leg.tokenAddress ≠ "" ∧
      ∀ s, s = leg.fromAddr ∨ s = leg.toAddr ∨ s = leg.tokenAddress →
        s = "" ∨ ∃ x, s = rt.toLowerCase x := by
  unfold readNftTransfer at hread
  obtain ⟨fromAddr, hfrom, hread⟩ := bind_eq_ok hread
  obtain ⟨toAddr, hto, hread⟩ := bind_eq_ok hread
  obtain ⟨tokenAddress, htoken, hread⟩ := bind_eq_ok hread
  obtain ⟨tokenId, hfilter, hleg⟩ := Option.map_eq_some_iff.mp (Except.ok.inj hread)
  subst hleg
  have hnamed := of_decide_eq_true (Option.filter_eq_some_iff.mp hfilter).2
  refine ⟨rfl, hnamed.2, ?_⟩
  rintro s (rfl | rfl | rfl)
  · exact lowered_ok hfrom
  · exact lowered_ok hto
  · exact lowered_ok htoken

/-- An upsert writes one row, with the verdict on its signals. -/
theorem receiveNft_ok {chainSlug : String} (hbrings : Brings rt transfer leg h)
    (hok : receiveNft rt bulkSpamMin spamContracts p chainSlug leg nfts = .ok nfts') :
    ∃ columns r, readNftColumns rt transfer = .ok columns ∧ nfts' = nfts.set r ∧
      r.key = (p, h.item) ∧
      r.spam = classifyNftSpam rt.toJs bulkSpamMin
        (liveSignals spamContracts leg columns (existingHeld p h.contractAddress nfts)) := by
  have htransfer := (readNftTransfer_ok hbrings.reads).1
  unfold receiveNft at hok
  obtain ⟨_, -, hok⟩ := bind_eq_ok hok
  obtain ⟨columns, hcolumns, hok⟩ := bind_eq_ok hok
  obtain ⟨tokenId, htokenId, hok⟩ := bind_eq_ok hok
  have hid : tokenId = h.tokenId :=
    Option.some.inj ((require_ok htokenId).symm.trans hbrings.tokenId)
  subst hid
  rw [htransfer] at hcolumns
  rw [hbrings.contract] at hok
  unfold storeNft at hok
  obtain ⟨_, -, hok⟩ := bind_eq_ok hok
  split at hok
  · cases hok
    exact ⟨columns, _, hcolumns, rfl, rfl, rfl⟩
  · next old hold =>
      cases hok
      exact ⟨columns, _, hcolumns, rfl, (Table.find?_eq_some_iff.mp hold).2, rfl⟩

theorem upsertFits_again {nft : Nft} {stored : Bool} (hfits : nft.upsertFits rt stored) :
    nft.upsertFits rt true := by
  cases stored with
  | true => exact hfits
  | false =>
      have hcreate : nft.createFits = true := hfits
      have hupdate : nft.updateFits = true := by
        unfold Nft.createFits at hcreate
        simp only [Bool.and_eq_true] at hcreate
        exact hcreate.1.1.1.1.1.1.1.1
      unfold Nft.upsertFits
      simp [hcreate, hupdate]

theorem isOk_storeNft {spam : Bool} {nft : Nft} :
    (storeNft rt spam transfer nft nfts).isOk =
      nft.upsertFits rt (nfts.find? nft.key).isSome := by
  unfold storeNft ensure
  cases hfits : nft.upsertFits rt (nfts.find? nft.key).isSome with
  | false => rfl
  | true => cases nfts.find? nft.key <;> rfl

/-- An upsert that was accepted is accepted again. -/
theorem receiveNft_again {chainSlug : String} (hbrings : Brings rt transfer leg h)
    (hok : (receiveNft rt bulkSpamMin spamContracts p chainSlug leg nfts).isOk)
    (hstored : (nfts'.find? (p, h.item)).isSome) :
    (receiveNft rt bulkSpamMin spamContracts p chainSlug leg nfts').isOk := by
  cases hfirst : receiveNft rt bulkSpamMin spamContracts p chainSlug leg nfts with
  | error e =>
      rw [hfirst] at hok
      cases hok
  | ok nfts₁ =>
      unfold receiveNft at hfirst ⊢
      obtain ⟨_, hstorable, hfirst⟩ := bind_eq_ok hfirst
      obtain ⟨columns, hcolumns, hfirst⟩ := bind_eq_ok hfirst
      obtain ⟨tokenId, htokenId, hfirst⟩ := bind_eq_ok hfirst
      have hid : tokenId = h.tokenId :=
        Option.some.inj ((require_ok htokenId).symm.trans hbrings.tokenId)
      subst hid
      rw [hstorable, hcolumns, htokenId]
      refine (@isOk_storeNft rt _ _ _ _).trans ?_
      have hfits := (@isOk_storeNft rt _ nfts _ _).symm.trans (congrArg Except.isOk hfirst)
      rw [hbrings.contract] at hfits ⊢
      have hkey : (nfts'.find? (Nft.key
          { columns with
            portfolioId := p, contractAddress := h.contractAddress, tokenId := h.tokenId
            chain := chainSlug })).isSome = true := hstored
      rw [hkey]
      exact upsertFits_again hfits

theorem findConnectedPortfolio_ok {addr : String} {q : Portfolio}
    (hfound : findConnectedPortfolio rt addr chain.id db = .ok (some q)) :
    addr ≠ "" ∧ q ∈ db.portfolios.rows ∧ q.walletAddress = some (rt.toLowerCase addr) := by
  unfold findConnectedPortfolio at hfound
  split at hfound
  · cases hfound
  · next hne =>
      split at hfound
      · cases hfound
      · have hfind := Except.ok.inj hfound
        have hmatch := List.find?_some hfind
        simp only [decide_eq_true_eq] at hmatch
        exact ⟨hne, List.mem_of_find?_eq_some hfind, hmatch.1⟩

/-- The receiver of the transfer is this portfolio. -/
def RoutesTo (rt : Runtime) (chain : Chain) (leg : NftLeg) (p : ℕ) (db : Db) : Prop :=
  ∃ portfolio, findConnectedPortfolio rt leg.toAddr chain.id db = .ok (some portfolio) ∧
    portfolio.id = p

/-- What the sender loses is not in the portfolio of the receiver. -/
theorem sender_ne (hlower : ∀ s, rt.toLowerCase (rt.toLowerCase s) = rt.toLowerCase s)
    (hread : readNftTransfer rt transfer = .ok (some leg)) (hroute : RoutesTo rt chain leg p db)
    (hne : leg.fromAddr ≠ leg.toAddr) {q : Portfolio}
    (hsender : findConnectedPortfolio rt leg.fromAddr chain.id db = .ok (some q)) : q.id ≠ p := by
  obtain ⟨portfolio, hreceiver, rfl⟩ := hroute
  obtain ⟨hto, hmem, hwallet⟩ := findConnectedPortfolio_ok hreceiver
  obtain ⟨hfrom, hmem', hwallet'⟩ := findConnectedPortfolio_ok hsender
  obtain ⟨-, -, haddress⟩ := readNftTransfer_ok hread
  have hfixed : ∀ s, s = leg.fromAddr ∨ s = leg.toAddr ∨ s = leg.tokenAddress → s ≠ "" →
      rt.toLowerCase s = s := by
    intro s hs hnonempty
    obtain ⟨x, rfl⟩ := (haddress s hs).resolve_left hnonempty
    exact hlower x
  intro hid
  have hsame : q = portfolio := SerialTable.eq_of_id_eq hmem' hmem hid
  rw [hsame, hwallet, hfixed _ (.inr (.inl rfl)) hto, hfixed _ (.inl rfl) hfrom] at hwallet'
  exact hne (Option.some.inj hwallet').symm

theorem find?_deleteNfts {q : ℕ} (hne : q ≠ p) (hok : deleteNfts rt q leg nfts = .ok nfts')
    (item : String × String) : nfts'.find? (p, item) = nfts.find? (p, item) := by
  unfold deleteNfts at hok
  obtain ⟨_, -, hok⟩ := bind_eq_ok hok
  obtain ⟨selects, -, hok⟩ := bind_eq_ok hok
  cases hok
  apply Table.find?_filter
  intro r hkey
  have hp : r.portfolioId = p := (Prod.mk.inj hkey).1
  rw [decide_eq_true_iff]
  rintro ⟨hq, -⟩
  exact hne (hq.symm.trans hp)

/-- After a delivery the rows of the receiver are those that its upsert left. -/
theorem find?_delivery (hlower : ∀ s, rt.toLowerCase (rt.toLowerCase s) = rt.toLowerCase s)
    (hread : readNftTransfer rt transfer = .ok (some leg)) (hroute : RoutesTo rt chain leg p db)
    (hok : receiveNft rt bulkSpamMin (spamSetFor leg.toAddr) p chain.slug leg nfts = .ok nfts')
    (item : String × String) :
    ((processNftTransfers rt bulkSpamMin spamSetFor chain db [transfer] nfts).2).find? (p, item) =
      nfts'.find? (p, item) := by
  have hone : (processNftTransfers rt bulkSpamMin spamSetFor chain db [transfer] nfts).2 =
      (processNftTransfer rt bulkSpamMin spamSetFor chain db transfer nfts).2 := by
    unfold processNftTransfers
    cases processNftTransfer rt bulkSpamMin spamSetFor chain db transfer nfts with
    | mk count nfts₁ => cases count <;> rfl
  obtain ⟨portfolio, hreceiver, hid⟩ := hroute
  have hto := (findConnectedPortfolio_ok hreceiver).1
  have hreceive : moveNft rt bulkSpamMin spamSetFor chain leg leg.toAddr .buy portfolio.id nfts =
      .ok nfts' := by
    unfold moveNft
    rw [if_pos rfl, hid]
    exact hok
  rw [hone]
  unfold processNftTransfer candidates
  rw [hread]
  dsimp only
  rw [if_pos hto, List.singleton_append]
  unfold moveCandidates
  rw [hreceiver]
  dsimp only
  rw [hreceive]
  dsimp only
  split
  · next hsends =>
      unfold moveCandidates
      cases hsender : findConnectedPortfolio rt leg.fromAddr chain.id db with
      | error e => rfl
      | ok q? =>
          cases q? with
          | none => rfl
          | some q =>
              dsimp only
              have hne := sender_ne hlower hread ⟨portfolio, hreceiver, hid⟩ hsends.2 hsender
              have hsell : moveNft rt bulkSpamMin spamSetFor chain leg leg.fromAddr .sell q.id
                  nfts' = deleteNfts rt q.id leg nfts' := if_neg (by decide)
              rw [hsell]
              cases hdelete : deleteNfts rt q.id leg nfts' with
              | error e => rfl
              | ok nfts₂ => exact find?_deleteNfts hne hdelete item
  · rfl

end Delivery

/-! ## The label after any number of deliveries -/

section Labels

variable (rt : Runtime) (bulkSpamMin : ℕ) (spamSetFor : String → List String) (chain : Chain)

/-- The table after the transfer was delivered in each of these databases. -/
def delivered (transfer : JsonValue) (dbs : List Db) (nfts : NftRecords) : NftRecords :=
  dbs.foldl
    (fun nfts db => (processNftTransfers rt bulkSpamMin spamSetFor chain db [transfer] nfts).2)
    nfts

/-- The verdict that is stored for the item is the one that its import among the resulting
holdings would store. -/
def LabelAgrees (transfer : JsonValue) (leg : NftLeg) (h : WalletNftHolding) (p : ℕ)
    (held : List WalletNftHolding) (dbs : List Db) (nfts : NftRecords) : Prop :=
  ((delivered rt bulkSpamMin spamSetFor chain transfer dbs nfts).find? (p, h.item)).map
      NftRecord.spam =
    some (h.verdict rt.toText (classifyNftSpam rt.toJs bulkSpamMin) (spamSetFor leg.toAddr)
      (received h held))

variable {rt bulkSpamMin spamSetFor chain} {transfer : JsonValue} {leg : NftLeg}
  {h : WalletNftHolding} {p : ℕ} {held : List WalletNftHolding} {nfts : NftRecords}

theorem lower_of_brings (hlower : ∀ s, rt.toLowerCase (rt.toLowerCase s) = rt.toLowerCase s)
    (hbrings : Brings rt transfer leg h) :
    rt.toLowerCase h.contractAddress = h.contractAddress := by
  obtain ⟨-, hne, haddress⟩ := readNftTransfer_ok hbrings.reads
  obtain ⟨x, hx⟩ := (haddress _ (.inr (.inr rfl))).resolve_left hne
  rw [← hbrings.contract, hx]
  exact hlower x

/-- The last delivery counts the arrival, and the item itself if it was there before. -/
theorem spam_delivered (hlower : ∀ s, rt.toLowerCase (rt.toLowerCase s) = rt.toLowerCase s)
    (hbrings : Brings rt transfer leg h) {db : Db} {dbs : List Db}
    (hroutes : ∀ d ∈ db :: dbs, RoutesTo rt chain leg p d) (hheld : Holds rt.toJs p held nfts)
    (haccepted :
      (receiveNft rt bulkSpamMin (spamSetFor leg.toAddr) p chain.slug leg nfts).isOk) :
    ∃ columns counted, readNftColumns rt transfer = .ok columns ∧
      counted + 1 = contractCount h.contractAddress (received h held) +
        (if h.item ∈ held.map WalletNftHolding.item ∨ dbs ≠ [] then 1 else 0) ∧
      ((delivered rt bulkSpamMin spamSetFor chain transfer (db :: dbs) nfts).find?
          (p, h.item)).map NftRecord.spam =
        some (classifyNftSpam rt.toJs bulkSpamMin
          (liveSignals (spamSetFor leg.toAddr) leg columns counted)) := by
  induction dbs generalizing db held nfts with
  | nil =>
      cases hfirst : receiveNft rt bulkSpamMin (spamSetFor leg.toAddr) p chain.slug leg nfts with
      | error e =>
          rw [hfirst] at haccepted
          cases haccepted
      | ok nfts' =>
          obtain ⟨columns, r, hcolumns, rfl, hkey, hspam⟩ := receiveNft_ok hbrings hfirst
          refine ⟨columns, existingHeld p h.contractAddress nfts, hcolumns, ?_, ?_⟩
          · rw [existingHeld_eq hheld, contractCount_received]
            by_cases hmem : h.item ∈ held.map WalletNftHolding.item
            · simp [hmem]
            · simp [hmem]
          · have hrow := @find?_delivery rt bulkSpamMin spamSetFor chain db transfer leg p nfts _
              hlower hbrings.reads (hroutes db List.mem_cons_self) hfirst h.item
            unfold delivered
            rw [List.foldl_cons, List.foldl_nil, hrow, Table.find?_set, if_pos hkey,
              Option.map_some, hspam]
  | cons db' dbs ih =>
      cases hfirst : receiveNft rt bulkSpamMin (spamSetFor leg.toAddr) p chain.slug leg nfts with
      | error e =>
          rw [hfirst] at haccepted
          cases haccepted
      | ok nfts' =>
          obtain ⟨columns, r, hcolumns, rfl, hkey, hspam⟩ := receiveNft_ok hbrings hfirst
          have hrow := @find?_delivery rt bulkSpamMin spamSetFor chain db transfer leg p nfts _
            hlower hbrings.reads (hroutes db List.mem_cons_self) hfirst
          have hheld' := (hheld.set hkey (lower_of_brings hlower hbrings)).congr hrow
          have hstored := (hheld'.items h.item).mpr item_mem_received
          obtain ⟨columns', counted, hcolumns', hcounted, hlabel⟩ :=
            @ih _ _ db' (fun d hd => hroutes d (List.mem_cons_of_mem db hd)) hheld'
              (receiveNft_again hbrings haccepted hstored)
          refine ⟨columns', counted, hcolumns', ?_, hlabel⟩
          rw [received_received, if_pos (.inl item_mem_received)] at hcounted
          rw [hcounted, if_pos (.inr (List.cons_ne_nil db' dbs))]

/-- The import counts the holdings of the contract. -/
theorem verdict_eq {text : Wallet.Text} {classify : SpamSignals → Bool}
    {spamContracts : List String} {holdings : List WalletNftHolding}
    (hlower : ∀ h' ∈ holdings, text.toLowerCase h'.contractAddress = h'.contractAddress)
    (hcontract : text.toLowerCase h.contractAddress = h.contractAddress) :
    h.verdict text classify spamContracts holdings =
      classify
        { possibleSpam := h.possibleSpam
          spamContract := text.toLowerCase h.contractAddress ∈ spamContracts
          name := h.name
          collectionName := h.collectionName
          contractAddress := h.contractAddress
          heldCount := contractCount h.contractAddress holdings } := by
  have hcount : (holdings.countP fun h' =>
      text.toLowerCase h'.contractAddress = text.toLowerCase h.contractAddress) =
      contractCount h.contractAddress holdings := by
    unfold contractCount
    refine List.countP_congr fun h' hmem => ?_
    rw [hlower h' hmem, hcontract]
  unfold WalletNftHolding.verdict
  rw [hcount]

/-- The two verdicts on an item that no list decides: `again` counts it once more. -/
theorem label_iff (count bulk : ℕ) (again live flagged named : Prop) [Decidable again] :
    ((false = true ∨ bulk ≤ count + (if again then 1 else 0) ∨ live) ↔
        (flagged ∨ bulk ≤ count ∨ named)) ↔
      bulk ≤ count ∨ ((live ∨ again ∧ count + 1 = bulk) ↔ (flagged ∨ named)) := by
  by_cases hbulk : bulk ≤ count
  · have hcounted : bulk ≤ count + if again then 1 else 0 := Nat.le_add_right_of_le hbulk
    simp [hbulk, hcounted]
  · have hcounted : (bulk ≤ count + if again then 1 else 0) ↔ again ∧ count + 1 = bulk := by
      split
      · next hagain =>
          rw [and_iff_right hagain]
          omega
      · next hagain =>
          rw [iff_false_right fun h => hagain h.1]
          omega
    rw [hcounted]
    simp only [hbulk, Bool.false_eq_true, false_or]
    rw [or_comm]

/-- The label agrees exactly where a list decides about the contract, where the wallet holds a
bulk of it, and else where the flag of the provider or its texts make the item spam if and only
if the texts of the transfer do or the item, counted once more, completes a bulk. -/
theorem labelAgrees_iff (hlower : ∀ s, rt.toLowerCase (rt.toLowerCase s) = rt.toLowerCase s)
    (hbrings : Brings rt transfer leg h) {dbs : List Db} (hdelivered : dbs ≠ [])
    (hroutes : ∀ db ∈ dbs, RoutesTo rt chain leg p db) (hheld : Holds rt.toJs p held nfts)
    (haccepted :
      (receiveNft rt bulkSpamMin (spamSetFor leg.toAddr) p chain.slug leg nfts).isOk) :
    LabelAgrees rt bulkSpamMin spamSetFor chain transfer leg h p held dbs nfts ↔
      Listed rt.toJs (spamSetFor leg.toAddr) h.contractAddress ∨
        bulkSpamMin ≤ contractCount h.contractAddress (received h held) ∨
        ((isHeuristicNftSpam (textField transfer "tokenName")
              (textField transfer "collectionName") = true ∨
            (h.item ∈ held.map WalletNftHolding.item ∨ 2 ≤ dbs.length) ∧
              contractCount h.contractAddress (received h held) + 1 = bulkSpamMin) ↔
          (h.possibleSpam = true ∨ isHeuristicNftSpam h.name h.collectionName = true)) := by
  obtain ⟨db, dbs, rfl⟩ := List.exists_cons_of_ne_nil hdelivered
  obtain ⟨columns, counted, hcolumns, hcounted, hlabel⟩ :=
    spam_delivered hlower hbrings hroutes hheld haccepted
  obtain ⟨hname, hcollection⟩ := readNftColumns_ok hcolumns
  have hcontract := lower_of_brings hlower hbrings
  have hagain : 2 ≤ (db :: dbs).length ↔ dbs ≠ [] := by
    rw [List.length_cons, ← List.length_pos_iff]
    omega
  have hlive : (liveSignals (spamSetFor leg.toAddr) leg columns counted).spamContract =
      decide (rt.toLowerCase leg.tokenAddress ∈ spamSetFor leg.toAddr) := by
    rw [hbrings.contract, hcontract, ← hbrings.contract]
    rfl
  have himported := @verdict_eq h rt.toText (classifyNftSpam rt.toJs bulkSpamMin)
    (spamSetFor leg.toAddr) (received h held) (lower_received hheld.lower hcontract) hcontract
  unfold LabelAgrees
  rw [hlabel, himported, Option.some_inj]
  by_cases hlisted : Listed rt.toJs (spamSetFor leg.toAddr) h.contractAddress
  · refine iff_of_true ?_ (.inl hlisted)
    refine classifyNftSpam_of_listed hbrings.contract hlive rfl ?_
    rw [← hbrings.contract] at hlisted
    exact hlisted
  · have hunlisted := hlisted
    rw [← hbrings.contract] at hunlisted
    rw [or_iff_right hlisted, Bool.eq_iff_iff, classifyNftSpam_iff hlive hunlisted,
      classifyNftSpam_iff rfl hlisted]
    show ((false = true ∨ bulkSpamMin ≤ counted + 1 ∨
        isHeuristicNftSpam columns.name columns.collectionName = true) ↔ _) ↔ _
    rw [hname, hcollection, hagain, hcounted]
    exact label_iff _ _ _ _ _ _

end Labels

/-! ## Labels of one item -/

def itemChain : Chain := ⟨1, "ethereum", "0x1"⟩

def itemRuntime : Runtime := Webhooks.sampleRuntime .null "" "" ""

/-- One portfolio is connected. -/
def itemDb : Db :=
  { Webhooks.hookDb with
    portfolios := ⟨[Webhooks.trackedPortfolio 1 1 "0xaa"], 2, by decide +kernel,
      by decide +kernel, by decide +kernel⟩ }

/-- It receives an item, under this name if it has one. -/
def nftTransfer (name : Option String) : JsonValue :=
  .object
    ([("from", .string "0xbb"), ("to", .string "0xaa"), ("tokenAddress", .string "0xnft"),
      ("tokenId", .string "7")] ++
      (name.map fun name => ("tokenName", .string name)).toList)

def nftLeg (name : Option String) : NftLeg where
  fromAddr := "0xbb"
  toAddr := "0xaa"
  tokenAddress := "0xnft"
  tokenId := .string "7"
  transfer := nftTransfer name

def heldItem (name : Option String) (possibleSpam : Bool) : WalletNftHolding where
  contractAddress := "0xnft"
  tokenId := "7"
  name := name
  description := none
  collectionName := none
  logoUrl := none
  tokenStandard := none
  possibleSpam := possibleSpam

def ItemAgrees (bulkSpamMin : ℕ) (name : Option String) (possibleSpam : Bool)
    (deliveries : ℕ) : Prop :=
  LabelAgrees itemRuntime bulkSpamMin (fun _ => []) itemChain (nftTransfer name) (nftLeg name)
    (heldItem name possibleSpam) 1 [] (List.replicate deliveries itemDb) Table.empty

instance (bulkSpamMin : ℕ) (name : Option String) (possibleSpam : Bool) (deliveries : ℕ) :
    Decidable (ItemAgrees bulkSpamMin name possibleSpam deliveries) :=
  inferInstanceAs (Decidable (_ = _))

theorem brings_item (name : Option String) (possibleSpam : Bool) :
    Brings itemRuntime (nftTransfer name) (nftLeg name) (heldItem name possibleSpam) := by
  have hsender : itemRuntime.toLowerCase "0xbb" = "0xbb" := by decide +kernel
  have hreceiver : itemRuntime.toLowerCase "0xaa" = "0xaa" := by decide +kernel
  have hcontract : itemRuntime.toLowerCase "0xnft" = "0xnft" := by decide +kernel
  have hfrom : lowered itemRuntime ((nftTransfer name).field "from") = .ok "0xbb" :=
    congrArg Except.ok hsender
  have hto : lowered itemRuntime ((nftTransfer name).field "to") = .ok "0xaa" :=
    congrArg Except.ok hreceiver
  have htoken : lowered itemRuntime ((nftTransfer name).field "tokenAddress") = .ok "0xnft" :=
    congrArg Except.ok hcontract
  refine ⟨?_, rfl, rfl⟩
  unfold readNftTransfer
  rw [hfrom, hto, htoken]
  rfl

theorem routesTo_item (name : Option String) :
    RoutesTo itemRuntime itemChain (nftLeg name) 1 itemDb := by
  have hid : (findConnectedPortfolio itemRuntime "0xaa" 1 itemDb).toOption.join.map
      Portfolio.id = some 1 := by decide +kernel
  obtain ⟨portfolio, hfound, hid⟩ := Option.map_eq_some_iff.mp hid
  refine ⟨portfolio, ?_, hid⟩
  show findConnectedPortfolio itemRuntime "0xaa" 1 itemDb = _
  cases hlookup : findConnectedPortfolio itemRuntime "0xaa" 1 itemDb with
  | error e =>
      rw [hlookup] at hfound
      cases hfound
  | ok portfolio? =>
      rw [hlookup] at hfound
      exact congrArg Except.ok hfound

/-- An item that is flagged and asks to claim it is spam to both. -/
theorem itemAgrees_claim : ItemAgrees 10 (some "Claim your gift") true 1 := by
  refine (@labelAgrees_iff itemRuntime 10 (fun _ => []) itemChain _ _ _ 1 [] Table.empty
    toLowerCase_sampleText (brings_item _ true) _ (List.cons_ne_nil itemDb [])
    ?_ ?_ ?_).mpr ?_
  · intro db hdb
    rw [List.mem_singleton.mp hdb]
    exact routesTo_item _
  · exact ⟨by simp [Table.find?], List.nodup_nil, by simp⟩
  · decide +kernel
  · right
    right
    have hnamed : isHeuristicNftSpam (some "Claim your gift") none = true := by decide +kernel
    exact iff_of_true (.inl hnamed) (.inl rfl)

/-- A flag the webhook does not know is lost; an item that is delivered again is counted twice. -/
theorem not_itemAgrees : ¬ ItemAgrees 10 none true 1 ∧ ¬ ItemAgrees 2 none false 2 := by
  decide +kernel

end Neonfi.Nfts

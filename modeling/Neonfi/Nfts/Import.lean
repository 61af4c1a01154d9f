import Neonfi.Webhooks.NftMoves

/-!
# Importing collectibles

The side of a wallet import that writes the `nft` table: a transfer of a collectible upserts or
deletes its row before its transaction is booked, and the holdings a provider reports are
upserted after the transfers.
-/

namespace Neonfi.Nfts

open Lib
open Ledger (Db Portfolio Env)
open Wallet (Text WalletTransfer notAfter storable fitsVarChar importFungibleTransfer)
open Webhooks (Nft NftTable NftKey)

/-! ## Rows -/

/-- An `nft` row with the columns that only the imports write, the spam verdict and the choice of
the user against it, which no import writes. -/
structure NftRecord extends Nft where
  description : Option String
  possibleSpam : Bool
  spam : Bool
  spamOverride : Option Bool := none

def NftRecord.key (r : NftRecord) : NftKey := r.toNft.key

abbrev NftRecords := Table NftRecord NftKey NftRecord.key

/-- The columns the webhook knows. -/
def toNfts (records : NftRecords) : NftTable where
  rows := records.rows.map NftRecord.toNft
  nodup := by
    rw [List.map_map]
    exact records.nodup

def NftRecord.createFits (r : NftRecord) : Bool := r.toNft.createFits && r.description.all storable

/-- The texts that an upsert refreshes where it has them. -/
structure NftTexts where
  name : Option String
  description : Option String
  logoUrl : Option String

def truthy (s : Option String) : Option String := s.filter (· ≠ "")

def NftTexts.fit (t : NftTexts) : Bool :=
  (truthy t.name).all fitsVarChar && (truthy t.description).all storable &&
    (truthy t.logoUrl).all storable

def NftTexts.refresh (t : NftTexts) (old : NftRecord) : NftRecord :=
  { old with
    name := (truthy t.name).or old.name
    description := (truthy t.description).or old.description
    logoUrl := (truthy t.logoUrl).or old.logoUrl }

/-- `nft.upsert`; `none` is the refused write.  If the upsert is one `INSERT … ON CONFLICT`, it
checks the new row in any case. -/
def putNft (insertsFirst : Bool) (row : NftRecord) (texts : NftTexts)
    (update : NftRecord → NftRecord) (records : NftRecords) : Option NftRecords :=
  if ¬ (storable row.contractAddress ∧ storable row.tokenId) then none
  else
    match records.find? row.key with
    | none => if row.createFits then some (records.set row) else none
    | some old =>
        if texts.fit && (!insertsFirst || row.createFits) then
          some (records.set (update (texts.refresh old)))
        else none

/-- `nft.deleteMany` by contract and token. -/
def dropNft (k : NftKey) (records : NftRecords) : Option NftRecords :=
  if storable k.2.1 ∧ storable k.2.2 then some (records.filter fun r => r.key ≠ k) else none

/-! ## Transfers -/

/-- A transfer with the texts of its collectible. -/
structure HistoryTransfer extends WalletTransfer where
  description : Option String := none
  logoUrl : Option String := none

namespace HistoryTransfer

variable (tr : HistoryTransfer)

def texts : NftTexts where
  name := tr.name
  description := tr.description
  logoUrl := tr.logoUrl

def contract (text : Text) : String := text.toLowerCase (tr.contractAddress.getD "")

def tokenId : String := tr.nftTokenId.getD ""

def nftKey (text : Text) (portfolioId : ℕ) : NftKey := (portfolioId, tr.contract text, tr.tokenId)

/-- The transfer names a collectible. -/
def namesNft (text : Text) : Prop := tr.type = .nft ∧ tr.contract text ≠ "" ∧ tr.tokenId ≠ ""

instance (text : Text) : Decidable (tr.namesNft text) :=
  inferInstanceAs (Decidable (_ ∧ _ ∧ _))

def nftRow (text : Text) (portfolioId : ℕ) (chainSlug : String) : NftRecord where
  portfolioId := portfolioId
  contractAddress := tr.contract text
  tokenId := tr.tokenId
  chain := chainSlug
  name := tr.name
  description := tr.description
  collectionName := tr.collectionName
  logoUrl := tr.logoUrl
  tokenStandard := none
  floorPrice := none
  floorPriceUsd := none
  lastSale := none
  lastSaleNote := none
  rarity := none
  traits := none
  possibleSpam := false
  spam := false

end HistoryTransfer

/-- The ledger and the collectibles. -/
structure Holdings where
  db : Db
  nfts : NftRecords

section Import

variable (text : Text) (insertsFirst : Bool) (env : Env) (portfolio : Portfolio)
  (chainSlug : String)

/-- The holding row of a transfer: upserted when it comes in, deleted when it goes out. -/
def storeTransfer (tr : HistoryTransfer) (nfts : NftRecords) : Option NftRecords :=
  if tr.incoming then
    putNft insertsFirst (tr.nftRow text portfolio.id chainSlug) tr.texts id nfts
  else dropNft (tr.nftKey text portfolio.id) nfts

def importNftTransfer (tr : HistoryTransfer) (s : Holdings) : Bool × Holdings :=
  if tr.contract text = "" ∨ tr.tokenId = "" then (false, s)
  else
    match storeTransfer text insertsFirst portfolio chainSlug tr s.nfts with
    | none => (false, s)
    | some nfts =>
        let (did, db) :=
          Wallet.importNftTransfer text portfolio (fun _ => true) tr.toWalletTransfer s.db
        (did, { db, nfts })

def importTransfer (tr : HistoryTransfer) (s : Holdings) : Bool × Holdings :=
  if tr.type = .nft then importNftTransfer text insertsFirst portfolio chainSlug tr s
  else
    let (did, db) := importFungibleTransfer text env portfolio tr.toWalletTransfer s.db
    (did, { s with db })

def ordered (transfers : List HistoryTransfer) : List HistoryTransfer :=
  transfers.insertionSort fun a b => notAfter a.toWalletTransfer b.toWalletTransfer

def importTransfers (transfers : List HistoryTransfer) (s : Holdings) : ℕ × Holdings :=
  (ordered transfers).foldl
    (fun done tr =>
      let (did, s) := importTransfer text insertsFirst env portfolio chainSlug tr done.2
      (if did then done.1 + 1 else done.1, s))
    (0, s)

/-! ## Holdings -/

structure WalletNftHolding where
  contractAddress : String
  tokenId : String
  name : Option String
  description : Option String
  collectionName : Option String
  logoUrl : Option String
  tokenStandard : Option String
  possibleSpam : Bool

/-- What the spam verdict of a holding is made from. -/
structure SpamSignals where
  possibleSpam : Bool
  spamContract : Bool
  name : Option String
  collectionName : Option String
  contractAddress : String
  heldCount : ℕ

/-- One holding; the verdict counts the holdings of its contract. -/
def importNftHolding (classifyNftSpam : SpamSignals → Bool) (spamContracts : List String)
    (holdings : List WalletNftHolding) (h : WalletNftHolding) (nfts : NftRecords) :
    Option NftRecords :=
  let contract := text.toLowerCase h.contractAddress
  let spam := classifyNftSpam
    { possibleSpam := h.possibleSpam
      spamContract := contract ∈ spamContracts
      name := h.name
      collectionName := h.collectionName
      contractAddress := h.contractAddress
      heldCount := holdings.countP fun h' => text.toLowerCase h'.contractAddress = contract }
  let row : NftRecord :=
    { portfolioId := portfolio.id
      contractAddress := h.contractAddress
      tokenId := h.tokenId
      chain := chainSlug
      name := h.name
      description := h.description
      collectionName := h.collectionName
      logoUrl := h.logoUrl
      tokenStandard := h.tokenStandard
      floorPrice := none
      floorPriceUsd := none
      lastSale := none
      lastSaleNote := none
      rarity := none
      traits := none
      possibleSpam := h.possibleSpam
      spam }
  putNft insertsFirst row ⟨h.name, h.description, h.logoUrl⟩
    (fun old => { old with possibleSpam := h.possibleSpam, spam }) nfts

/-- A holding whose write is refused is left out. -/
def importNftHoldings (classifyNftSpam : SpamSignals → Bool) (spamContracts : List String)
    (holdings : List WalletNftHolding) (nfts : NftRecords) : NftRecords :=
  holdings.foldl
    (fun nfts h =>
      (importNftHolding text insertsFirst portfolio chainSlug classifyNftSpam spamContracts
        holdings h nfts).getD nfts)
    nfts

end Import

end Neonfi.Nfts

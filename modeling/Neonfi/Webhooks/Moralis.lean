import Neonfi.Wallet.Sync
import Neonfi.Webhooks.Payload

/-!
# The Moralis webhook

`handleMoralisWebhook` books the native and ERC-20 transfers of a confirmed delivery into the
connected portfolios they touch, keeps the collectibles of these portfolios, and remembers
the delivery in Redis.  An error in the middle answers 500 and keeps what was written before.
-/

namespace Neonfi.Webhooks

open Lib
open JsonValue
open Ledger (Db Portfolio Failure Millis Direction Erc20Meta TokenTable Env ensure require
  transactionHashDuplicate utf16Length)
open Wallet (Text FeedBody SummaryResult storable fitsVarChar valueTooLong invalidByteSequence
  findTokenBySymbol createTransactionFromWebhook refreshConnectedBalancesFromProvider)

/-! ## Surroundings -/

/-- What the handler uses of the runtime, of the database client and of the database. -/
structure Runtime extends Text where
  stringToNumber : String → Option ℚ
  jsonParse : String → Option JsonValue
  keccak256 : String → String
  webhookSecret : String
  /-- Whether the database compares its symbols with a text. -/
  searchable : String → TokenTable → Bool
  acceptsDate : Millis → Bool
  acceptsJson : JsonValue → Bool
  /-- The texts that a value which is no text selects as a filter. -/
  stringFilter : JsonValue → Option (String → Bool)
  /-- An upsert is one `INSERT … ON CONFLICT`, which checks the new row in any case. -/
  insertsFirst : Bool

/-- What a delivery finds outside the tables. -/
structure Moment where
  env : Env
  summary : Portfolio → SummaryResult

structure Delivery where
  rawBody : String
  signature : Option String
  deriving DecidableEq, Repr

structure Chain where
  id : ℕ
  slug : String
  moralisId : String
  deriving DecidableEq, Repr

abbrev ChainTable := Table Chain String Chain.moralisId

/-! ## Collectibles -/

structure NftColumns where
  name : Option String
  collectionName : Option String
  logoUrl : Option String
  tokenStandard : Option String
  floorPrice : Option String
  floorPriceUsd : Option String
  lastSale : Option String
  lastSaleNote : Option String
  rarity : Option String
  traits : Option JsonValue

/-- An `nft` row; the spam verdict, a column of its own, is left out. -/
structure Nft extends NftColumns where
  portfolioId : ℕ
  contractAddress : String
  tokenId : String
  chain : String

def Nft.key (nft : Nft) : ℕ × String × String :=
  (nft.portfolioId, nft.contractAddress, nft.tokenId)

abbrev NftTable := Table Nft (ℕ × String × String) Nft.key

structure State where
  db : Db
  nfts : NftTable
  chains : ChainTable
  /-- The keys that Redis holds. -/
  events : List String

section Processing

variable (rt : Runtime) (moment : Moment)

/-! ## Routing -/

/-- Of several portfolios that match, the one that was created first. -/
def findConnectedPortfolio (walletAddress : String) (chainId : ℕ) (db : Db) :
    Except Failure (Option Portfolio) :=
  if walletAddress = "" then .ok none
  else if ¬ storable (rt.toLowerCase walletAddress) then .error invalidByteSequence
  else
    .ok (db.portfolios.rows.find? fun p =>
      p.walletAddress = some (rt.toLowerCase walletAddress) ∧ p.chainId = some chainId ∧
        p.type = .connected)

/-- `(v ?? '').toLowerCase()`; a value that is no text has no such method. -/
def lowered (v : Option JsonValue) : Except Failure String :=
  match present v with
  | none => .ok ""
  | some (.string s) => .ok (rt.toLowerCase s)
  | some _ => .error typeError

/-- The receiver, then the sender. -/
def candidates (fromAddr toAddr : String) : List (String × Direction) :=
  (if toAddr ≠ "" then [(toAddr, .buy)] else []) ++
    if fromAddr ≠ "" ∧ fromAddr ≠ toAddr then [(fromAddr, .sell)] else []

/-! ## Reading a transfer -/

structure Erc20Fields where
  contract : Option JsonValue
  tokenName : Option JsonValue
  tokenSymbol : String

/-- A transfer of a catalog token with a well-formed amount. -/
structure Leg where
  fromAddr : String
  toAddr : String
  hash : Option JsonValue
  amount : ℚ
  symbol : String
  erc20 : Option Erc20Fields

def Leg.candidates (leg : Leg) : List (String × Direction) :=
  Webhooks.candidates leg.fromAddr leg.toAddr

def senderOfNative (tx : JsonValue) : Option JsonValue :=
  (present (tx.field "from")).or (tx.field "fromAddress")

def receiverOfNative (tx : JsonValue) : Option JsonValue :=
  (present (tx.field "to")).or (tx.field "toAddress")

/-- `none` is the skip. -/
def readNativeTx (moralisChainId : String) (tx : JsonValue) : Except Failure (Option Leg) := do
  let fromAddr ← lowered rt (senderOfNative tx)
  let toAddr ← lowered rt (receiverOfNative tx)
  match nativeSymbol moralisChainId with
  | none => return none
  | some symbol =>
      let amount ← convertWeiToEther rt.toJs ((present (tx.field "value")).getD (.string "0"))
      return amount.map fun amount =>
        { fromAddr, toAddr, hash := tx.field "hash", amount, symbol, erc20 := none }

/-- `token.findFirst`, without regard to case. -/
def findTransferToken (symbol : String) (db : Db) : Except Failure (Option Ledger.Token) :=
  if rt.searchable symbol db.tokens then .ok (findTokenBySymbol rt.toText symbol db)
  else .error invalidByteSequence

def readErc20Transfer (transfer : JsonValue) (db : Db) : Except Failure (Option Leg) := do
  let fromAddr ← lowered rt (transfer.field "from")
  let toAddr ← lowered rt (transfer.field "to")
  match (transfer.field "tokenSymbol").filter truthy with
  | none => return none
  | some v =>
      let symbol ← require v.text? invalidArgument
      match ← findTransferToken rt symbol db with
      | none => return none
      | some token =>
          let amount ← convertTokenAmount rt.toJs
            ((present (transfer.field "value")).getD (.string "0"))
            ((present (transfer.field "tokenDecimals")).getD (.string "18"))
          return amount.map fun amount =>
            { fromAddr, toAddr, hash := transfer.field "transactionHash", amount,
              symbol := token.symbol,
              erc20 := some
                { contract := transfer.field "contract"
                  tokenName := transfer.field "tokenName"
                  tokenSymbol := symbol } }

/-! ## Booking a transfer -/

namespace Leg

variable (leg : Leg)

/-- A hash that is falsy is left out of the body. -/
def transactionHash : Except Failure (Option String) :=
  match leg.hash.filter truthy with
  | none => .ok none
  | some v => (require v.text? invalidArgument).map some

/-- `v ?? fallback` as the value of a text column. -/
def columnText (v : Option JsonValue) (fallback : String) : Except Failure String :=
  match present v with
  | none => .ok fallback
  | some v => require v.text? invalidArgument

def metadata : Except Failure (Option Erc20Meta) :=
  match leg.erc20 with
  | none => .ok none
  | some fields => do
      let tokenContractAddress ← columnText fields.contract ""
      let tokenName ← columnText fields.tokenName fields.tokenSymbol
      return some { tokenContractAddress, tokenName, tokenSymbol := fields.tokenSymbol }

def body (timestamp : Millis) (direction : Direction) (transactionHash : Option String)
    (info : Option Erc20Meta) : FeedBody where
  info := info
  direction := direction
  amount := leg.amount
  symbol := leg.symbol
  timestamp := (some timestamp).filter rt.acceptsDate
  transactionHash := transactionHash
  fromAddr := (some leg.fromAddr).filter (· ≠ "")
  toAddr := (some leg.toAddr).filter (· ≠ "")

/-- Metadata of the wrong type is only seen when the detail record follows the row. -/
def create (timestamp : Millis) (direction : Direction) (portfolio : Portfolio) (db : Db) :
    Except Failure Db := do
  let hash ← leg.transactionHash
  match leg.metadata with
  | .ok info =>
      createTransactionFromWebhook moment.env portfolio (leg.body rt timestamp direction hash info)
        none db
  | .error e =>
      let _ ← createTransactionFromWebhook moment.env portfolio
        (leg.body rt timestamp direction hash none) none db
      .error e

/-- A duplicate hash counts as processed. -/
def ingest (timestamp : Millis) (direction : Direction) (portfolio : Portfolio) (db : Db) :
    Except Failure Db :=
  match leg.create rt moment timestamp direction portfolio db with
  | .ok db => .ok db
  | .error e => if e = transactionHashDuplicate then .ok db else .error e

end Leg

/-- What the loops carry: the tables, and the portfolios to refresh. -/
structure Booked where
  db : Db
  affected : List Portfolio

/-- `affected.set(portfolio.id, portfolio)`. -/
def setAffected (portfolio : Portfolio) (affected : List Portfolio) : List Portfolio :=
  if affected.any fun p => p.id = portfolio.id then
    affected.map fun p => if p.id = portfolio.id then portfolio else p
  else affected ++ [portfolio]

/-- The number of candidates that were booked. -/
def bookCandidates (leg : Leg) (chainId : ℕ) (timestamp : Millis) :
    List (String × Direction) → Booked → Except Failure ℕ × Booked
  | [], s => (.ok 0, s)
  | (addr, direction) :: rest, s =>
      match findConnectedPortfolio rt addr chainId s.db with
      | .error e => (.error e, s)
      | .ok none => bookCandidates leg chainId timestamp rest s
      | .ok (some portfolio) =>
          let affected := setAffected portfolio s.affected
          match leg.ingest rt moment timestamp direction portfolio s.db with
          | .error e => (.error e, { s with affected })
          | .ok db =>
              let (count, s') := bookCandidates leg chainId timestamp rest { db, affected }
              (count.map (· + 1), s')

structure Counts where
  processed : ℕ
  skipped : ℕ
  deriving DecidableEq, Repr

def Counts.add (a b : Counts) : Counts where
  processed := a.processed + b.processed
  skipped := a.skipped + b.skipped

def processNativeTx (chainId : ℕ) (moralisChainId : String) (timestamp : Millis)
    (tx : JsonValue) (s : Booked) : Except Failure Counts × Booked :=
  match readNativeTx rt moralisChainId tx with
  | .error e => (.error e, s)
  | .ok none => (.ok ⟨0, 1⟩, s)
  | .ok (some leg) =>
      let (count, s) := bookCandidates rt moment leg chainId timestamp leg.candidates s
      (count.map fun count => ⟨count, 0⟩, s)

/-- However many of its parties are tracked, a transfer counts once. -/
def processErc20Transfer (chainId : ℕ) (timestamp : Millis) (transfer : JsonValue)
    (s : Booked) : Except Failure Counts × Booked :=
  match readErc20Transfer rt transfer s.db with
  | .error e => (.error e, s)
  | .ok none => (.ok ⟨0, 1⟩, s)
  | .ok (some leg) =>
      let (count, s) := bookCandidates rt moment leg chainId timestamp leg.candidates s
      (count.map fun count => ⟨min count 1, 0⟩, s)

inductive Transfer
  | native (tx : JsonValue)
  | erc20 (transfer : JsonValue)

/-- The native transfers come first. -/
def MoralisPayload.transfers (payload : MoralisPayload) : List Transfer :=
  (payload.txs.getD []).map .native ++ (payload.erc20Transfers.getD []).map .erc20

def processTransfer (chain : Chain) (timestamp : Millis) (transfer : Transfer) (s : Booked) :
    Except Failure Counts × Booked :=
  match transfer with
  | .native tx => processNativeTx rt moment chain.id chain.moralisId timestamp tx s
  | .erc20 transfer => processErc20Transfer rt moment chain.id timestamp transfer s

def processTransfers (chain : Chain) (timestamp : Millis) :
    List Transfer → Booked → Except Failure Counts × Booked
  | [], s => (.ok ⟨0, 0⟩, s)
  | transfer :: transfers, s =>
      match processTransfer rt moment chain timestamp transfer s with
      | (.error e, s) => (.error e, s)
      | (.ok counts, s) =>
          let (rest, s) := processTransfers chain timestamp transfers s
          (rest.map counts.add, s)

/-! ## Collectible transfers -/

structure NftLeg where
  fromAddr : String
  toAddr : String
  tokenAddress : String
  tokenId : JsonValue
  transfer : JsonValue

def readNftTransfer (transfer : JsonValue) : Except Failure (Option NftLeg) := do
  let fromAddr ← lowered rt (transfer.field "from")
  let toAddr ← lowered rt (transfer.field "to")
  let tokenAddress ← lowered rt (transfer.field "tokenAddress")
  return ((transfer.field "tokenId").filter fun tokenId => tokenId.truthy ∧ tokenAddress ≠ "").map
    fun tokenId => { fromAddr, toAddr, tokenAddress, tokenId, transfer }

def optionalText (transfer : JsonValue) (key : String) : Except Failure (Option String) :=
  match present (transfer.field key) with
  | none => .ok none
  | some v => (require v.text? invalidArgument).map some

def optionalJson (transfer : JsonValue) (key : String) : Except Failure (Option JsonValue) :=
  match transfer.field key with
  | none => .ok none
  | some v => (ensure (rt.acceptsJson v) invalidArgument).map fun _ => some v

def readNftColumns (transfer : JsonValue) : Except Failure NftColumns := do
  let name ← optionalText transfer "tokenName"
  let collectionName ← optionalText transfer "collectionName"
  let logoUrl ← optionalText transfer "logoUrl"
  let tokenStandard ← optionalText transfer "tokenStandard"
  let floorPrice ← optionalText transfer "floorPrice"
  let floorPriceUsd ← optionalText transfer "floorPriceUsd"
  let lastSale ← optionalText transfer "lastSale"
  let lastSaleNote ← optionalText transfer "lastSaleNote"
  let rarity ← optionalText transfer "rarity"
  let traits ← optionalJson rt transfer "traits"
  return ⟨name, collectionName, logoUrl, tokenStandard, floorPrice, floorPriceUsd, lastSale,
    lastSaleNote, rarity, traits⟩

def fitsWidth (width : ℕ) (s : String) : Bool := decide (s.length ≤ width) && storable s

namespace Nft

variable (nft : Nft)

/-- The market texts, which an update may write. -/
def updateFits : Bool :=
  nft.floorPrice.all (fitsWidth 50) && nft.floorPriceUsd.all (fitsWidth 50) &&
    nft.lastSale.all (fitsWidth 50) && nft.lastSaleNote.all (fitsWidth 100) &&
    storable nft.contractAddress && storable nft.tokenId

def createFits : Bool :=
  nft.updateFits && nft.name.all fitsVarChar && nft.collectionName.all fitsVarChar &&
    nft.logoUrl.all storable && nft.tokenStandard.all (fitsWidth 50) &&
    nft.rarity.all (fitsWidth 100) && fitsVarChar nft.contractAddress &&
    fitsVarChar nft.tokenId && fitsWidth 50 nft.chain

/-- The texts of an upsert fit, given whether the row is there. -/
def upsertFits (stored : Bool) : Bool :=
  if stored then nft.updateFits && (!rt.insertsFirst || nft.createFits) else nft.createFits

/-- A field the transfer does not carry keeps its value. -/
def refresh (transfer : JsonValue) (old : Nft) : Nft :=
  let keep (key : String) (new old : Option String) : Option String :=
    if (transfer.field key).isSome then new else old
  { old with
    floorPrice := keep "floorPrice" nft.floorPrice old.floorPrice
    floorPriceUsd := keep "floorPriceUsd" nft.floorPriceUsd old.floorPriceUsd
    lastSale := keep "lastSale" nft.lastSale old.lastSale
    lastSaleNote := keep "lastSaleNote" nft.lastSaleNote old.lastSaleNote }

end Nft

/-- The count of held items comes before the upsert and only reads. -/
def upsertNft (portfolioId : ℕ) (chainSlug : String) (leg : NftLeg) (nfts : NftTable) :
    Except Failure NftTable := do
  ensure (storable leg.tokenAddress) invalidByteSequence
  let columns ← readNftColumns rt leg.transfer
  let tokenId ← require leg.tokenId.text? invalidArgument
  let nft : Nft :=
    { columns with portfolioId, contractAddress := leg.tokenAddress, tokenId, chain := chainSlug }
  ensure (nft.upsertFits rt (nfts.find? nft.key).isSome) valueTooLong
  match nfts.insert? nft with
  | some nfts => return nfts
  | none =>
      return nfts.modify
        (fun old => if old.key = nft.key then nft.refresh leg.transfer old else old)
        fun old => by split <;> rfl

/-- What `tokenId` selects in a `where`. -/
def tokenIdFilter (tokenId : JsonValue) : Except Failure (String → Bool) :=
  match tokenId.text? with
  | some s => (ensure (storable s) invalidByteSequence).map fun _ t => t = s
  | none => require (rt.stringFilter tokenId) invalidArgument

def deleteNfts (portfolioId : ℕ) (leg : NftLeg) (nfts : NftTable) : Except Failure NftTable := do
  ensure (storable leg.tokenAddress) invalidByteSequence
  let selects ← tokenIdFilter rt leg.tokenId
  return nfts.filter fun nft =>
    ¬ (nft.portfolioId = portfolioId ∧ nft.contractAddress = leg.tokenAddress ∧
      selects nft.tokenId)

/-- A received item is upserted, a sent one deleted. -/
def moveNft (chain : Chain) (leg : NftLeg) (direction : Direction) (portfolioId : ℕ)
    (nfts : NftTable) : Except Failure NftTable :=
  if direction = .buy then upsertNft rt portfolioId chain.slug leg nfts
  else deleteNfts rt portfolioId leg nfts

def moveCandidates (chain : Chain) (leg : NftLeg) (db : Db) :
    List (String × Direction) → NftTable → Except Failure ℕ × NftTable
  | [], nfts => (.ok 0, nfts)
  | (addr, direction) :: rest, nfts =>
      match findConnectedPortfolio rt addr chain.id db with
      | .error e => (.error e, nfts)
      | .ok none => moveCandidates chain leg db rest nfts
      | .ok (some portfolio) =>
          match moveNft rt chain leg direction portfolio.id nfts with
          | .error e => (.error e, nfts)
          | .ok nfts =>
              let (count, nfts) := moveCandidates chain leg db rest nfts
              (count.map (· + 1), nfts)

def processNftTransfer (chain : Chain) (db : Db) (transfer : JsonValue) (nfts : NftTable) :
    Except Failure ℕ × NftTable :=
  match readNftTransfer rt transfer with
  | .error e => (.error e, nfts)
  | .ok none => (.ok 0, nfts)
  | .ok (some leg) => moveCandidates rt chain leg db (candidates leg.fromAddr leg.toAddr) nfts

def processNftTransfers (chain : Chain) (db : Db) :
    List JsonValue → NftTable → Except Failure ℕ × NftTable
  | [], nfts => (.ok 0, nfts)
  | transfer :: transfers, nfts =>
      match processNftTransfer rt chain db transfer nfts with
      | (.error e, nfts) => (.error e, nfts)
      | (.ok count, nfts) =>
          let (rest, nfts) := processNftTransfers chain db transfers nfts
          (rest.map (count + ·), nfts)

/-! ## The delivery -/

def hexDigit? (c : Char) : Option ℕ :=
  if '0' ≤ c ∧ c ≤ '9' then some (c.toNat - '0'.toNat)
  else if 'a' ≤ c ∧ c ≤ 'f' then some (c.toNat - 'a'.toNat + 10)
  else if 'A' ≤ c ∧ c ≤ 'F' then some (c.toNat - 'A'.toNat + 10)
  else none

/-- `Buffer.from(s, 'hex')`, which stops at the first pair that is no byte. -/
def hexBytes : List Char → List ℕ
  | high :: low :: rest =>
      match hexDigit? high, hexDigit? low with
      | some high, some low => (16 * high + low) :: hexBytes rest
      | _, _ => []
  | _ => []

def verifyMoralisSignature (rawBody signature : String) : Bool :=
  let expected := rt.keccak256 (rawBody ++ rt.webhookSecret)
  let cleanSig :=
    if "0x".toList <+: signature.toList then String.ofList (signature.toList.drop 2)
    else signature
  decide (utf16Length expected = utf16Length cleanSig) &&
    decide (hexBytes expected.toList = hexBytes cleanSig.toList)

def eventKey (rawBody : String) : String := s!"moralis_event:kc:{rt.keccak256 rawBody}"

def maxDateMillis : ℚ := 8640000000000000

/-- `new Date(ms).toISOString()`, which throws out of range. -/
def isoMillis (ms : ℚ) : Except Failure Millis :=
  if maxDateMillis < |ms| then .error rangeError
  else .ok (if ms < 0 then ⌈ms⌉ else ⌊ms⌋)

def blockTimestamp (payload : MoralisPayload) : Except Failure Millis :=
  match present (payload.block.bind fun block => block.field "timestamp") with
  | none => .ok moment.env.now
  | some v => do
      match ← v.toNumber rt.toJs rt.stringToNumber with
      | none => return moment.env.now
      | some seconds => isoMillis (seconds * 1000)

inductive Response
  | invalidSignature
  | malformedPayload
  | ignored
  | duplicate
  | received (processed skipped : ℕ)
  | handlerError
  deriving DecidableEq, Repr

def Response.status : Response → ℕ
  | invalidSignature => 401
  | malformedPayload => 400
  | ignored | duplicate | received _ _ => 200
  | handlerError => 500

def findChain (payload : MoralisPayload) (s : State) : Option Chain :=
  (payload.chainId.filter (· ≠ "")).bind s.chains.find?

def refreshAffected (affected : List Portfolio) (db : Db) : Db :=
  affected.foldl
    (fun db portfolio =>
      refreshConnectedBalancesFromProvider rt.toText portfolio (moment.summary portfolio) db)
    db

/-- The transfers of a payload whose chain is known. -/
def processChain (key : String) (payload : MoralisPayload) (chain : Chain) (timestamp : Millis)
    (s : State) : Response × State :=
  match processTransfers rt moment chain timestamp payload.transfers ⟨s.db, []⟩ with
  | (.error _, booked) => (.handlerError, { s with db := booked.db })
  | (.ok counts, booked) =>
      match processNftTransfers rt chain booked.db (payload.nftTransfers.getD []) s.nfts with
      | (.error _, nfts) => (.handlerError, { s with db := booked.db, nfts })
      | (.ok count, nfts) =>
          (.received (counts.processed + count) counts.skipped,
            { s with
              db := refreshAffected rt moment booked.affected booked.db
              nfts
              events := key :: s.events })

/-- An error is an exception that no handler of this function catches. -/
def processPayload (key : String) (payload : MoralisPayload) (s : State) :
    Except Failure Response × State :=
  if payload.confirmed ≠ some true then (.ok .ignored, s)
  else if key ∈ s.events then (.ok .duplicate, s)
  else
    match findChain payload s with
    | none =>
        let skipped := (payload.txs.getD []).length + (payload.erc20Transfers.getD []).length +
          (payload.nftTransfers.getD []).length
        (.ok (.received 0 skipped), { s with events := key :: s.events })
    | some chain =>
        match blockTimestamp rt moment payload with
        | .error e => (.error e, s)
        | .ok timestamp =>
            let (response, s) := processChain rt moment key payload chain timestamp s
            (.ok response, s)

def handleMoralisWebhook (delivery : Delivery) (s : State) : Except Failure Response × State :=
  if ¬ (delivery.signature.filter (· ≠ "")).any (verifyMoralisSignature rt delivery.rawBody) then
    (.ok .invalidSignature, s)
  else
    match (rt.jsonParse delivery.rawBody).bind MoralisPayloadSchema.safeParse with
    | none => (.ok .malformedPayload, s)
    | some payload => processPayload rt moment (eventKey rt delivery.rawBody) payload s

end Processing

end Neonfi.Webhooks

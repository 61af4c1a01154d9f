import Neonfi.Webhooks.Replay

/-!
# Routing to every tracker of a wallet

A transfer should reach every connected portfolio that tracks its sender or its receiver.
The handler looks one portfolio up for each party, by the lower-cased address.
-/

namespace Neonfi.Webhooks

open Lib
open Ledger (Db Portfolio Failure Direction TransactionData Transaction)
open Wallet (claimedKeys rowKey)

/-! ## Stored addresses -/

def isBase58 (c : Char) : Bool :=
  c.isAlphanum && c ≠ '0' && c ≠ 'O' && c ≠ 'I' && c ≠ 'l'

def matchesEvm (address : String) : Bool :=
  match address.toList with
  | '0' :: 'x' :: digits => digits.length = 40 && digits.all fun c => (hexDigit? c).isSome
  | _ => false

def matchesSolana (address : String) : Bool :=
  32 ≤ address.length && address.length ≤ 44 && address.toList.all isBase58

section Routing

variable (rt : Runtime)

/-- The normalized form of a valid address, as a connected portfolio stores it. -/
def validateWalletAddress (address : String) (slug : String) : Option String :=
  if slug = "solana" then if matchesSolana address then some address else none
  else if matchesEvm address then some (rt.toLowerCase address) else none

/-! ## Who is to be reached -/

namespace Transfer

def sender : Transfer → Option JsonValue
  | native tx => senderOfNative tx
  | erc20 transfer => transfer.field "from"

def receiver : Transfer → Option JsonValue
  | native tx => receiverOfNative tx
  | erc20 transfer => transfer.field "to"

def hash : Transfer → Option JsonValue
  | native tx => tx.field "hash"
  | erc20 transfer => transfer.field "transactionHash"

/-- The party of a transfer that is booked in a direction. -/
def party (transfer : Transfer) : Direction → Option JsonValue
  | .buy => transfer.receiver
  | .sell => transfer.sender
  | .transfer => none

/-- The transfer is one of a token of the catalog. -/
def ofCatalog (chain : Chain) (db : Db) : Transfer → Bool
  | native _ =>
      ((nativeSymbol chain.moralisId).bind db.findTokenBySymbol).isSome
  | erc20 transfer =>
      (((transfer.field "tokenSymbol").bind JsonValue.text?).filter (· ≠ "")).any fun symbol =>
        (Wallet.findTokenBySymbol rt.toText symbol db).isSome

end Transfer

/-- The portfolio tracks a party of the transfer. -/
def tracks (chain : Chain) (p : Portfolio) (party : Option JsonValue) : Prop :=
  p.type = .connected ∧ p.chainId = some chain.id ∧
    ∃ address normalized, party = some (.string address) ∧
      validateWalletAddress rt address chain.slug = some normalized ∧
      p.walletAddress = some normalized

/-- What each hashed transfer of a catalog token asks of each portfolio that tracks a party:
to hold its hash in the direction of that party. -/
def AllReached (payload : MoralisPayload) (s : State)
    (holds : ℕ × String → Direction → Prop) : Prop :=
  ∀ chain, findChain payload s = some chain → ∀ transfer ∈ payload.transfers,
    transfer.ofCatalog rt chain s.db → ∀ hash, transfer.hash = some (.string hash) → hash ≠ "" →
    ∀ p ∈ s.db.portfolios.rows, ∀ direction, tracks rt chain p (transfer.party direction) →
      holds (p.id, hash) direction

/-- Every tracker has a row of the hash in its direction. -/
def FanOut (payload : MoralisPayload) (s s' : State) : Prop :=
  AllReached rt payload s fun k direction =>
    ∃ t ∈ s'.db.transactions.rows, t.hashKey = some k ∧ t.direction = direction

/-- The direction in which a hash is first claimed in a portfolio: by a stored row, else by the
first booking. -/
def firstHolder (rows : List Transaction) (bs : List Booking) (k : ℕ × String) :
    Option Direction :=
  ((rows.find? fun t => t.hashKey = some k).map fun t => t.direction).or
    ((bs.find? fun b => b.hashKey = some k).map Booking.direction)

/-- The bookings of a delivery; one that is known has none. -/
def deliveryBookings (delivery : Delivery) (payload : MoralisPayload) (s : State) :
    List Booking :=
  if eventKey rt delivery.rawBody ∈ s.events then [] else payload.bookings rt s

end Routing

/-! ## Who is reached -/

section Answered

variable {rt : Runtime} {moment : Moment} {delivery : Delivery} {payload : MoralisPayload}
  {s s' : State} {response : Response}

theorem find?_toData (rows : List Transaction) (k : ℕ × String) :
    ((rows.map Transaction.toTransactionData).find? fun t => rowKey t = some k).map
        TransactionData.direction =
      (rows.find? fun t => t.hashKey = some k).map fun t => t.direction := by
  rw [List.find?_map, Option.map_map]
  rfl

/-- A row is the holder of its hash. -/
theorem exists_row_iff (db : Db) (k : ℕ × String) (direction : Direction) :
    (∃ t ∈ db.transactions.rows, t.hashKey = some k ∧ t.direction = direction) ↔
      (db.transactions.rows.find? fun t => t.hashKey = some k).map (fun t => t.direction) =
        some direction := by
  constructor
  · rintro ⟨t, ht, hkey, rfl⟩
    have hfound : db.transactions.findUniq? k = some t :=
      SerialTable.findUniq?_eq_some_iff.mpr ⟨ht, hkey⟩
    exact congrArg (Option.map fun t : Transaction => t.direction) hfound
  · intro h
    obtain ⟨t, hfound, hdirection⟩ := Option.map_eq_some_iff.mp h
    have hmem := List.mem_of_find?_eq_some hfound
    exact ⟨t, hmem, by simpa using List.find?_some hfound, hdirection⟩

/-- After an answered delivery a hash is held in the direction of its first holder. -/
theorem holder_of_answered (hpayload : delivery.payload rt = some payload)
    (hconfirmed : payload.confirmed = some true)
    (h : handleMoralisWebhook rt moment delivery s = (.ok response, s'))
    (hok : response.status = 200) (k : ℕ × String) :
    (s'.db.transactions.rows.find? fun t => t.hashKey = some k).map (fun t => t.direction) =
      firstHolder s.db.transactions.rows (deliveryBookings rt delivery payload s) k := by
  unfold firstHolder deliveryBookings
  by_cases hseen : eventKey rt delivery.rawBody ∈ s.events
  · rcases answered_cases hpayload hconfirmed h hok with ⟨-, rfl⟩ | ⟨hnew, -⟩
    · simp [hseen]
    · exact absurd hseen hnew
  · obtain ⟨timestamp, hrows⟩ := rows_of_answered hpayload hconfirmed hseen h hok
    have hclaims := @find?_firstClaims _ _ _ Booking.hashKey (payload.bookings rt s)
      (claimedKeys s.db) k
    have hnew : ∀ bs : List Booking,
        ((bs.map fun b => b.data rt moment timestamp s.db).find? fun t => rowKey t = some k).map
            TransactionData.direction =
          (bs.find? fun b => b.hashKey = some k).map Booking.direction := by
      intro bs
      rw [List.find?_map, Option.map_map]
      rfl
    rw [if_neg hseen, ← find?_toData, hrows, List.find?_append, Option.map_or, hnew, hclaims,
      find?_toData]
    by_cases hclaimed : k ∈ claimedKeys s.db
    · obtain ⟨t, ht, hkey⟩ := List.mem_filterMap.mp hclaimed
      have hfound : s.db.transactions.rows.find? (fun t => t.hashKey = some k) = some t :=
        SerialTable.findUniq?_eq_some_iff.mpr ⟨ht, hkey⟩
      rw [hfound]
      rfl
    · rw [if_neg hclaimed]

/-- A delivery reaches every tracker exactly when each of them is the first holder. -/
theorem fanOut_iff (hpayload : delivery.payload rt = some payload)
    (hconfirmed : payload.confirmed = some true)
    (h : handleMoralisWebhook rt moment delivery s = (.ok response, s'))
    (hok : response.status = 200) :
    FanOut rt payload s s' ↔
      AllReached rt payload s fun k direction =>
        firstHolder s.db.transactions.rows (deliveryBookings rt delivery payload s) k =
          some direction := by
  unfold FanOut
  simp only [exists_row_iff, holder_of_answered hpayload hconfirmed h hok]

/-- A tracker without any row is not reached. -/
theorem not_fanOut {chain : Chain} {transfer : Transfer} {hash : String} {p : Portfolio}
    {direction : Direction} (hchain : findChain payload s = some chain)
    (htransfer : transfer ∈ payload.transfers) (hcatalog : transfer.ofCatalog rt chain s.db)
    (hhash : transfer.hash = some (.string hash)) (hne : hash ≠ "")
    (hp : p ∈ s.db.portfolios.rows) (htracks : tracks rt chain p (transfer.party direction))
    (hmissing : s'.db.transactions.rows.all fun t => t.portfolioId ≠ p.id) :
    ¬ FanOut rt payload s s' := by
  intro hall
  obtain ⟨t, ht, hkey, -⟩ :=
    hall chain hchain transfer htransfer hcatalog hash hhash hne p hp direction htracks
  have hother := List.all_eq_true.mp hmissing t ht
  rw [(hashKey_eq_some_iff.mp hkey).1] at hother
  simp at hother

end Answered

/-! ## Two users of one wallet, and a wallet on Solana -/

def giftTx : JsonValue :=
  .object [("hash", .string "0x61f7"), ("from", .string bobWallet), ("to", .string aliceWallet),
    ("value", .string "1000000000000000000")]

def nativePayload (chainId : String) (tx : JsonValue) : MoralisPayload where
  txs := some [tx]
  erc20Transfers := none
  nftTransfers := none
  chainId := some chainId
  confirmed := some true
  block := none

def nativeJson (chainId : String) (tx : JsonValue) : JsonValue :=
  .object [("confirmed", .bool true), ("chainId", .string chainId), ("txs", .array [tx])]

def giftBody : String :=
  "\x7b\"confirmed\":true,\"chainId\":\"0x1\",\"txs\":[\x7b\"hash\":\"0x61f7\",\"from\"" ++
    ":\"0xbbbbbbbbbbbbbbbbbbbbbbbbbbbbbbbbbbbbbbbb\",\"to\":\"0xaaaaaaaaaaaaaaaaaaaaaaaaa" ++
    "aaaaaaaaaaaaaaa\",\"value\":\"1000000000000000000\"\x7d]\x7d"

def giftSignature : String := "d6ebca9ad80d83819bb26fb20962007dce809fd9eb884ccfb16623d92312e291"

def giftRuntime : Runtime :=
  sampleRuntime (nativeJson "0x1" giftTx) giftBody
    "8aa6cfaadcf718c7255afac2c65eccd03a9716f9f154cffdbd579182da3a6295" giftSignature

/-- Two users connected the same wallet. -/
def sharedState : State :=
  { hookState with
    db :=
      { hookDb with
        portfolios := ⟨[trackedPortfolio 1 1 aliceWallet, trackedPortfolio 2 2 aliceWallet], 3,
          by decide, by decide, by decide⟩ } }

def afterGift : Except Failure Response × State :=
  processPayload giftRuntime sampleMoment (eventKey giftRuntime giftBody)
    (nativePayload "0x1" giftTx) sharedState

theorem handle_gift :
    handleMoralisWebhook giftRuntime sampleMoment ⟨giftBody, some giftSignature⟩ sharedState =
      afterGift :=
  handle_sample (by decide) (by simp [giftSignature]) rfl _ _

theorem afterGift_rows :
    afterGift.1 = .ok (.received 1 0) ∧
      afterGift.2.db.transactions.rows.all fun t => t.portfolioId ≠ 2 := by
  have hgift : afterGift =
      processPayload (giftRuntime.knowing [aliceWallet, bobWallet]) sampleMoment
        (eventKey giftRuntime giftBody) (nativePayload "0x1" giftTx) sharedState := by
    unfold afterGift giftRuntime
    rw [knowing_sample toLower_wallets]
  rw [hgift]
  decide +kernel

def solanaWallet : String := "4Nd1mBQtrMJVYVfKf2PJy9NZUZdTAsp7D4xWLs4gDB4T"

def solTx : JsonValue :=
  .object [("hash", .string "5Vw1"), ("from", .string "7UX2i7SucgLMQcfZ75s3VXmZZY4YRUyJN9X1RgfMoDUi"),
    ("to", .string solanaWallet), ("value", .string "1000000000")]

def solBody : String :=
  "\x7b\"confirmed\":true,\"chainId\":\"solana\",\"txs\":[\x7b\"hash\":\"5Vw1\",\"from" ++
    "\":\"7UX2i7SucgLMQcfZ75s3VXmZZY4YRUyJN9X1RgfMoDUi\",\"to\":\"4Nd1mBQtrMJVYVfKf2PJy9N" ++
    "ZUZdTAsp7D4xWLs4gDB4T\",\"value\":\"1000000000\"\x7d]\x7d"

def solSignature : String := "f1895d525029ed159d452bd2e505806b3f2f3c43588470c35c9c10f224e2e6b0"

def solRuntime : Runtime :=
  sampleRuntime (nativeJson "solana" solTx) solBody
    "5612e204d4b83f5968fe86b4342ae2fd913195f679d8124b523d14631c7d3ec4" solSignature

def solState : State where
  db :=
    { hookDb with
      tokens := ⟨[{ id := 1, symbol := "SOL", currentPrice := 100 }], 2, by decide, by decide,
        by decide⟩
      portfolios := ⟨[trackedPortfolio 1 1 solanaWallet], 2, by decide, by decide, by decide⟩ }
  nfts := Table.empty
  chains := ⟨[⟨1, "solana", "solana"⟩], by decide⟩
  events := []

def afterSol : Except Failure Response × State :=
  processPayload solRuntime sampleMoment (eventKey solRuntime solBody)
    (nativePayload "solana" solTx) solState

theorem handle_sol :
    handleMoralisWebhook solRuntime sampleMoment ⟨solBody, some solSignature⟩ solState =
      afterSol :=
  handle_sample (by decide) (by simp [solSignature]) rfl _ _

theorem afterSol_rows :
    afterSol.1 = .ok (.received 0 0) ∧
      afterSol.2.db.transactions.rows.all fun t => t.portfolioId ≠ 1 := by
  decide +kernel

theorem fanOut_gift :
    FanOut giftRuntime (nativePayload "0x1" giftTx) sharedState afterGift.2 ↔
      AllReached giftRuntime (nativePayload "0x1" giftTx) sharedState fun k direction =>
        firstHolder sharedState.db.transactions.rows
          (deliveryBookings giftRuntime ⟨giftBody, some giftSignature⟩
            (nativePayload "0x1" giftTx) sharedState) k = some direction := by
  have hafter : afterGift = (.ok (.received 1 0), afterGift.2) := Prod.fst_eq_iff.mp afterGift_rows.1
  exact @fanOut_iff giftRuntime sampleMoment ⟨giftBody, some giftSignature⟩
    (nativePayload "0x1" giftTx) sharedState afterGift.2 (.received 1 0) (payload_sample rfl) rfl
    (handle_gift.trans hafter) rfl

/-- Neither the second tracker of a wallet nor a wallet with capital letters is reached. -/
theorem trackers_missed :
    ((handleMoralisWebhook giftRuntime sampleMoment ⟨giftBody, some giftSignature⟩
        sharedState).1 = .ok (.received 1 0) ∧
      ¬ FanOut giftRuntime (nativePayload "0x1" giftTx) sharedState
        (handleMoralisWebhook giftRuntime sampleMoment ⟨giftBody, some giftSignature⟩
          sharedState).2) ∧
    (handleMoralisWebhook solRuntime sampleMoment ⟨solBody, some solSignature⟩ solState).1 =
        .ok (.received 0 0) ∧
      ¬ FanOut solRuntime (nativePayload "solana" solTx) solState
        (handleMoralisWebhook solRuntime sampleMoment ⟨solBody, some solSignature⟩
          solState).2 := by
  rw [handle_gift, handle_sol]
  refine ⟨⟨afterGift_rows.1, ?_⟩, afterSol_rows.1, ?_⟩
  · have htracks : tracks giftRuntime ⟨1, "ethereum", "0x1"⟩ (trackedPortfolio 2 2 aliceWallet)
        ((Transfer.native giftTx).party .buy) :=
      ⟨rfl, rfl, aliceWallet, aliceWallet, rfl, by decide +kernel, rfl⟩
    exact not_fanOut (by decide +kernel) (List.mem_cons_self) (by decide +kernel)
      (show (Transfer.native giftTx).hash = some (.string "0x61f7") from rfl) (by decide)
      (List.mem_cons_of_mem _ List.mem_cons_self) htracks afterGift_rows.2
  · have htracks : tracks solRuntime ⟨1, "solana", "solana"⟩ (trackedPortfolio 1 1 solanaWallet)
        ((Transfer.native solTx).party .buy) :=
      ⟨rfl, rfl, solanaWallet, solanaWallet, rfl, by decide +kernel, rfl⟩
    exact not_fanOut (by decide +kernel) (List.mem_cons_self) (by decide +kernel)
      (show (Transfer.native solTx).hash = some (.string "5Vw1") from rfl) (by decide)
      List.mem_cons_self htracks afterSol_rows.2

end Neonfi.Webhooks

import Neonfi.Webhooks.Recorded
import Neonfi.Wallet.Holdings

/-!
# Every leg once

The hash of a leg is claimed once in a portfolio, by the first leg that brings it there, and
a leg without a hash gets a row of its own.  A delivery that was answered is known, and
delivering it again changes nothing.
-/

namespace Neonfi.Webhooks

open Lib
open Ledger (Db Portfolio Failure Transaction)
open Wallet (claimedKeys rowKey)

section Answered

variable {rt : Runtime} {moment : Moment} {delivery : Delivery} {payload : MoralisPayload}
  {s s' : State} {response : Response}

theorem claimedKeys_eq (db : Db) :
    claimedKeys db =
      (db.transactions.rows.map Transaction.toTransactionData).filterMap rowKey := by
  rw [List.filterMap_map]
  rfl

theorem mem_bookings {chain : Chain} {transfer : Transfer} {leg : Leg}
    {candidate : String × Ledger.Direction} {portfolio : Portfolio}
    (hchain : findChain payload s = some chain) (htransfer : transfer ∈ payload.transfers)
    (hread : readTransfer rt chain s.db transfer = .ok (some leg))
    (hcandidate : candidate ∈ leg.candidates)
    (hfound : findConnectedPortfolio rt candidate.1 chain.id s.db = .ok (some portfolio)) :
    ⟨portfolio, leg, candidate.2⟩ ∈ payload.bookings rt s := by
  unfold MoralisPayload.bookings
  rw [hchain]
  refine List.mem_flatMap.mpr ⟨transfer, htransfer, ?_⟩
  unfold transferBookings
  rw [hread]
  refine List.mem_filterMap.mpr ⟨candidate, hcandidate, ?_⟩
  unfold bookingOf
  rw [hfound]

/-- After an answered delivery the hash of each of its bookings is claimed. -/
theorem claimed_of_answered {b : Booking} {k : ℕ × String}
    (hpayload : delivery.payload rt = some payload) (hconfirmed : payload.confirmed = some true)
    (hnew : eventKey rt delivery.rawBody ∉ s.events)
    (h : handleMoralisWebhook rt moment delivery s = (.ok response, s'))
    (hok : response.status = 200) (hb : b ∈ payload.bookings rt s) (hkey : b.hashKey = some k) :
    k ∈ claimedKeys s'.db := by
  obtain ⟨timestamp, hrows⟩ := rows_of_answered hpayload hconfirmed hnew h hok
  rw [claimedKeys_eq, hrows, List.filterMap_append, List.mem_append, ← claimedKeys_eq]
  rcases @claimed_or_exists_firstClaims _ _ _ Booking.hashKey (claimedKeys s.db) b _ k hb hkey with
    hclaimed | ⟨y, hy, hykey⟩
  · exact .inl hclaimed
  · right
    refine List.mem_filterMap.mpr ⟨y.data rt moment timestamp s.db, ?_, hykey⟩
    exact List.mem_map.mpr ⟨y, hy, rfl⟩

/-- Rows without a hash are added for all bookings without one. -/
theorem hashless_of_answered (hpayload : delivery.payload rt = some payload)
    (hconfirmed : payload.confirmed = some true)
    (hnew : eventKey rt delivery.rawBody ∉ s.events)
    (h : handleMoralisWebhook rt moment delivery s = (.ok response, s'))
    (hok : response.status = 200) :
    ∃ timestamp,
      (s'.db.transactions.rows.map Transaction.toTransactionData).filter
          (fun t => t.transactionHash.isNone) =
        (s.db.transactions.rows.map Transaction.toTransactionData).filter
            (fun t => t.transactionHash.isNone) ++
          ((payload.bookings rt s).filter fun b => b.hashKey.isNone).map
            fun b => b.data rt moment timestamp s.db := by
  obtain ⟨timestamp, hrows⟩ := rows_of_answered hpayload hconfirmed hnew h hok
  refine ⟨timestamp, ?_⟩
  have hhash : ∀ b : Booking, (b.data rt moment timestamp s.db).transactionHash.isNone =
      b.hashKey.isNone := fun b => Option.isNone_map.symm
  rw [hrows, List.filter_append, ← filter_firstClaims _ (claimedKeys s.db)]
  congr 1
  rw [List.filter_map]
  congr 1
  exact List.filter_congr fun b _ => hhash b

theorem hashKey_eq_some_iff {t : Transaction} {p : ℕ} {hash : String} :
    t.hashKey = some (p, hash) ↔ t.portfolioId = p ∧ t.transactionHash = some hash := by
  unfold Transaction.hashKey
  cases t.transactionHash <;> simp [and_comm]

/-- A delivery that is known is answered as a duplicate. -/
theorem redelivered (hpayload : delivery.payload rt = some payload)
    (hconfirmed : payload.confirmed = some true)
    (h : handleMoralisWebhook rt moment delivery s = (.ok response, s'))
    (hok : response.status = 200) {moment' : Moment} {t : State}
    (hseen : eventKey rt delivery.rawBody ∈ t.events) :
    handleMoralisWebhook rt moment' delivery t = (.ok .duplicate, t) := by
  unfold handleMoralisWebhook at h ⊢
  have hparsed : (rt.jsonParse delivery.rawBody).bind MoralisPayloadSchema.safeParse =
      some payload := hpayload
  split at h
  · cases h
    cases hok
  · next hsigned =>
      rw [if_neg hsigned, hparsed]
      show processPayload rt moment' (eventKey rt delivery.rawBody) payload t = _
      unfold processPayload
      rw [if_neg (by simp [hconfirmed]), if_pos hseen]

/-- What an answered delivery did for the legs it carries: the first to claim a hash in a
portfolio gets its row, the later ones share it, and those without a hash get one each. -/
theorem legs_recorded (hpayload : delivery.payload rt = some payload)
    (hconfirmed : payload.confirmed = some true)
    (hnew : eventKey rt delivery.rawBody ∉ s.events)
    (h : handleMoralisWebhook rt moment delivery s = (.ok response, s'))
    (hok : response.status = 200) :
    (∃ timestamp, s'.db.transactions.rows.map Transaction.toTransactionData =
      s.db.transactions.rows.map Transaction.toTransactionData ++
        (firstClaims Booking.hashKey (claimedKeys s.db) (payload.bookings rt s)).map
          fun b => b.data rt moment timestamp s.db) ∧
    (∃ timestamp,
      (s'.db.transactions.rows.map Transaction.toTransactionData).filter
          (fun t => t.transactionHash.isNone) =
        (s.db.transactions.rows.map Transaction.toTransactionData).filter
            (fun t => t.transactionHash.isNone) ++
          ((payload.bookings rt s).filter fun b => b.hashKey.isNone).map
            fun b => b.data rt moment timestamp s.db) ∧
    (∀ chain, findChain payload s = some chain → ∀ transfer ∈ payload.transfers, ∀ leg,
      readTransfer rt chain s.db transfer = .ok (some leg) → ∀ candidate ∈ leg.candidates,
      ∀ portfolio, findConnectedPortfolio rt candidate.1 chain.id s.db = .ok (some portfolio) →
      ∀ hash, leg.transactionHash = .ok (some hash) →
        ∃! t, t ∈ s'.db.transactions.rows ∧ t.portfolioId = portfolio.id ∧
          t.transactionHash = some hash) ∧
    eventKey rt delivery.rawBody ∈ s'.events ∧
    ∀ moment' t, eventKey rt delivery.rawBody ∈ t.events →
      handleMoralisWebhook rt moment' delivery t = (.ok .duplicate, t) := by
  refine ⟨rows_of_answered hpayload hconfirmed hnew h hok,
    hashless_of_answered hpayload hconfirmed hnew h hok, ?_, ?_,
    fun moment' t hseen => redelivered hpayload hconfirmed h hok hseen⟩
  · intro chain hchain transfer htransfer leg hread candidate hcandidate portfolio hfound hash hhash
    have hb := mem_bookings hchain htransfer hread hcandidate hfound
    have hkey : (⟨portfolio, leg, candidate.2⟩ : Booking).hashKey = some (portfolio.id, hash) := by
      unfold Booking.hashKey Booking.hash
      rw [hhash]
      rfl
    have hclaimed := claimed_of_answered hpayload hconfirmed hnew h hok hb hkey
    obtain ⟨t, ht, htkey⟩ := List.mem_filterMap.mp hclaimed
    refine ⟨t, ⟨ht, hashKey_eq_some_iff.mp htkey⟩, ?_⟩
    rintro u ⟨hu, hukey⟩
    exact SerialTable.eq_of_uniq_eq hu ht (hashKey_eq_some_iff.mpr hukey) htkey
  · rcases answered_cases hpayload hconfirmed h hok with ⟨hseen, -⟩ | ⟨-, hevents, -⟩
    · exact absurd hseen hnew
    · rw [hevents]
      exact List.mem_cons_self

end Answered

/-! ## Both sides of a swap -/

def sampleRuntime (payload : JsonValue) (rawBody key signed : String) : Runtime where
  toText := Wallet.sampleText
  stringToNumber := Ledger.decimal?
  jsonParse input := if input = rawBody then some payload else none
  keccak256 input := if input = rawBody then key else signed
  webhookSecret := "secret"
  searchable symbol _ := Wallet.storable symbol
  acceptsDate _ := true
  acceptsJson v := v.truthy
  stringFilter _ := none
  insertsFirst := true

/-- Lower-casing, where some texts are known to be in lower case. -/
def lowerCased (known : List String) (s : String) : String :=
  if s ∈ known then s else s.toLower

def Runtime.knowing (known : List String) (rt : Runtime) : Runtime :=
  { rt with toLowerCase := lowerCased known }

theorem knowing_sample {known : List String} (hknown : ∀ s ∈ known, s.toLower = s)
    (v : JsonValue) (rawBody key signed : String) :
    (sampleRuntime v rawBody key signed).knowing known = sampleRuntime v rawBody key signed := by
  have hlower : lowerCased known = String.toLower := by
    funext s
    unfold lowerCased
    split
    · next hs => exact (hknown s hs).symm
    · rfl
  unfold Runtime.knowing
  rw [hlower]
  rfl

/-- A sample delivery carries its own signature. -/
theorem verify_sample {v : JsonValue} {rawBody key signed : String}
    (hplain : ¬ "0x".toList <+: signed.toList) :
    verifyMoralisSignature (sampleRuntime v rawBody key signed) rawBody signed = true := by
  have hsigned : (sampleRuntime v rawBody key signed).keccak256 (rawBody ++ "secret") = signed := by
    refine if_neg fun heq => ?_
    have hlength := congrArg String.length heq
    rw [String.length_append] at hlength
    have hsecret : "secret".length = 6 := rfl
    omega
  unfold verifyMoralisSignature
  dsimp only
  rw [show (sampleRuntime v rawBody key signed).webhookSecret = "secret" from rfl, hsigned,
    if_neg hplain]
  simp

theorem payload_sample {v : JsonValue} {rawBody key signed : String} {payload : MoralisPayload}
    (hparse : MoralisPayloadSchema.safeParse v = some payload) :
    Delivery.payload (sampleRuntime v rawBody key signed) ⟨rawBody, some signed⟩ =
      some payload := by
  have hread : (sampleRuntime v rawBody key signed).jsonParse rawBody = some v := if_pos rfl
  unfold Delivery.payload
  rw [hread]
  exact hparse

theorem handle_sample {v : JsonValue} {rawBody key signed : String} {payload : MoralisPayload}
    (hplain : ¬ "0x".toList <+: signed.toList) (hsigned : signed ≠ "")
    (hparse : MoralisPayloadSchema.safeParse v = some payload) (moment : Moment) (s : State) :
    handleMoralisWebhook (sampleRuntime v rawBody key signed) moment ⟨rawBody, some signed⟩ s =
      processPayload (sampleRuntime v rawBody key signed) moment
        (eventKey (sampleRuntime v rawBody key signed) rawBody) payload s := by
  have hread : ((sampleRuntime v rawBody key signed).jsonParse rawBody).bind
      MoralisPayloadSchema.safeParse = some payload := payload_sample hparse
  unfold handleMoralisWebhook
  rw [if_neg (by simp [hsigned, verify_sample hplain]), hread]

def sampleMoment : Moment where
  env := Ledger.sampleEnv
  summary _ := .error

def aliceWallet : String := "0xaaaaaaaaaaaaaaaaaaaaaaaaaaaaaaaaaaaaaaaa"

def bobWallet : String := "0xbbbbbbbbbbbbbbbbbbbbbbbbbbbbbbbbbbbbbbbb"

theorem toLower_wallets : ∀ s ∈ [aliceWallet, bobWallet], s.toLower = s := by decide +kernel

def trackedPortfolio (id userId : ℕ) (walletAddress : String) : Portfolio where
  id := id
  userId := userId
  type := .connected
  walletAddress := some walletAddress
  chainId := some 1

/-- Two users track the wallets of a transfer. -/
def hookDb : Db where
  tokens := ⟨[{ id := 1, symbol := "ETH", currentPrice := 2000 },
    { id := 2, symbol := "USDC", currentPrice := 1 }], 3, by decide, by decide, by decide⟩
  portfolios := ⟨[trackedPortfolio 1 1 aliceWallet, trackedPortfolio 2 2 bobWallet], 3, by decide,
    by decide, by decide⟩
  assets := Table.empty
  transactions := SerialTable.empty

def hookState : State where
  db := hookDb
  nfts := Table.empty
  chains := ⟨[⟨1, "ethereum", "0x1"⟩], by decide⟩
  events := []

/-- One transaction swaps 1 ETH of a wallet for 2000 USDC. -/
def swapJson : JsonValue :=
  .object
    [("confirmed", .bool true), ("chainId", .string "0x1"),
      ("txs", .array [.object
        [("hash", .string "0x5a1e"), ("from", .string aliceWallet), ("to", .string bobWallet),
          ("value", .string "1000000000000000000")]]),
      ("erc20Transfers", .array [.object
        [("transactionHash", .string "0x5a1e"), ("contract", .string "0xc0de"),
          ("from", .string bobWallet), ("to", .string aliceWallet), ("value", .string "2000000000"),
          ("tokenSymbol", .string "USDC"), ("tokenDecimals", .string "6")]])]

def swapBody : String :=
  "\x7b\"confirmed\":true,\"chainId\":\"0x1\",\"txs\":[\x7b\"hash\":\"0x5a1e\",\"from\"" ++
    ":\"0xaaaaaaaaaaaaaaaaaaaaaaaaaaaaaaaaaaaaaaaa\",\"to\":\"0xbbbbbbbbbbbbbbbbbbbbbbbbb" ++
    "bbbbbbbbbbbbbbb\",\"value\":\"1000000000000000000\"\x7d],\"erc20Transfers\":[\x7b\"t" ++
    "ransactionHash\":\"0x5a1e\",\"contract\":\"0xc0de\",\"from\":\"0xbbbbbbbbbbbbbbbbbbb" ++
    "bbbbbbbbbbbbbbbbbbbbb\",\"to\":\"0xaaaaaaaaaaaaaaaaaaaaaaaaaaaaaaaaaaaaaaaa\",\"valu" ++
    "e\":\"2000000000\",\"tokenSymbol\":\"USDC\",\"tokenDecimals\":\"6\"\x7d]\x7d"

def swapSignature : String := "4db30b6053aca7b89f44e83aa32c804fd2992e4d2f571e02c484ad4543093c4e"

def swapRuntime : Runtime :=
  sampleRuntime swapJson swapBody
    "e6cb92a44a76743e02c92cd94ad8875f437209449c5989159662af2650945ed1" swapSignature

def swapDelivery : Delivery := ⟨swapBody, some swapSignature⟩

def swapPayload : MoralisPayload :=
  (MoralisPayloadSchema.safeParse swapJson).get (by decide +kernel)

def afterSwap : Except Failure Response × State :=
  processPayload swapRuntime sampleMoment (eventKey swapRuntime swapBody) swapPayload hookState

theorem afterSwap_rows :
    afterSwap.1 = .ok (.received 3 0) ∧
      afterSwap.2.db.transactions.rows.map (fun t => (t.portfolioId, t.symbol?)) =
        [(2, some "ETH"), (1, some "ETH")] := by
  have hswap : afterSwap =
      processPayload (swapRuntime.knowing [aliceWallet, bobWallet]) sampleMoment
        (eventKey swapRuntime swapBody) swapPayload hookState := by
    unfold afterSwap swapRuntime
    rw [knowing_sample toLower_wallets]
  rw [hswap]
  decide +kernel

theorem handle_swap (s : State) :
    handleMoralisWebhook swapRuntime sampleMoment swapDelivery s =
      processPayload swapRuntime sampleMoment (eventKey swapRuntime swapBody) swapPayload s :=
  handle_sample (by decide) (by simp [swapSignature]) (Option.some_get _).symm _ s

theorem swap_redelivered :
    handleMoralisWebhook swapRuntime sampleMoment swapDelivery afterSwap.2 =
      (.ok .duplicate, afterSwap.2) := by
  have hconfirmed : swapPayload.confirmed = some true := by decide +kernel
  have hafter : afterSwap = (.ok (.received 3 0), afterSwap.2) := Prod.fst_eq_iff.mp afterSwap_rows.1
  have hrecorded := @legs_recorded swapRuntime sampleMoment swapDelivery swapPayload hookState
    afterSwap.2 (.received 3 0) (payload_sample (Option.some_get _).symm) hconfirmed
    List.not_mem_nil ((handle_swap hookState).trans hafter) rfl
  exact hrecorded.2.2.2.2 sampleMoment afterSwap.2 hrecorded.2.2.2.1

/-- In each portfolio the ether leg took the hash, and the other side has no row. -/
theorem swap_oneRowEach :
    (handleMoralisWebhook swapRuntime sampleMoment swapDelivery hookState).1 =
        .ok (.received 3 0) ∧
      (handleMoralisWebhook swapRuntime sampleMoment swapDelivery
        hookState).2.db.transactions.rows.map (fun t => (t.portfolioId, t.symbol?)) =
        [(2, some "ETH"), (1, some "ETH")] := by
  rw [handle_swap]
  exact afterSwap_rows

end Neonfi.Webhooks

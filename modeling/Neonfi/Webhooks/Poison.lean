import Neonfi.Webhooks.NftMoves
import Neonfi.Webhooks.Replay

/-!
# Payloads that are never acknowledged

A confirmed payload is answered with 200 exactly when its timestamp is a date, its fields
convert, and every booking and every move it asks for is accepted by the tables.
-/

namespace Neonfi.Webhooks

open Lib
open JsonValue
open Ledger (Db Failure Millis require)
open Wallet (column storable claimedKeys)

section Reads

variable (rt : Runtime)

/-! ## Fields that convert -/

def printable (v : JsonValue) : Bool := (v.toText rt.toJs).isSome

/-- A field that may be missing or null, and else is a text. -/
def textOrNone (v : Option JsonValue) : Bool := (present v).all fun v => v.text?.isSome

def weiReads (wei : JsonValue) : Bool := isZeroText wei || printable rt wei

/-- Decimals out of range are skipped before the value is looked at. -/
def unitsRead (value decimals : JsonValue) : Bool :=
  isZeroText value ||
    match (if decimals.truthy then decimals else .string "18").toText rt.toJs with
    | none => false
    | some text => ((parseInt text).filter inDecimalsRange).isNone || printable rt value

/-- The block's timestamp is no finite number, or a date. -/
def timestampReads (payload : MoralisPayload) : Bool :=
  match present (payload.block.bind fun block => block.field "timestamp") with
  | none => true
  | some v =>
      match v.toNumber rt.toJs rt.stringToNumber with
      | .error _ => false
      | .ok none => true
      | .ok (some seconds) => |seconds * 1000| ≤ maxDateMillis

def nativeReads (moralisChainId : String) (tx : JsonValue) : Bool :=
  textOrNone (senderOfNative tx) && textOrNone (receiverOfNative tx) &&
    ((nativeSymbol moralisChainId).isNone ||
      weiReads rt ((present (tx.field "value")).getD (.string "0")))

def erc20Reads (db : Db) (transfer : JsonValue) : Bool :=
  textOrNone (transfer.field "from") && textOrNone (transfer.field "to") &&
    match (transfer.field "tokenSymbol").filter truthy with
    | none => true
    | some v =>
        match v.text? with
        | none => false
        | some symbol =>
            rt.searchable symbol db.tokens &&
              ((Wallet.findTokenBySymbol rt.toText symbol db).isNone ||
                unitsRead rt ((present (transfer.field "value")).getD (.string "0"))
                  ((present (transfer.field "tokenDecimals")).getD (.string "18")))

def fieldsConvert (chain : Chain) (db : Db) : Transfer → Bool
  | .native tx => nativeReads rt chain.moralisId tx
  | .erc20 transfer => erc20Reads rt db transfer

def nftFieldsConvert (transfer : JsonValue) : Bool :=
  textOrNone (transfer.field "from") && textOrNone (transfer.field "to") &&
    textOrNone (transfer.field "tokenAddress")

/-- The database takes the addresses that are looked up. -/
def addressesStorable (cs : List (String × Ledger.Direction)) : Bool :=
  cs.all fun c => c.1 = "" || storable (rt.toLowerCase c.1)

/-! ## What makes a payload digestible -/

/-- Nothing in the payload fails, in the order in which the handler comes to it. -/
structure Digestible (moment : Moment) (payload : MoralisPayload) (chain : Chain) (s : State) :
    Prop where
  date : timestampReads rt payload
  fields : payload.transfers.all (fieldsConvert rt chain s.db)
  addresses : ∀ transfer ∈ payload.transfers, ∀ leg,
    readTransfer rt chain s.db transfer = .ok (some leg) → addressesStorable rt leg.candidates
  bookings : ∀ timestamp, blockTimestamp rt moment payload = .ok timestamp →
    acceptsAll rt moment timestamp s.db (claimedKeys s.db)
      (bookings rt chain s.db payload.transfers)
  nftFields : (payload.nftTransfers.getD []).all nftFieldsConvert
  nftAddresses : ∀ transfer ∈ payload.nftTransfers.getD [], ∀ leg,
    readNftTransfer rt transfer = .ok (some leg) →
      addressesStorable rt (candidates leg.fromAddr leg.toAddr)
  moves : movesAccepted rt chain (nftKeys s.nfts)
    (nftMoves rt chain s.db (payload.nftTransfers.getD []))

end Reads

/-! ## Reading succeeds exactly when the fields convert -/

section IsOk

variable {rt : Runtime}

theorem isOk_bind {α β : Type} (x : Except Failure α) (f : α → Except Failure β) :
    (x >>= f).isOk = match x with
      | .error _ => false
      | .ok a => (f a).isOk := by
  cases x <;> rfl

theorem isOk_lowered (v : Option JsonValue) : (lowered rt v).isOk = textOrNone v := by
  unfold lowered textOrNone
  cases present v with
  | none => rfl
  | some v => cases v <;> rfl

theorem isOk_safeBigInt (v : JsonValue) : (safeBigInt rt.toJs v).isOk = printable rt v := by
  unfold safeBigInt printable
  cases v.toText rt.toJs <;> rfl

theorem isOk_convertWeiToEther (v : JsonValue) :
    (convertWeiToEther rt.toJs v).isOk = weiReads rt v := by
  unfold convertWeiToEther weiReads
  rw [← isOk_safeBigInt]
  cases isZeroText v with
  | true => rfl
  | false =>
      rw [if_neg Bool.false_ne_true, Bool.false_or]
      cases safeBigInt rt.toJs v <;> rfl

theorem isOk_convertTokenAmount (value decimals : JsonValue) :
    (convertTokenAmount rt.toJs value decimals).isOk = unitsRead rt value decimals := by
  unfold convertTokenAmount unitsRead
  rw [← isOk_safeBigInt]
  cases isZeroText value with
  | true => rfl
  | false =>
      rw [if_neg Bool.false_ne_true, Bool.false_or]
      generalize (if decimals.truthy then decimals else JsonValue.string "18") = v
      cases v.toText rt.toJs with
      | none => rfl
      | some text =>
          rw [isOk_bind]
          dsimp only [require]
          cases (parseInt text).filter inDecimalsRange with
          | none => rfl
          | some n => cases safeBigInt rt.toJs value <;> rfl

theorem isOk_blockTimestamp (moment : Moment) (payload : MoralisPayload) :
    (blockTimestamp rt moment payload).isOk = timestampReads rt payload := by
  unfold blockTimestamp timestampReads
  cases present (payload.block.bind fun block => block.field "timestamp") with
  | none => rfl
  | some v =>
      dsimp only
      cases v.toNumber rt.toJs rt.stringToNumber with
      | error e => rfl
      | ok seconds? =>
          cases seconds? with
          | none => rfl
          | some seconds =>
              show (isoMillis (seconds * 1000)).isOk = _
              unfold isoMillis
              split
              · next hlarge => exact (decide_eq_false (not_le.mpr hlarge)).symm
              · next hsmall => exact (decide_eq_true (not_lt.mp hsmall)).symm

theorem isOk_readNativeTx (moralisChainId : String) (tx : JsonValue) :
    (readNativeTx rt moralisChainId tx).isOk = nativeReads rt moralisChainId tx := by
  unfold readNativeTx nativeReads
  rw [← @isOk_lowered rt, ← @isOk_lowered rt, ← isOk_convertWeiToEther]
  cases lowered rt (senderOfNative tx) with
  | error e => rfl
  | ok fromAddr =>
      cases lowered rt (receiverOfNative tx) with
      | error e => rfl
      | ok toAddr =>
          cases nativeSymbol moralisChainId with
          | none => rfl
          | some symbol =>
              cases convertWeiToEther rt.toJs
                ((present (tx.field "value")).getD (.string "0")) <;> rfl

theorem isOk_readErc20Transfer (transfer : JsonValue) (db : Db) :
    (readErc20Transfer rt transfer db).isOk = erc20Reads rt db transfer := by
  unfold readErc20Transfer erc20Reads
  rw [← @isOk_lowered rt, ← @isOk_lowered rt]
  cases lowered rt (transfer.field "from") with
  | error e => rfl
  | ok fromAddr =>
      cases lowered rt (transfer.field "to") with
      | error e => rfl
      | ok toAddr =>
          cases (transfer.field "tokenSymbol").filter truthy with
          | none => rfl
          | some v =>
              show (require v.text? invalidArgument >>= _).isOk =
                match v.text? with
                | none => _
                | some symbol => _
              cases v.text? with
              | none => rfl
              | some symbol =>
                  show (findTransferToken rt symbol db >>= _).isOk = (_ && (_ || _))
                  unfold findTransferToken
                  rw [isOk_bind]
                  cases rt.searchable symbol db.tokens with
                  | false => rfl
                  | true =>
                      rw [if_pos rfl, Bool.true_and]
                      dsimp only
                      cases Wallet.findTokenBySymbol rt.toText symbol db with
                      | none => rfl
                      | some token =>
                          rw [← isOk_convertTokenAmount]
                          dsimp only
                          cases convertTokenAmount rt.toJs _ _ <;> rfl

theorem isOk_readTransfer (chain : Chain) (db : Db) (transfer : Transfer) :
    (readTransfer rt chain db transfer).isOk = fieldsConvert rt chain db transfer := by
  cases transfer with
  | native tx => exact isOk_readNativeTx chain.moralisId tx
  | erc20 transfer => exact isOk_readErc20Transfer transfer db

theorem isOk_findConnectedPortfolio (addr : String) (chainId : ℕ) (db : Db) :
    (findConnectedPortfolio rt addr chainId db).isOk =
      (addr = "" || storable (rt.toLowerCase addr)) := by
  unfold findConnectedPortfolio
  by_cases hempty : addr = ""
  · simp [hempty, Except.isOk, Except.toBool]
  · by_cases hstorable : storable (rt.toLowerCase addr)
    · simp [hempty, hstorable, Except.isOk, Except.toBool]
    · simp [hempty, hstorable, Except.isOk, Except.toBool]

theorem lookups_eq (cs : List (String × Ledger.Direction)) (chainId : ℕ) (db : Db) :
    (cs.all fun c => (findConnectedPortfolio rt c.1 chainId db).isOk) =
      addressesStorable rt cs := by
  unfold addressesStorable
  congr 1
  funext c
  exact isOk_findConnectedPortfolio c.1 chainId db

theorem reads_iff (chain : Chain) (db : Db) (transfer : Transfer) :
    reads rt chain db transfer = true ↔ fieldsConvert rt chain db transfer ∧
      ∀ leg, readTransfer rt chain db transfer = .ok (some leg) →
        addressesStorable rt leg.candidates := by
  unfold reads
  rw [← isOk_readTransfer]
  cases readTransfer rt chain db transfer with
  | error e => simp [Except.isOk, Except.toBool]
  | ok leg? =>
      cases leg? with
      | none => simp [Except.isOk, Except.toBool]
      | some leg =>
          dsimp only
          rw [lookups_eq]
          simp [Except.isOk, Except.toBool]

theorem isOk_readNftTransfer (transfer : JsonValue) :
    (readNftTransfer rt transfer).isOk = nftFieldsConvert transfer := by
  unfold readNftTransfer nftFieldsConvert
  rw [← @isOk_lowered rt, ← @isOk_lowered rt, ← @isOk_lowered rt]
  cases lowered rt (transfer.field "from") with
  | error e => rfl
  | ok fromAddr =>
      cases lowered rt (transfer.field "to") with
      | error e => rfl
      | ok toAddr => cases lowered rt (transfer.field "tokenAddress") <;> rfl

theorem nftReads_iff (chain : Chain) (db : Db) (transfer : JsonValue) :
    nftReads rt chain db transfer = true ↔ nftFieldsConvert transfer ∧
      ∀ leg, readNftTransfer rt transfer = .ok (some leg) →
        addressesStorable rt (candidates leg.fromAddr leg.toAddr) := by
  unfold nftReads
  rw [← @isOk_readNftTransfer rt]
  cases readNftTransfer rt transfer with
  | error e => simp [Except.isOk, Except.toBool]
  | ok leg? =>
      cases leg? with
      | none => simp [Except.isOk, Except.toBool]
      | some leg =>
          dsimp only
          rw [lookups_eq]
          simp [Except.isOk, Except.toBool]

end IsOk

/-! ## When a payload is acknowledged -/

section Answers

variable {rt : Runtime} {moment : Moment} {delivery : Delivery} {payload : MoralisPayload}
  {chain : Chain} {timestamp : Millis} {s : State}

theorem exists_ok_iff {α : Type} (x : Except Failure α) : (∃ a, x = .ok a) ↔ x.isOk = true := by
  cases x with
  | error e => simp [Except.isOk, Except.toBool]
  | ok a => simp [Except.isOk, Except.toBool]

/-- The two loops run to their ends exactly when all of this holds. -/
theorem processChain_status (hfits : s.db.fits column) (key : String) :
    (processChain rt moment key payload chain timestamp s).1.status = 200 ↔
      (payload.transfers.all (reads rt chain s.db) ∧
        acceptsAll rt moment timestamp s.db (claimedKeys s.db)
          (bookings rt chain s.db payload.transfers)) ∧
      (payload.nftTransfers.getD []).all (nftReads rt chain s.db) ∧
        movesAccepted rt chain (nftKeys s.nfts)
          (nftMoves rt chain s.db (payload.nftTransfers.getD [])) := by
  have hkept : Kept s.db s.db := ⟨SameRoutes.refl, fun _ => rfl, hfits⟩
  have hledger := fun db' => @processTransfers_iff rt moment timestamp s.db db' chain
    payload.transfers ⟨s.db, []⟩ SameRoutes.refl
  have hbook := @isOk_bookAll rt moment timestamp s.db s.db
    (bookings rt chain s.db payload.transfers) hkept fun b hb => connected_of_mem_bookings hb
  rw [← hbook, ← exists_ok_iff, ← isOk_moveAll, ← exists_ok_iff]
  unfold processChain
  cases hprocess : processTransfers rt moment chain timestamp payload.transfers ⟨s.db, []⟩ with
  | mk result booked =>
      cases result with
      | error e =>
          constructor
          · intro hstatus
            cases hstatus
          · rintro ⟨⟨hreads, db', hall⟩, -⟩
            obtain ⟨counts, s', hok, -⟩ := (hledger db').mpr ⟨hreads, hall⟩
            rw [hprocess] at hok
            cases hok
      | ok counts =>
          obtain ⟨hreads, hall⟩ := (hledger booked.db).mp ⟨counts, booked, hprocess, rfl⟩
          have hroutes : SameRoutes s.db booked.db := sameRoutes_bookAll hall
          have hmoves := fun nfts' => @processNftTransfers_iff rt chain s.db booked.db
            (payload.nftTransfers.getD []) s.nfts nfts' hroutes
          dsimp only
          cases hnfts : processNftTransfers rt chain booked.db (payload.nftTransfers.getD [])
              s.nfts with
          | mk result nfts =>
              cases result with
              | error e =>
                  constructor
                  · intro hstatus
                    cases hstatus
                  · rintro ⟨-, hnftReads, nfts', hmoved⟩
                    obtain ⟨count, hok⟩ := (hmoves nfts').mpr ⟨hnftReads, hmoved⟩
                    rw [hnfts] at hok
                    cases hok
              | ok count =>
                  obtain ⟨hnftReads, hmoved⟩ := (hmoves nfts).mp ⟨count, hnfts⟩
                  constructor
                  · intro _
                    exact ⟨⟨hreads, _, hall⟩, hnftReads, _, hmoved⟩
                  · intro _
                    rfl

theorem digestible_iff (htimestamp : blockTimestamp rt moment payload = .ok timestamp) :
    Digestible rt moment payload chain s ↔
      (payload.transfers.all (reads rt chain s.db) ∧
        acceptsAll rt moment timestamp s.db (claimedKeys s.db)
          (bookings rt chain s.db payload.transfers)) ∧
      (payload.nftTransfers.getD []).all (nftReads rt chain s.db) ∧
        movesAccepted rt chain (nftKeys s.nfts)
          (nftMoves rt chain s.db (payload.nftTransfers.getD [])) := by
  have hdate : timestampReads rt payload := by
    rw [← isOk_blockTimestamp moment, htimestamp]
    rfl
  simp only [List.all_eq_true, reads_iff, nftReads_iff]
  constructor
  · intro h
    refine ⟨⟨fun transfer hmem => ⟨?_, h.addresses transfer hmem⟩, h.bookings timestamp htimestamp⟩,
      fun transfer hmem => ⟨?_, h.nftAddresses transfer hmem⟩, h.moves⟩
    · exact List.all_eq_true.mp h.fields transfer hmem
    · exact List.all_eq_true.mp h.nftFields transfer hmem
  · rintro ⟨⟨hreads, hbookings⟩, hnftReads, hmoves⟩
    exact
      { date := hdate
        fields := List.all_eq_true.mpr fun transfer hmem => (hreads transfer hmem).1
        addresses := fun transfer hmem => (hreads transfer hmem).2
        bookings := fun timestamp' htimestamp' => by
          rw [htimestamp] at htimestamp'
          cases htimestamp'
          exact hbookings
        nftFields := List.all_eq_true.mpr fun transfer hmem => (hnftReads transfer hmem).1
        nftAddresses := fun transfer hmem => (hnftReads transfer hmem).2
        moves := hmoves }

/-- A signed, confirmed payload is acknowledged exactly when it was seen before, its chain is
unknown, or it is digestible. -/
theorem acknowledged_iff (hpayload : delivery.payload rt = some payload)
    (hconfirmed : payload.confirmed = some true)
    (hsigned : (delivery.signature.filter (· ≠ "")).any
      (verifyMoralisSignature rt delivery.rawBody))
    (hfits : s.db.fits column) :
    (∃ response s', handleMoralisWebhook rt moment delivery s = (.ok response, s') ∧
        response.status = 200) ↔
      eventKey rt delivery.rawBody ∈ s.events ∨
        ∀ chain, findChain payload s = some chain → Digestible rt moment payload chain s := by
  have hparsed : (rt.jsonParse delivery.rawBody).bind MoralisPayloadSchema.safeParse =
      some payload := hpayload
  unfold handleMoralisWebhook
  rw [if_neg (not_not_intro hsigned), hparsed]
  dsimp only
  unfold processPayload
  rw [if_neg (by simp [hconfirmed])]
  by_cases hseen : eventKey rt delivery.rawBody ∈ s.events
  · rw [if_pos hseen]
    exact ⟨fun _ => .inl hseen, fun _ => ⟨_, _, rfl, rfl⟩⟩
  · rw [if_neg hseen]
    cases hchain : findChain payload s with
    | none =>
        constructor
        · intro _
          right
          intro chain hfound
          cases hfound
        · intro _
          exact ⟨_, _, rfl, rfl⟩
    | some chain =>
        dsimp only
        have hdate := @isOk_blockTimestamp rt moment payload
        cases htimestamp : blockTimestamp rt moment payload with
        | error e =>
            constructor
            · rintro ⟨response, s', heq, -⟩
              cases heq
            · rintro (hknown | hall)
              · exact absurd hknown hseen
              · have hreads := (hall chain rfl).date
                rw [← hdate, htimestamp] at hreads
                cases hreads
        | ok timestamp =>
            have hstatus := @processChain_status rt moment payload chain timestamp s hfits
              (eventKey rt delivery.rawBody)
            rw [← digestible_iff htimestamp] at hstatus
            constructor
            · rintro ⟨response, s', heq, hok⟩
              right
              rintro chain' hfound
              cases hfound
              obtain ⟨hresponse, -⟩ := Prod.mk.inj heq
              cases hresponse
              exact hstatus.mp hok
            · rintro (hknown | hall)
              · exact absurd hknown hseen
              · exact ⟨_, _, rfl, hstatus.mpr (hall chain rfl)⟩

end Answers

/-! ## Three payloads that are sent for ever -/

def samplePayload (txs erc20Transfers : Option (List JsonValue)) (block : Option JsonValue) :
    MoralisPayload where
  txs := txs
  erc20Transfers := erc20Transfers
  nftTransfers := none
  chainId := some "0x1"
  confirmed := some true
  block := block

def farBlock : JsonValue := .object [("timestamp", .string "99999999999999")]

def farBody : String :=
  "\x7b\"confirmed\":true,\"chainId\":\"0x1\",\"block\":\x7b\"timestamp\":\"99999999999" ++
    "999\"\x7d\x7d"

def farDelivery : Delivery :=
  ⟨farBody, some "18bd3d45bb2f25240f97eaab45bc52981302bbb1ca0bbc02c684c5372e82be03"⟩

def farRuntime : Runtime :=
  sampleRuntime
    (.object [("confirmed", .bool true), ("chainId", .string "0x1"), ("block", farBlock)]) farBody
    "d17d9fe8643b51b85dbe8a90197fa6555ce83bfd3844cd81c9b5ab7426e6f3a2"
    "18bd3d45bb2f25240f97eaab45bc52981302bbb1ca0bbc02c684c5372e82be03"

def numberedTx : JsonValue := .object [("from", .number 7)]

def numberedBody : String :=
  "\x7b\"confirmed\":true,\"chainId\":\"0x1\",\"txs\":[\x7b\"from\":7\x7d]\x7d"

def numberedDelivery : Delivery :=
  ⟨numberedBody, some "de539f6839b7619a0e9ce36c999a330b24c37ad16daa9ee922bcb8bcd8b4e9da"⟩

def numberedRuntime : Runtime :=
  sampleRuntime
    (.object [("confirmed", .bool true), ("chainId", .string "0x1"), ("txs", .array [numberedTx])])
    numberedBody "305009d4ced5374d7255abd81475b78c0c9b9cab17421847922e9da699e03d48"
    "de539f6839b7619a0e9ce36c999a330b24c37ad16daa9ee922bcb8bcd8b4e9da"

/-- A token that calls itself USDC sends 10^24 units. -/
def hugeTransfer : JsonValue :=
  .object
    [("transactionHash", .string "0x5bad"), ("contract", .string "0xfade"),
      ("from", .string bobWallet), ("to", .string aliceWallet),
      ("value", .string "1000000000000000000000000000000"), ("tokenSymbol", .string "USDC"),
      ("tokenDecimals", .string "6")]

def hugeBody : String :=
  "\x7b\"confirmed\":true,\"chainId\":\"0x1\",\"erc20Transfers\":[\x7b\"transactionHash" ++
    "\":\"0x5bad\",\"contract\":\"0xfade\",\"from\":\"0xbbbbbbbbbbbbbbbbbbbbbbbbbbbbbbbbb" ++
    "bbbbbbb\",\"to\":\"0xaaaaaaaaaaaaaaaaaaaaaaaaaaaaaaaaaaaaaaaa\",\"value\":\"10000000" ++
    "00000000000000000000000\",\"tokenSymbol\":\"USDC\",\"tokenDecimals\":\"6\"\x7d]\x7d"

def hugeDelivery : Delivery :=
  ⟨hugeBody, some "e07c3e8bcecf62ef7fd6812cbab67a6d0c8b3acc72ad0ec90195a9fbf2fae380"⟩

def hugeRuntime : Runtime :=
  sampleRuntime
    (.object [("confirmed", .bool true), ("chainId", .string "0x1"),
      ("erc20Transfers", .array [hugeTransfer])])
    hugeBody "80ddbc70e0fab84840089c73d6439c78e4bbe12f55e89363f10482bec24c9a5c"
    "e07c3e8bcecf62ef7fd6812cbab67a6d0c8b3acc72ad0ec90195a9fbf2fae380"

theorem acknowledged_farBlock :
    (∃ response s', handleMoralisWebhook farRuntime sampleMoment farDelivery hookState =
        (.ok response, s') ∧ response.status = 200) ↔
      eventKey farRuntime farBody ∈ hookState.events ∨
        ∀ chain, findChain (samplePayload none none (some farBlock)) hookState = some chain →
          Digestible farRuntime sampleMoment (samplePayload none none (some farBlock)) chain
            hookState :=
  @acknowledged_iff farRuntime sampleMoment farDelivery (samplePayload none none (some farBlock))
    hookState (payload_sample rfl) rfl (by simp [farDelivery, farRuntime, verify_sample])
    (by decide +kernel)

/-- A date beyond the range of `Date`, a sender that is no text, and an amount beyond its
column. -/
theorem poison_payloads :
    (handleMoralisWebhook farRuntime sampleMoment farDelivery hookState).1 = .error rangeError ∧
      (handleMoralisWebhook numberedRuntime sampleMoment numberedDelivery hookState).1 =
        .ok .handlerError ∧
      (handleMoralisWebhook hugeRuntime sampleMoment hugeDelivery hookState).1 =
        .ok .handlerError := by
  have hfar : handleMoralisWebhook farRuntime sampleMoment farDelivery hookState =
      processPayload farRuntime sampleMoment (eventKey farRuntime farBody)
        (samplePayload none none (some farBlock)) hookState :=
    handle_sample (by decide) (by simp) rfl _ _
  have hnumbered : handleMoralisWebhook numberedRuntime sampleMoment numberedDelivery hookState =
      processPayload numberedRuntime sampleMoment (eventKey numberedRuntime numberedBody)
        (samplePayload (some [numberedTx]) none none) hookState :=
    handle_sample (by decide) (by simp) rfl _ _
  have hhuge : handleMoralisWebhook hugeRuntime sampleMoment hugeDelivery hookState =
      processPayload hugeRuntime sampleMoment (eventKey hugeRuntime hugeBody)
        (samplePayload none (some [hugeTransfer]) none) hookState :=
    handle_sample (by decide) (by simp) rfl _ _
  rw [hfar, hnumbered, hhuge]
  exact ⟨by decide +kernel, by decide +kernel, by decide +kernel⟩

end Neonfi.Webhooks

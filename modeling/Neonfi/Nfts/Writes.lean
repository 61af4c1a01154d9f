import Neonfi.Lib.LastWrite
import Neonfi.Nfts.Import
import Neonfi.Webhooks.Recorded

/-!
# What the three writers do to the held collectibles

Webhook deliveries, imported pages and reported holdings write the `nft` table row by row.  Each
of them is a run of single writes to the set of collectibles that have a row.
-/

namespace Neonfi.Nfts

open Lib
open Ledger (Db Portfolio Env Millis ensure)
open Wallet (storable)
open Webhooks (Nft NftTable NftKey NftMove Chain Runtime Moment Delivery State JsonValue nftKeys
  move_outcome candidates readNftTransfer findConnectedPortfolio moveCandidates processNftTransfer
  processNftTransfers processTransfers findChain blockTimestamp tokenIdFilter eventKey
  handleMoralisWebhook)

/-- The collectibles that have a row. -/
def present (nfts : NftRecords) : Set NftKey := {k | ∃ r ∈ nfts.rows, r.key = k}

theorem mem_nftKeys_toNfts {nfts : NftRecords} {k : NftKey} :
    k ∈ nftKeys (toNfts nfts) ↔ k ∈ present nfts := by
  unfold nftKeys toNfts
  rw [List.map_map]
  exact List.mem_map

/-- A write as it arrived: the collectible and the direction, and for a transfer the time it is
about.  A collectible that a provider reports as held comes in without one. -/
structure Arrived where
  key : NftKey
  incoming : Bool
  timestamp : Option Millis
  deriving DecidableEq, Repr

/-- A run of single writes. -/
abbrev Applied (held : Set NftKey) (arrived : List Arrived) (held' : Set NftKey) : Prop :=
  Run (Writes Arrived.key Arrived.incoming) held arrived held'

/-! ## Pages -/

section Pages

variable {text : Ledger.Js} {nfts nfts' : NftRecords}

theorem present_set {r : NftRecord} {k : NftKey} :
    k ∈ present (nfts.set r) ↔ k = r.key ∨ k ∈ present nfts := by
  constructor
  · rintro ⟨s, hs, rfl⟩
    rcases Table.mem_rows_set.mp hs with rfl | ⟨hmem, -⟩
    · exact .inl rfl
    · exact .inr ⟨s, hmem, rfl⟩
  · rintro (rfl | ⟨s, hs, rfl⟩)
    · exact ⟨r, Table.mem_rows_set.mpr (.inl rfl), rfl⟩
    · by_cases hkey : s.key = r.key
      · exact ⟨r, Table.mem_rows_set.mpr (.inl rfl), hkey.symm⟩
      · exact ⟨s, Table.mem_rows_set.mpr (.inr ⟨hs, hkey⟩), rfl⟩

theorem present_putNft {insertsFirst : Bool} {row : NftRecord} {texts : NftTexts}
    {update : NftRecord → NftRecord} (hupdate : ∀ r, (update r).key = r.key)
    (h : putNft insertsFirst row texts update nfts = some nfts') (k : NftKey) :
    k ∈ present nfts' ↔ k = row.key ∨ k ∈ present nfts := by
  unfold putNft at h
  split at h
  · cases h
  · split at h
    · next hfree =>
        split at h
        · cases h
          exact present_set
        · cases h
    · next old hold =>
        split at h
        · cases h
          have hkey : (update (texts.refresh old)).key = row.key :=
            (hupdate _).trans (Table.find?_eq_some_iff.mp hold).2
          rw [present_set, hkey]
        · cases h

theorem present_dropNft {k : NftKey} (h : dropNft k nfts = some nfts') (j : NftKey) :
    j ∈ present nfts' ↔ j ≠ k ∧ j ∈ present nfts := by
  unfold dropNft at h
  split at h
  · cases h
    constructor
    · rintro ⟨r, hr, rfl⟩
      obtain ⟨hmem, hne⟩ := List.mem_filter.mp hr
      exact ⟨of_decide_eq_true hne, r, hmem, rfl⟩
    · rintro ⟨hne, r, hmem, rfl⟩
      exact ⟨r, List.mem_filter.mpr ⟨hmem, decide_eq_true hne⟩, rfl⟩
  · cases h

end Pages

/-- The transfer of a page, once its holding row is written. -/
def HistoryTransfer.arrived (text : Wallet.Text) (portfolioId : ℕ) (tr : HistoryTransfer) :
    Arrived where
  key := tr.nftKey text portfolioId
  incoming := tr.incoming
  timestamp := tr.timestamp

section Import

variable {text : Wallet.Text} {insertsFirst : Bool} {env : Env} {portfolio : Portfolio}
  {chainSlug : String}

theorem storeTransfer_writes {tr : HistoryTransfer} {nfts nfts' : NftRecords}
    (h : storeTransfer text insertsFirst portfolio chainSlug tr nfts = some nfts') :
    Writes Arrived.key Arrived.incoming (present nfts) (tr.arrived text portfolio.id)
      (present nfts') := by
  intro k
  show _ ↔ if tr.nftKey text portfolio.id = k then tr.incoming = true else _
  unfold storeTransfer at h
  split at h
  · next hin =>
      rw [present_putNft (fun _ => rfl) h, hin]
      show k = tr.nftKey text portfolio.id ∨ _ ↔ _
      by_cases hkey : tr.nftKey text portfolio.id = k
      · simp [hkey]
      · simp [hkey, Ne.symm hkey]
  · next hout =>
      rw [present_dropNft h]
      by_cases hkey : tr.nftKey text portfolio.id = k
      · simp [hkey, hout]
      · simp [hkey, Ne.symm hkey]

/-- The transfers of a page whose holding row is written, in order. -/
def storedTransfers (text : Wallet.Text) (insertsFirst : Bool) (portfolio : Portfolio)
    (chainSlug : String) (transfers : List HistoryTransfer) (nfts : NftRecords) :
    List HistoryTransfer × NftRecords :=
  tried (storeTransfer text insertsFirst portfolio chainSlug)
    ((ordered transfers).filter fun tr => tr.namesNft text) nfts

theorem applied_storedTransfers (transfers : List HistoryTransfer) (nfts : NftRecords) :
    Applied (present nfts)
      ((storedTransfers text insertsFirst portfolio chainSlug transfers nfts).1.map
        (HistoryTransfer.arrived text portfolio.id))
      (present (storedTransfers text insertsFirst portfolio chainSlug transfers nfts).2) := by
  unfold storedTransfers
  exact (run_tried _ _ nfts).map fun _ _ _ hstore => storeTransfer_writes hstore

/-- The holding row is all a transfer writes of the collectibles. -/
theorem importTransfer_nfts (tr : HistoryTransfer) (s : Holdings) :
    (importTransfer text insertsFirst env portfolio chainSlug tr s).2.nfts =
      if tr.namesNft text then
        (storeTransfer text insertsFirst portfolio chainSlug tr s.nfts).getD s.nfts
      else s.nfts := by
  unfold importTransfer
  by_cases htype : tr.type = .nft
  · rw [if_pos htype]
    unfold importNftTransfer
    by_cases hunread : tr.contract text = "" ∨ tr.tokenId = ""
    · rw [if_pos hunread, if_neg fun hnames => hunread.elim hnames.2.1 hnames.2.2]
    · rw [if_neg hunread, if_pos ⟨htype, not_or.mp hunread⟩]
      cases storeTransfer text insertsFirst portfolio chainSlug tr s.nfts <;> rfl
  · rw [if_neg htype, if_neg fun hnames => htype hnames.1]

theorem importTransfers_nfts (transfers : List HistoryTransfer) (s : Holdings) :
    (importTransfers text insertsFirst env portfolio chainSlug transfers s).2.nfts =
      (storedTransfers text insertsFirst portfolio chainSlug transfers s.nfts).2 := by
  unfold storedTransfers importTransfers
  rw [tried_snd]
  generalize ordered transfers = page
  generalize 0 = n
  induction page generalizing n s with
  | nil => rfl
  | cons tr page ih =>
      rw [List.foldl_cons, ih, importTransfer_nfts, List.filter_cons]
      by_cases hnames : tr.namesNft text
      · rw [if_pos hnames, if_pos (decide_eq_true hnames), List.foldl_cons]
      · rw [if_neg hnames, if_neg (by simpa using hnames)]

/-! ## Reported holdings -/

def WalletNftHolding.arrived (portfolioId : ℕ) (h : WalletNftHolding) : Arrived where
  key := (portfolioId, h.contractAddress, h.tokenId)
  incoming := true
  timestamp := none

variable {classifyNftSpam : SpamSignals → Bool} {spamContracts : List String}
  {holdings : List WalletNftHolding}

theorem importNftHolding_writes {h : WalletNftHolding} {nfts nfts' : NftRecords}
    (hput : importNftHolding text insertsFirst portfolio chainSlug classifyNftSpam spamContracts
      holdings h nfts = some nfts') :
    Writes Arrived.key Arrived.incoming (present nfts) (h.arrived portfolio.id)
      (present nfts') := by
  intro k
  show _ ↔ if (portfolio.id, h.contractAddress, h.tokenId) = k then true = true else _
  unfold importNftHolding at hput
  rw [present_putNft (by exact fun _ => rfl) hput]
  show k = (portfolio.id, h.contractAddress, h.tokenId) ∨ _ ↔ _
  by_cases hkey : (portfolio.id, h.contractAddress, h.tokenId) = k
  · simp [hkey]
  · simp [hkey, Ne.symm hkey]

/-- The reported holdings whose row is written, in order. -/
def storedHoldings (text : Wallet.Text) (insertsFirst : Bool) (portfolio : Portfolio)
    (chainSlug : String) (classifyNftSpam : SpamSignals → Bool) (spamContracts : List String)
    (holdings : List WalletNftHolding) (nfts : NftRecords) : List WalletNftHolding × NftRecords :=
  tried
    (importNftHolding text insertsFirst portfolio chainSlug classifyNftSpam spamContracts holdings)
    holdings nfts

theorem applied_storedHoldings (nfts : NftRecords) :
    Applied (present nfts)
      ((storedHoldings text insertsFirst portfolio chainSlug classifyNftSpam spamContracts
        holdings nfts).1.map (WalletNftHolding.arrived portfolio.id))
      (present (storedHoldings text insertsFirst portfolio chainSlug classifyNftSpam spamContracts
        holdings nfts).2) := by
  unfold storedHoldings
  exact (run_tried _ _ nfts).map fun _ _ _ hput => importNftHolding_writes hput

theorem importNftHoldings_eq (nfts : NftRecords) :
    importNftHoldings text insertsFirst portfolio chainSlug classifyNftSpam spamContracts holdings
        nfts =
      (storedHoldings text insertsFirst portfolio chainSlug classifyNftSpam spamContracts holdings
        nfts).2 :=
  (tried_snd _ _ nfts).symm

end Import

/-! ## Deliveries -/

section Deliveries

variable (rt : Runtime)

/-- What a party comes to: a move, an error, or nothing. -/
def stepOf (chainId : ℕ) (db : Db) (leg : Webhooks.NftLeg)
    (candidate : String × Ledger.Direction) : Option (Except Ledger.Failure NftMove) :=
  match findConnectedPortfolio rt candidate.1 chainId db with
  | .error e => some (.error e)
  | .ok portfolio => portfolio.map fun p => .ok ⟨p.id, leg, candidate.2⟩

/-- The moves of a payload, with the errors that end its loop. -/
def nftSteps (chain : Chain) (db : Db) (transfers : List JsonValue) :
    List (Except Ledger.Failure NftMove) :=
  transfers.flatMap fun transfer =>
    match readNftTransfer rt transfer with
    | .error e => [.error e]
    | .ok none => []
    | .ok (some leg) =>
        (candidates leg.fromAddr leg.toAddr).filterMap (stepOf rt chain.id db leg)

/-- The moves before the first error, and the table they leave. -/
def movesMade (chain : Chain) : List (Except Ledger.Failure NftMove) → NftTable →
    List NftMove × NftTable
  | [], nfts => ([], nfts)
  | .error _ :: _, nfts => ([], nfts)
  | .ok m :: steps, nfts =>
      match m.move rt chain nfts with
      | .error _ => ([], nfts)
      | .ok nfts => (m :: (movesMade chain steps nfts).1, (movesMade chain steps nfts).2)

variable {rt} {chain : Chain} {db : Db}

theorem movesMade_moveCandidates {leg : Webhooks.NftLeg} (cs : List (String × Ledger.Direction))
    (rest : List (Except Ledger.Failure NftMove)) (nfts : NftTable) :
    (movesMade rt chain (cs.filterMap (stepOf rt chain.id db leg) ++ rest) nfts).2 =
      match moveCandidates rt chain leg db cs nfts with
      | (.error _, nfts) => nfts
      | (.ok _, nfts) => (movesMade rt chain rest nfts).2 := by
  induction cs generalizing nfts with
  | nil => rfl
  | cons c cs ih =>
      obtain ⟨addr, direction⟩ := c
      rw [moveCandidates, List.filterMap_cons, stepOf]
      cases hfind : findConnectedPortfolio rt addr chain.id db with
      | error e => simp [movesMade]
      | ok portfolio =>
          cases portfolio with
          | none => simpa [hfind] using ih nfts
          | some p =>
              simp only [Option.map_some, List.cons_append, movesMade, NftMove.move]
              cases hmove : Webhooks.moveNft rt chain leg direction p.id nfts with
              | error e => rfl
              | ok nfts₁ =>
                  simp only [ih nfts₁]
                  cases moveCandidates rt chain leg db cs nfts₁ with
                  | mk count nfts₂ => cases count <;> rfl

theorem processNftTransfers_nfts (transfers : List JsonValue) (nfts : NftTable) :
    (processNftTransfers rt chain db transfers nfts).2 =
      (movesMade rt chain (nftSteps rt chain db transfers) nfts).2 := by
  induction transfers generalizing nfts with
  | nil => rfl
  | cons transfer transfers ih =>
      unfold nftSteps at ih ⊢
      rw [processNftTransfers, processNftTransfer, List.flatMap_cons]
      cases hread : readNftTransfer rt transfer with
      | error e => rfl
      | ok leg? =>
          cases leg? with
          | none => exact ih nfts
          | some leg =>
              dsimp only
              rw [movesMade_moveCandidates]
              cases moveCandidates rt chain leg db (candidates leg.fromAddr leg.toAddr) nfts with
              | mk count nfts₁ =>
                  cases count with
                  | error e => rfl
                  | ok count => exact ih nfts₁

/-- A move of a payload, once it is made. -/
def arrivedMove (timestamp : Millis) (m : NftMove) : Arrived where
  key := (m.portfolioId, m.leg.tokenAddress, m.leg.tokenId.text?.getD "")
  incoming := m.direction = .buy
  timestamp := some timestamp

theorem row_key {m : NftMove} {nft : Nft} {tokenId : String}
    (htext : m.leg.tokenId.text? = some tokenId) (hrow : m.row rt chain = .ok nft) :
    nft.key = (m.portfolioId, m.leg.tokenAddress, tokenId) := by
  unfold NftMove.row at hrow
  obtain ⟨columns, -, hrow⟩ := Ledger.bind_eq_ok hrow
  rw [htext] at hrow
  cases hrow
  rfl

theorem tokenIdFilter_ok {tokenId : JsonValue} {s : String} {selects : String → Bool}
    (htext : tokenId.text? = some s) (hfilter : tokenIdFilter rt tokenId = .ok selects) :
    selects = fun t => decide (t = s) := by
  unfold tokenIdFilter at hfilter
  rw [htext] at hfilter
  dsimp only [ensure] at hfilter
  by_cases hstorable : storable s
  · rw [if_pos hstorable] at hfilter
    exact (Except.ok.inj hfilter).symm
  · rw [if_neg hstorable] at hfilter
    cases hfilter

theorem mem_keysAfter_iff {m : NftMove} {keys : List NftKey} {tokenId : String}
    (htext : m.leg.tokenId.text? = some tokenId) (haccepted : m.accepted rt chain keys)
    (k : NftKey) :
    k ∈ m.keysAfter rt chain keys ↔
      if (m.portfolioId, m.leg.tokenAddress, tokenId) = k then m.direction = .buy
      else k ∈ keys := by
  unfold NftMove.accepted at haccepted
  unfold NftMove.keysAfter
  by_cases hbuy : m.direction = .buy
  · rw [if_pos hbuy] at haccepted ⊢
    cases hrow : m.row rt chain with
    | error e => simp [hrow] at haccepted
    | ok nft =>
        dsimp only
        rw [row_key htext hrow]
        by_cases hstored : (m.portfolioId, m.leg.tokenAddress, tokenId) ∈ keys
        · rw [if_pos hstored]
          split
          · next hk => exact iff_of_true (hk ▸ hstored) hbuy
          · rfl
        · rw [if_neg hstored, List.mem_append, List.mem_singleton]
          split
          · next hk => exact iff_of_true (.inr hk.symm) hbuy
          · next hk => exact or_iff_left (Ne.symm hk)
  · rw [if_neg hbuy] at haccepted ⊢
    cases hfilter : tokenIdFilter rt m.leg.tokenId with
    | error e => simp [hfilter, Except.isOk, Except.toBool] at haccepted
    | ok selects =>
        dsimp only
        rw [tokenIdFilter_ok htext hfilter, List.mem_filter, decide_eq_true_iff]
        unfold NftMove.selected
        split
        · next hk =>
            subst hk
            simp [hbuy]
        · next hk =>
            refine and_iff_left fun hselected => hk ?_
            rw [← hselected.1, ← hselected.2.1, ← of_decide_eq_true hselected.2.2]

/-- An item that is named by a text is written under this name. -/
theorem move_writes {m : NftMove} {nfts nfts' : NftTable} (timestamp : Millis)
    (hid : m.leg.tokenId.text?.isSome) (h : m.move rt chain nfts = .ok nfts') :
    Writes Arrived.key Arrived.incoming {k | k ∈ nftKeys nfts} (arrivedMove timestamp m)
      {k | k ∈ nftKeys nfts'} := by
  obtain ⟨tokenId, htext⟩ := Option.isSome_iff_exists.mp hid
  have houtcome := @move_outcome rt chain m nfts
  split at houtcome
  · next haccepted =>
      obtain ⟨nfts₁, hmove, hkeys⟩ := houtcome
      obtain rfl : nfts₁ = nfts' := Except.ok.inj (hmove.symm.trans h)
      intro k
      show k ∈ nftKeys nfts₁ ↔
        if (m.portfolioId, m.leg.tokenAddress, m.leg.tokenId.text?.getD "") = k then
          decide (m.direction = .buy) = true
        else k ∈ nftKeys nfts
      rw [hkeys, htext, Option.getD_some, mem_keysAfter_iff htext haccepted, decide_eq_true_iff]
  · obtain ⟨e, hmove⟩ := houtcome
    rw [h] at hmove
    cases hmove

theorem applied_movesMade (timestamp : Millis) {steps : List (Except Ledger.Failure NftMove)}
    {nfts : NftTable}
    (hids : ∀ m ∈ (movesMade rt chain steps nfts).1, m.leg.tokenId.text?.isSome) :
    Applied {k | k ∈ nftKeys nfts}
      ((movesMade rt chain steps nfts).1.map (arrivedMove timestamp))
      {k | k ∈ nftKeys (movesMade rt chain steps nfts).2} := by
  induction steps generalizing nfts with
  | nil => exact .nil _
  | cons step steps ih =>
      cases step with
      | error e => exact .nil _
      | ok m =>
          rw [movesMade] at hids ⊢
          cases hmove : m.move rt chain nfts with
          | error e => exact .nil _
          | ok nfts₁ =>
              rw [hmove] at hids
              exact .cons (move_writes timestamp (hids m List.mem_cons_self) hmove)
                (ih fun m' hm' => hids m' (List.mem_cons_of_mem m hm'))

/-- The collectible loop a delivery gets to. -/
structure NftWork where
  chain : Chain
  timestamp : Millis
  db : Db
  transfers : List JsonValue

variable (rt) in
/-- The loop runs when the delivery is new and confirmed and its other transfers are booked. -/
def nftWork (moment : Moment) (delivery : Delivery) (s : State) : Option NftWork :=
  if ¬ (delivery.signature.filter (· ≠ "")).any
      (Webhooks.verifyMoralisSignature rt delivery.rawBody) then none
  else
    (delivery.payload rt).bind fun payload =>
      if payload.confirmed ≠ some true ∨ eventKey rt delivery.rawBody ∈ s.events then none
      else
        (findChain payload s).bind fun chain =>
          match blockTimestamp rt moment payload with
          | .error _ => none
          | .ok timestamp =>
              match processTransfers rt moment chain timestamp payload.transfers ⟨s.db, []⟩ with
              | (.error _, _) => none
              | (.ok _, booked) =>
                  some ⟨chain, timestamp, booked.db, payload.nftTransfers.getD []⟩

variable (rt) in
def NftWork.made (work : NftWork) (nfts : NftTable) : List NftMove × NftTable :=
  movesMade rt work.chain (nftSteps rt work.chain work.db work.transfers) nfts

theorem handle_nfts (moment : Moment) (delivery : Delivery) (s : State) :
    (handleMoralisWebhook rt moment delivery s).2.nfts =
      match nftWork rt moment delivery s with
      | none => s.nfts
      | some work => (work.made rt s.nfts).2 := by
  unfold handleMoralisWebhook nftWork Delivery.payload
  split
  · rfl
  · cases (rt.jsonParse delivery.rawBody).bind Webhooks.MoralisPayloadSchema.safeParse with
    | none => rfl
    | some payload =>
        dsimp only [Option.bind_some]
        unfold Webhooks.processPayload
        by_cases hconfirmed : payload.confirmed ≠ some true
        · rw [if_pos hconfirmed, if_pos (.inl hconfirmed)]
        · by_cases hseen : eventKey rt delivery.rawBody ∈ s.events
          · rw [if_neg hconfirmed, if_pos hseen, if_pos (.inr hseen)]
          · rw [if_neg hconfirmed, if_neg hseen, if_neg (not_or.mpr ⟨hconfirmed, hseen⟩)]
            cases findChain payload s with
            | none => rfl
            | some chain =>
                dsimp only [Option.bind_some]
                cases blockTimestamp rt moment payload with
                | error e => rfl
                | ok timestamp =>
                    dsimp only
                    unfold Webhooks.processChain NftWork.made
                    cases processTransfers rt moment chain timestamp payload.transfers
                        ⟨s.db, []⟩ with
                    | mk counts booked =>
                        cases counts with
                        | error e => rfl
                        | ok counts =>
                            dsimp only
                            rw [← processNftTransfers_nfts]
                            split <;> simp_all

end Deliveries

end Neonfi.Nfts

import Neonfi.Nfts.Writes
import Neonfi.Webhooks.Replay

/-!
# The order in which collectible transfers arrive

None of the writers remembers the time of what it wrote before, so the write that arrived last
decides whether a collectible has a row.  The rows are those of the transfers with the latest
time exactly when the last write about each collectible agrees with its latest transfer.
-/

namespace Neonfi.Nfts

open Lib
open Ledger (Db Portfolio Env)
open Webhooks (NftKey ChainTable Runtime Moment Delivery State nftKeys handleMoralisWebhook)

/-- The tables, and the writes to the collectibles so far. -/
structure Store where
  db : Db
  nfts : NftRecords
  chains : ChainTable
  events : List String
  arrived : List Arrived

def Store.state (s : Store) : State := ⟨s.db, toNfts s.nfts, s.chains, s.events⟩

/-- A resync imports the newest page and then the reported holdings, a load-more an older page.
Its other passes, and the rest of the server, leave the collectibles alone. -/
inductive Arrival
  | delivery (moment : Moment) (delivery : Delivery)
  | page (env : Env) (portfolio : Portfolio) (chainSlug : String)
      (transfers : List HistoryTransfer)
  | holdings (portfolio : Portfolio) (chainSlug : String) (spamContracts : List String)
      (holdings : List WalletNftHolding)
  | elsewhere

section Order

variable (rt : Runtime) (classifyNftSpam : SpamSignals → Bool)

/-- The moves a delivery makes. -/
def deliveredMoves (moment : Moment) (delivery : Delivery) (s : State) : List Webhooks.NftMove :=
  match nftWork rt moment delivery s with
  | none => []
  | some work => (work.made rt s.nfts).1

def deliveredAt (moment : Moment) (delivery : Delivery) (s : State) : Ledger.Millis :=
  match nftWork rt moment delivery s with
  | none => moment.env.now
  | some work => work.timestamp

/-- One arrival.  A delivery leaves the columns it does not know free, and names its items by
texts. -/
inductive Receives : Store → Arrival → Store → Prop
  | delivery {s : Store} {nfts : NftRecords} {moment : Moment} {delivery : Delivery}
      (hids : ∀ m ∈ deliveredMoves rt moment delivery s.state, m.leg.tokenId.text?.isSome)
      (hnfts : toNfts nfts = (handleMoralisWebhook rt moment delivery s.state).2.nfts) :
      Receives s (.delivery moment delivery)
        { s with
          db := (handleMoralisWebhook rt moment delivery s.state).2.db
          nfts
          events := (handleMoralisWebhook rt moment delivery s.state).2.events
          arrived := s.arrived ++ (deliveredMoves rt moment delivery s.state).map
            (arrivedMove (deliveredAt rt moment delivery s.state)) }
  | page {s : Store} {env : Env} {portfolio : Portfolio} {chainSlug : String}
      {transfers : List HistoryTransfer} :
      Receives s (.page env portfolio chainSlug transfers)
        { s with
          db := (importTransfers rt.toText rt.insertsFirst env portfolio chainSlug transfers
            ⟨s.db, s.nfts⟩).2.db
          nfts := (importTransfers rt.toText rt.insertsFirst env portfolio chainSlug transfers
            ⟨s.db, s.nfts⟩).2.nfts
          arrived := s.arrived ++
            (storedTransfers rt.toText rt.insertsFirst portfolio chainSlug transfers
              s.nfts).1.map (HistoryTransfer.arrived rt.toText portfolio.id) }
  | holdings {s : Store} {portfolio : Portfolio} {chainSlug : String}
      {spamContracts : List String} {holdings : List WalletNftHolding} :
      Receives s (.holdings portfolio chainSlug spamContracts holdings)
        { s with
          nfts := importNftHoldings rt.toText rt.insertsFirst portfolio chainSlug classifyNftSpam
            spamContracts holdings s.nfts
          arrived := s.arrived ++
            (storedHoldings rt.toText rt.insertsFirst portfolio chainSlug classifyNftSpam
              spamContracts holdings s.nfts).1.map (WalletNftHolding.arrived portfolio.id) }
  | elsewhere {s : Store} {db : Db} {events : List String} :
      Receives s .elsewhere { s with db, events }

variable {rt classifyNftSpam} {s s' : Store} {p : ℕ}

theorem present_eq (nfts : NftRecords) : present nfts = {k | k ∈ nftKeys (toNfts nfts)} :=
  Set.ext fun _ => mem_nftKeys_toNfts.symm

/-- Every arrival is a run of single writes, and keeps their record. -/
theorem receives_applied {a : Arrival} (h : Receives rt classifyNftSpam s a s') :
    ∃ new, s'.arrived = s.arrived ++ new ∧ Applied (present s.nfts) new (present s'.nfts) := by
  cases h with
  | @delivery nfts moment delivery hids hnfts =>
      refine ⟨_, rfl, ?_⟩
      rw [present_eq, present_eq, hnfts, handle_nfts]
      unfold deliveredMoves at hids ⊢
      unfold deliveredAt
      cases hwork : nftWork rt moment delivery s.state with
      | none => exact .nil _
      | some work =>
          rw [hwork] at hids
          exact applied_movesMade work.timestamp hids
  | page =>
      refine ⟨_, rfl, ?_⟩
      rw [importTransfers_nfts]
      exact applied_storedTransfers _ _
  | holdings =>
      refine ⟨_, rfl, ?_⟩
      rw [importNftHoldings_eq]
      exact applied_storedHoldings _
  | elsewhere => exact ⟨[], (List.append_nil _).symm, .nil _⟩

theorem run_applied {as : List Arrival} (h : Run (Receives rt classifyNftSpam) s as s') :
    ∃ new, s'.arrived = s.arrived ++ new ∧ Applied (present s.nfts) new (present s'.nfts) := by
  induction h with
  | nil => exact ⟨[], (List.append_nil _).symm, .nil _⟩
  | cons hstep _ ih =>
      obtain ⟨new, harrived, happlied⟩ := receives_applied hstep
      obtain ⟨rest, hrest, hrun⟩ := ih
      exact ⟨new ++ rest, by rw [hrest, harrived, List.append_assoc], happlied.append hrun⟩

/-- A collectible of the portfolio has a row exactly when its latest transfer came in. -/
def HeldAsLatest (p : ℕ) (s : Store) : Prop :=
  ∀ k : NftKey, k.1 = p →
    (k ∈ present s.nfts ↔ LatestAdds Arrived.key Arrived.incoming Arrived.timestamp s.arrived k)

/-- The last write about each collectible of the portfolio agrees with its latest transfer. -/
def EndsLatest (p : ℕ) (s : Store) : Prop :=
  ∀ k : NftKey, k.1 = p →
    EndsLatestOn Arrived.key Arrived.incoming Arrived.timestamp s.arrived k

/-- Whatever order they arrive in, the latest transfers decide exactly when they had the last
word. -/
theorem heldAsLatest_iff {as : List Arrival} (hnew : ∀ k ∈ present s.nfts, k.1 ≠ p)
    (hnone : s.arrived = []) (hrun : Run (Receives rt classifyNftSpam) s as s') :
    HeldAsLatest p s' ↔ EndsLatest p s' := by
  obtain ⟨new, harrived, happlied⟩ := run_applied hrun
  rw [hnone, List.nil_append] at harrived
  unfold HeldAsLatest EndsLatest
  rw [harrived]
  refine forall₂_congr fun k hk => ?_
  exact mem_iff_latestAdds_iff (fun hmem => hnew k hmem hk) happlied

end Order

/-! ## An item that is received and sold -/

def itemTransfer (incoming : Bool) (timestamp : Ledger.Millis) : HistoryTransfer where
  type := .nft
  incoming := incoming
  hash := none
  fromAddr := none
  toAddr := none
  symbol := none
  name := none
  contractAddress := some "0xNFT"
  amount := none
  usdValue := none
  gasFee := none
  timestamp := some timestamp
  nftTokenId := some "7"

def itemKey : NftKey := (1, "0xnft", "7")

def itemArrived (incoming : Bool) (timestamp : Ledger.Millis) : Arrived where
  key := itemKey
  incoming := incoming
  timestamp := some timestamp

def connectedStore : Store where
  db := Webhooks.hookDb
  nfts := Table.empty
  chains := Table.empty
  events := []
  arrived := []

def itemPortfolio : Portfolio := Webhooks.trackedPortfolio 1 1 Webhooks.aliceWallet

def itemPage (incoming : Bool) (timestamp : Ledger.Millis) : Arrival :=
  .page Ledger.sampleEnv itemPortfolio "ethereum" [itemTransfer incoming timestamp]

/-- The store after the page with one transfer. -/
def afterPage (incoming : Bool) (timestamp : Ledger.Millis) (s : Store) : Store :=
  let rt := Webhooks.swapRuntime
  let page := [itemTransfer incoming timestamp]
  { s with
    db := (importTransfers rt.toText rt.insertsFirst Ledger.sampleEnv itemPortfolio "ethereum" page
      ⟨s.db, s.nfts⟩).2.db
    nfts := (importTransfers rt.toText rt.insertsFirst Ledger.sampleEnv itemPortfolio "ethereum"
      page ⟨s.db, s.nfts⟩).2.nfts
    arrived := s.arrived ++
      (storedTransfers rt.toText rt.insertsFirst itemPortfolio "ethereum" page s.nfts).1.map
        (HistoryTransfer.arrived rt.toText itemPortfolio.id) }

theorem receives_itemPage (incoming : Bool) (timestamp : Ledger.Millis) (s : Store) :
    Receives Webhooks.swapRuntime SpamSignals.possibleSpam s (itemPage incoming timestamp)
      (afterPage incoming timestamp s) :=
  .page

/-- The two pages of the item, the older one first. -/
def afterOldest : Store := afterPage false 2 (afterPage true 1 connectedStore)

theorem heldAsLatest_oldestFirst : HeldAsLatest 1 afterOldest := by
  have harrived : afterOldest.arrived = [itemArrived true 1, itemArrived false 2] := by
    decide +kernel
  refine (@heldAsLatest_iff Webhooks.swapRuntime SpamSignals.possibleSpam connectedStore _ 1
    [itemPage true 1, itemPage false 2] (by rintro k ⟨r, hr, -⟩; cases hr) rfl
    (.cons (receives_itemPage _ _ _) (.cons (receives_itemPage _ _ _) (.nil _)))).mpr ?_
  show EndsLatest 1 afterOldest
  intro k _ last hlast
  rw [harrived] at hlast ⊢
  obtain ⟨hlastMem, hkey⟩ := mem_of_lastOn Arrived.key hlast
  obtain rfl : itemKey = k := by
    rcases List.mem_pair.mp hlastMem with rfl | rfl <;> exact hkey
  obtain rfl : itemArrived false 2 = last := Option.some.inj hlast
  refine iff_of_false (by decide) ?_
  rintro ⟨op, ⟨hmem, -, t, htime, hle⟩, hadds⟩
  have hsold := hle (itemArrived false 2) (List.mem_cons_of_mem _ List.mem_cons_self) rfl 2 rfl
  rcases List.mem_pair.mp hmem with rfl | rfl
  · cases htime
    exact absurd hsold (by decide)
  · cases hadds

/-- With "load more" the older page comes second, and the item that was sold is there again. -/
def afterLoadMore : Store := afterPage true 1 (afterPage false 2 connectedStore)

theorem not_heldAsLatest_loadMore :
    Run (Receives Webhooks.swapRuntime SpamSignals.possibleSpam) connectedStore
        [itemPage false 2, itemPage true 1] afterLoadMore ∧
      ¬ HeldAsLatest 1 afterLoadMore := by
  have harrived : afterLoadMore.arrived = [itemArrived false 2, itemArrived true 1] := by
    decide +kernel
  have hkeys : afterLoadMore.nfts.rows.map NftRecord.key = [itemKey] := by decide +kernel
  refine ⟨.cons (receives_itemPage _ _ _) (.cons (receives_itemPage _ _ _) (.nil _)), ?_⟩
  intro hheld
  have hpresent : itemKey ∈ present afterLoadMore.nfts := by
    have hmem : itemKey ∈ afterLoadMore.nfts.rows.map NftRecord.key := by
      rw [hkeys]
      exact List.mem_singleton_self _
    exact List.mem_map.mp hmem
  obtain ⟨op, ⟨hmem, -, t, htime, hle⟩, hadds⟩ := (hheld itemKey rfl).mp hpresent
  rw [harrived] at hmem hle
  have hsold := hle (itemArrived false 2) List.mem_cons_self rfl 2 rfl
  rcases List.mem_pair.mp hmem with rfl | rfl
  · cases hadds
  · cases htime
    exact absurd hsold (by decide)

end Neonfi.Nfts

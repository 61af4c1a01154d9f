import Neonfi.Webhooks.Bookings

/-!
# What an answered delivery has recorded

A delivery answered with 200 was ignored, or seen before, or all its bookings were made.  Then
the rows it added are the first claims among its bookings, and the delivery stays known.
-/

namespace Neonfi.Webhooks

open Lib
open Ledger (Db Portfolio Transaction)
open Wallet (claimedKeys SummaryResult catalog_resolveHeldTokens upsertAsset
  setConnectedBalancesFromSummary refreshConnectedBalancesFromProvider)

/-! ## The refresh writes no transaction -/

section Refresh

variable {text : Wallet.Text}

theorem transactions_upsertAsset (p t : ℕ) (w : Wallet.BalanceWrite) (db : Db) :
    (upsertAsset p t w db).transactions = db.transactions := by
  unfold upsertAsset
  split
  · rfl
  · split
    · rfl
    · split
      · next db' hcreate =>
          obtain ⟨assets, rfl, -⟩ := Ledger.createAsset_ok hcreate
          rfl
      · rfl

theorem transactions_setConnectedBalances (p : ℕ) (held : List Wallet.HeldToken)
    (cost : Option Wallet.CostMap) (db : Db) :
    (setConnectedBalancesFromSummary p held cost db).transactions = db.transactions := by
  unfold setConnectedBalancesFromSummary
  show (List.foldl _ db _).transactions = _
  generalize Wallet.setIds held cost = ids
  induction ids generalizing db with
  | nil => rfl
  | cons t ids ih =>
      rw [List.foldl_cons, ih, transactions_upsertAsset]

theorem transactions_refresh (portfolio : Portfolio) (summary : SummaryResult) (db : Db) :
    (refreshConnectedBalancesFromProvider text portfolio summary db).transactions =
      db.transactions := by
  unfold refreshConnectedBalancesFromProvider
  split
  · rfl
  · split
    · rfl
    · obtain ⟨tokens, htokens⟩ := @catalog_resolveHeldTokens text summary.tokens db
      dsimp only
      split
      · rw [htokens]
      · rw [transactions_setConnectedBalances, htokens]

end Refresh

theorem transactions_refreshAffected {rt : Runtime} {moment : Moment} (affected : List Portfolio)
    (db : Db) : (refreshAffected rt moment affected db).transactions = db.transactions := by
  unfold refreshAffected
  induction affected generalizing db with
  | nil => rfl
  | cons portfolio affected ih => rw [List.foldl_cons, ih, transactions_refresh]

/-! ## An answered delivery -/

section Answered

variable (rt : Runtime) (moment : Moment)

def Delivery.payload (delivery : Delivery) : Option MoralisPayload :=
  (rt.jsonParse delivery.rawBody).bind MoralisPayloadSchema.safeParse

/-- The bookings of a payload in a state; without a known chain there are none. -/
def MoralisPayload.bookings (payload : MoralisPayload) (s : State) : List Booking :=
  match findChain payload s with
  | none => []
  | some chain => Webhooks.bookings rt chain s.db payload.transfers

variable {rt moment} {delivery : Delivery} {payload : MoralisPayload} {s s' : State}
  {response : Response}

/-- A booking found its portfolio in the table, and found it connected. -/
theorem connected_of_mem_bookings {chain : Chain} {db : Db} {transfers : List Transfer}
    {b : Booking} (h : b ∈ bookings rt chain db transfers) :
    (db.findPortfolioById b.portfolio.id).map Portfolio.type = some .connected := by
  obtain ⟨transfer, -, hb⟩ := List.mem_flatMap.mp h
  unfold transferBookings at hb
  split at hb
  · obtain ⟨⟨addr, direction⟩, -, hbooking⟩ := List.mem_filterMap.mp hb
    unfold bookingOf at hbooking
    split at hbooking
    · next portfolio hfind =>
        cases hbooking
        unfold findConnectedPortfolio at hfind
        split at hfind
        · cases hfind
        · split at hfind
          · cases hfind
          · have hsome := Except.ok.inj hfind
            have hmem := List.mem_of_find?_eq_some hsome
            have htype := List.find?_some hsome
            simp only [decide_eq_true_eq] at htype
            have hfound : db.findPortfolioById portfolio.id = some portfolio :=
              SerialTable.find?_eq_some_iff.mpr ⟨hmem, rfl⟩
            rw [hfound, Option.map_some, htype.2.2]
    · cases hbooking
  · cases hb

/-- The ways to a 200 for a confirmed payload. -/
theorem answered_cases (hpayload : delivery.payload rt = some payload)
    (hconfirmed : payload.confirmed = some true)
    (h : handleMoralisWebhook rt moment delivery s = (.ok response, s'))
    (hok : response.status = 200) :
    (eventKey rt delivery.rawBody ∈ s.events ∧ s' = s) ∨
    (eventKey rt delivery.rawBody ∉ s.events ∧
      s'.events = eventKey rt delivery.rawBody :: s.events ∧
      ((findChain payload s = none ∧ s'.db = s.db) ∨
        ∃ chain timestamp db', findChain payload s = some chain ∧
          bookAll rt moment timestamp (bookings rt chain s.db payload.transfers) s.db = .ok db' ∧
          s'.db.transactions = db'.transactions)) := by
  unfold handleMoralisWebhook at h
  split at h
  · cases h
    cases hok
  · have hparsed : (rt.jsonParse delivery.rawBody).bind MoralisPayloadSchema.safeParse =
        some payload := hpayload
    rw [hparsed] at h
    dsimp only at h
    unfold processPayload at h
    rw [if_neg (by simp [hconfirmed])] at h
    split at h
    · next hseen =>
        cases h
        exact .inl ⟨hseen, rfl⟩
    · next hnew =>
        right
        refine ⟨hnew, ?_⟩
        split at h
        · next hchain =>
            cases h
            exact ⟨rfl, .inl ⟨hchain, rfl⟩⟩
        · next chain hchain =>
            split at h
            · cases h
            · next timestamp htimestamp =>
                dsimp only at h
                unfold processChain at h
                split at h
                · cases h
                  cases hok
                · next counts booked hprocess =>
                    split at h
                    · cases h
                      cases hok
                    · cases h
                      obtain ⟨-, hbook⟩ :=
                        (@processTransfers_iff rt moment timestamp s.db booked.db chain _
                          ⟨s.db, []⟩ SameRoutes.refl).mp ⟨counts, booked, hprocess, rfl⟩
                      exact ⟨rfl, .inr ⟨chain, timestamp, booked.db, hchain, hbook,
                        transactions_refreshAffected _ _⟩⟩

/-- An answered new delivery adds one row for each first claim among its bookings. -/
theorem rows_of_answered (hpayload : delivery.payload rt = some payload)
    (hconfirmed : payload.confirmed = some true)
    (hnew : eventKey rt delivery.rawBody ∉ s.events)
    (h : handleMoralisWebhook rt moment delivery s = (.ok response, s'))
    (hok : response.status = 200) :
    ∃ timestamp, s'.db.transactions.rows.map Transaction.toTransactionData =
      s.db.transactions.rows.map Transaction.toTransactionData ++
        (firstClaims Booking.hashKey (claimedKeys s.db) (payload.bookings rt s)).map
          fun b => b.data rt moment timestamp s.db := by
  unfold MoralisPayload.bookings
  rcases answered_cases hpayload hconfirmed h hok with ⟨hseen, -⟩ | ⟨-, -, ⟨hchain, hdb⟩ |
    ⟨chain, timestamp, db', hchain, hbook, htransactions⟩⟩
  · exact absurd hseen hnew
  · refine ⟨0, ?_⟩
    rw [hchain, hdb]
    simp
  · refine ⟨timestamp, ?_⟩
    rw [hchain, htransactions]
    exact rows_bookAll SameRoutes.refl (fun b hb => connected_of_mem_bookings hb) hbook

end Answered

end Neonfi.Webhooks

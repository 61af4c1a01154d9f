import Neonfi.Lib.Admission
import Neonfi.Wallet.FeedOutcome
import Neonfi.Webhooks.Moralis

/-!
# The bookings of a payload

The tables before a delivery decide which legs are booked into which portfolios.  The loops of
the handler make these bookings one after the other, and a booking whose hash is taken in its
portfolio writes nothing.
-/

namespace Neonfi.Webhooks

open Lib
open Ledger (Db Portfolio Failure Millis Direction Erc20Meta TransactionData Transaction
  transactionHashDuplicate netDepositSum bind_eq_ok)
open Wallet (FeedBody column claimedKeys rowKey feedUsdValue createTransactionFromWebhook
  createTransactionFromWebhook_ok Wrote)

structure Booking where
  portfolio : Portfolio
  leg : Leg
  direction : Direction

/-! ## One booking -/

theorem require_text_error {v : JsonValue} {e : Failure}
    (h : Ledger.require v.text? invalidArgument = .error e) : e = invalidArgument := by
  unfold Ledger.require at h
  split at h
  · cases h
  · cases h
    rfl

theorem Leg.transactionHash_error {leg : Leg} {e : Failure} (h : leg.transactionHash = .error e) :
    e = invalidArgument := by
  unfold Leg.transactionHash at h
  split at h
  · cases h
  · next v _ =>
      cases hread : Ledger.require v.text? invalidArgument with
      | error e' =>
          rw [hread] at h
          cases h
          exact require_text_error hread
      | ok hash =>
          rw [hread] at h
          cases h

theorem Leg.columnText_error {v : Option JsonValue} {fallback : String} {e : Failure}
    (h : Leg.columnText v fallback = .error e) : e = invalidArgument := by
  unfold Leg.columnText at h
  split at h
  · cases h
  · exact require_text_error h

theorem Leg.metadata_error {leg : Leg} {e : Failure} (h : leg.metadata = .error e) :
    e = invalidArgument := by
  unfold Leg.metadata at h
  cases hfields : leg.erc20 with
  | none =>
      rw [hfields] at h
      cases h
  | some fields =>
      rw [hfields] at h
      dsimp only at h
      cases hcontract : Leg.columnText fields.contract "" with
      | error e' =>
          rw [hcontract] at h
          cases h
          exact columnText_error hcontract
      | ok contract =>
          cases hname : Leg.columnText fields.tokenName fields.tokenSymbol with
          | error e' =>
              rw [hcontract, hname] at h
              cases h
              exact columnText_error hname
          | ok tokenName =>
              rw [hcontract, hname] at h
              cases h

namespace Booking

variable (rt : Runtime) (moment : Moment) (timestamp : Millis) (b : Booking)

def hash : Option String := b.leg.transactionHash.toOption.join

def hashKey : Option (ℕ × String) := b.hash.map fun hash => (b.portfolio.id, hash)

def info : Option Erc20Meta := b.leg.metadata.toOption.join

def body : FeedBody := b.leg.body rt timestamp b.direction b.hash b.info

def data (db : Db) : TransactionData :=
  (b.body rt timestamp).row b.portfolio.id timestamp
    (feedUsdValue moment.env (b.body rt timestamp) none db)

def ingest (db : Db) : Except Failure Db :=
  b.leg.ingest rt moment timestamp b.direction b.portfolio db

/-- The hash is a text, the token is known, the date is accepted and the texts fit. -/
def wellFormed (db : Db) : Bool :=
  b.leg.transactionHash.isOk && (b.body rt timestamp).wellFormed db

/-- The metadata are texts, and every column takes its value. -/
def columnsAccept (db : Db) : Bool :=
  b.leg.metadata.isOk && Wallet.columnsAccept (b.data rt moment timestamp db) db

variable {rt moment timestamp b}

theorem timestamp_eq {t : Millis} (h : (b.body rt timestamp).timestamp = some t) :
    t = timestamp := by
  have hfilter : (some timestamp).filter rt.acceptsDate = some t := h
  have hsome := (Option.filter_eq_some_iff.mp hfilter).1
  exact (Option.some.inj hsome).symm

/-- Up to refused metadata, a booking is a transfer of the feed. -/
theorem create_eq (h : b.leg.transactionHash.isOk) (db : Db) :
    b.leg.create rt moment timestamp b.direction b.portfolio db =
      (createTransactionFromWebhook moment.env b.portfolio (b.body rt timestamp) none db).bind
        fun db' => b.leg.metadata.map fun _ => db' := by
  unfold Leg.create body hash info
  cases hhash : b.leg.transactionHash with
  | error e =>
      rw [hhash] at h
      cases h
  | ok hash =>
      cases hmeta : b.leg.metadata with
      | error e => rfl
      | ok info =>
          show createTransactionFromWebhook moment.env b.portfolio
            (b.leg.body rt timestamp b.direction hash info) none db = Except.bind _ _
          simp only [Except.toOption, Option.join_some]
          cases createTransactionFromWebhook moment.env b.portfolio
            (b.leg.body rt timestamp b.direction hash info) none db <;> rfl

section Outcome

variable {db : Db}
  (hconnected : (db.findPortfolioById b.portfolio.id).map Portfolio.type = some .connected)
include hconnected

theorem ingest_malformed (h : b.wellFormed rt timestamp db = false) :
    ∃ e, b.ingest rt moment timestamp db = .error e := by
  unfold ingest Leg.ingest
  by_cases hhash : b.leg.transactionHash.isOk
  · have hbody : (b.body rt timestamp).wellFormed db = false := by
      unfold wellFormed at h
      rw [hhash, Bool.true_and] at h
      exact h
    obtain ⟨e, hcreate, hne⟩ :=
      @Wallet.create_malformed moment.env b.portfolio _ none db hconnected hbody
    refine ⟨e, ?_⟩
    rw [create_eq hhash, hcreate]
    exact if_neg hne
  · refine ⟨invalidArgument, ?_⟩
    unfold Leg.create
    cases hread : b.leg.transactionHash with
    | ok hash => exact absurd (by rw [hread]; rfl) hhash
    | error e =>
        rw [Leg.transactionHash_error hread]
        exact if_neg (by decide)

theorem ingest_taken {k : ℕ × String} (h : b.wellFormed rt timestamp db)
    (hkey : b.hashKey = some k) (htaken : k ∈ claimedKeys db) :
    b.ingest rt moment timestamp db = .ok db := by
  unfold wellFormed at h
  rw [Bool.and_eq_true] at h
  obtain ⟨token, t, htoken, htimestamp, htexts⟩ := FeedBody.of_wellFormed h.2
  have hcreate := @Wallet.create_taken moment.env b.portfolio _ none db token t _ hconnected htoken
    htimestamp rfl k (htexts _ _) hkey htaken
  unfold ingest Leg.ingest
  rw [create_eq h.1, hcreate]
  exact if_pos rfl

/-- A booking that goes through was a duplicate or wrote its row. -/
theorem ingest_ok {db' : Db} (hok : b.ingest rt moment timestamp db = .ok db') :
    b.wellFormed rt timestamp db ∧
      ((∃ k, b.hashKey = some k ∧ k ∈ claimedKeys db) ∧ db' = db ∨
        (∀ k, b.hashKey = some k → k ∉ claimedKeys db) ∧
          Wrote (b.data rt moment timestamp db) db db') := by
  cases hform : b.wellFormed rt timestamp db with
  | false =>
      obtain ⟨e, herror⟩ := @ingest_malformed rt moment timestamp b db hconnected hform
      rw [herror] at hok
      cases hok
  | true =>
      refine ⟨rfl, ?_⟩
      by_cases htaken : ∃ k, b.hashKey = some k ∧ k ∈ claimedKeys db
      · obtain ⟨k, hkey, hclaimed⟩ := htaken
        rw [ingest_taken hconnected hform hkey hclaimed] at hok
        cases hok
        exact .inl ⟨⟨k, hkey, hclaimed⟩, rfl⟩
      · have hfree : ∀ k, b.hashKey = some k → k ∉ claimedKeys db :=
          fun k hkey hclaimed => htaken ⟨k, hkey, hclaimed⟩
        refine .inr ⟨hfree, ?_⟩
        unfold wellFormed at hform
        rw [Bool.and_eq_true] at hform
        obtain ⟨token, t, htoken, htimestamp, htexts⟩ := FeedBody.of_wellFormed hform.2
        have ht : t = timestamp := timestamp_eq htimestamp
        subst ht
        have hne := @Wallet.create_free_ne moment.env b.portfolio _ none db token t _ hconnected
          htoken htimestamp rfl (htexts _ _) hfree
        unfold ingest Leg.ingest at hok
        rw [create_eq hform.1] at hok
        cases hcreate : createTransactionFromWebhook moment.env b.portfolio (b.body rt t) none db with
        | error e =>
            rw [hcreate] at hok hne
            have hother : e ≠ transactionHashDuplicate := fun heq => hne (congrArg _ heq)
            have hok' : (if e = transactionHashDuplicate then .ok db else .error e) =
              Except.ok (ε := Failure) db' := hok
            rw [if_neg hother] at hok'
            cases hok'
        | ok created =>
            rw [hcreate] at hok
            cases hmeta : b.leg.metadata with
            | error e =>
                rw [hmeta, Leg.metadata_error hmeta] at hok
                cases hok
            | ok info =>
                rw [hmeta] at hok
                cases hok
                exact Wallet.create_free_ok hconnected htoken htimestamp rfl (htexts _ _) hfree
                  hcreate

/-- Under a free hash, a booking goes through exactly when every column takes its value. -/
theorem ingest_free_isOk (hfits : db.fits column) (h : b.wellFormed rt timestamp db)
    (hfree : ∀ k, b.hashKey = some k → k ∉ claimedKeys db) :
    (b.ingest rt moment timestamp db).isOk = b.columnsAccept rt moment timestamp db := by
  unfold wellFormed at h
  rw [Bool.and_eq_true] at h
  obtain ⟨token, t, htoken, htimestamp, htexts⟩ := FeedBody.of_wellFormed h.2
  have ht : t = timestamp := timestamp_eq htimestamp
  subst ht
  have hne := @Wallet.create_free_ne moment.env b.portfolio _ none db token t _ hconnected htoken
    htimestamp rfl (htexts _ _) hfree
  have hisOk := @Wallet.create_free_isOk moment.env b.portfolio _ none db token t _ hconnected
    htoken htimestamp rfl hfits (htexts _ _) hfree
  unfold ingest Leg.ingest columnsAccept data
  rw [create_eq h.1, ← hisOk]
  cases hcreate : createTransactionFromWebhook moment.env b.portfolio (b.body rt t) none db with
  | error e =>
      rw [hcreate] at hne
      have hother : e ≠ transactionHashDuplicate := fun heq => hne (congrArg _ heq)
      rw [Except.isOk, Except.isOk]
      simp [Except.bind, Except.toBool, hother]
  | ok created =>
      cases hmeta : b.leg.metadata with
      | error e =>
          rw [Leg.metadata_error hmeta]
          rfl
      | ok info => rfl

end Outcome

end Booking

/-! ## What booking does not touch -/

/-- A portfolio but for its total. -/
def route (p : Portfolio) : Portfolio := { p with netDeposit := 0 }

/-- The catalog and the routing of two databases agree. -/
structure SameRoutes (db db' : Db) : Prop where
  tokens : db'.tokens = db.tokens
  portfolios : db'.portfolios.rows.map route = db.portfolios.rows.map route

namespace SameRoutes

variable {rt : Runtime} {moment : Moment} {timestamp : Millis} {db db' db'' : Db}

theorem refl : SameRoutes db db := ⟨rfl, rfl⟩

theorem trans (h : SameRoutes db db') (h' : SameRoutes db' db'') : SameRoutes db db'' :=
  ⟨h'.tokens.trans h.tokens, h'.portfolios.trans h.portfolios⟩

theorem of_setNetDeposit {p : ℕ} {netDeposit : ℚ} (htokens : db'.tokens = db.tokens)
    (hportfolios : db'.portfolios = (db.setNetDeposit p netDeposit).portfolios) :
    SameRoutes db db' := by
  refine ⟨htokens, ?_⟩
  rw [hportfolios]
  show (db.portfolios.rows.map _).map route = _
  rw [List.map_map]
  apply List.map_congr_left
  intro q _
  rw [Function.comp_apply]
  split <;> rfl

/-- A lookup finds the same portfolio, up to its total. -/
theorem find? (h : SameRoutes db db') (p : Portfolio → Bool) (hp : ∀ q, p (route q) = p q) :
    (db'.portfolios.rows.find? p).map route = (db.portfolios.rows.find? p).map route := by
  have hcomp : p ∘ route = p := funext hp
  have hmap : ∀ rows : List Portfolio, (rows.map route).find? p = (rows.find? p).map route := by
    intro rows
    rw [List.find?_map, hcomp]
  rw [← hmap, ← hmap, h.portfolios]

theorem findConnectedPortfolio (h : SameRoutes db db') (addr : String) (chainId : ℕ) :
    (findConnectedPortfolio rt addr chainId db').map (Option.map route) =
      (findConnectedPortfolio rt addr chainId db).map (Option.map route) := by
  unfold Webhooks.findConnectedPortfolio
  split
  · rfl
  · split
    · rfl
    · exact congrArg Except.ok (h.find? _ fun _ => rfl)

/-- A lookup fails, finds nothing or finds a portfolio of one number in both. -/
theorem lookup_cases (h : SameRoutes db db') (addr : String) (chainId : ℕ) :
    (∃ e, Webhooks.findConnectedPortfolio rt addr chainId db = .error e ∧
      Webhooks.findConnectedPortfolio rt addr chainId db' = .error e) ∨
    (Webhooks.findConnectedPortfolio rt addr chainId db = .ok none ∧
      Webhooks.findConnectedPortfolio rt addr chainId db' = .ok none) ∨
    ∃ p p', p'.id = p.id ∧ Webhooks.findConnectedPortfolio rt addr chainId db = .ok (some p) ∧
      Webhooks.findConnectedPortfolio rt addr chainId db' = .ok (some p') := by
  have hlookup := @findConnectedPortfolio rt db db' h addr chainId
  generalize Webhooks.findConnectedPortfolio rt addr chainId db = r at hlookup ⊢
  generalize Webhooks.findConnectedPortfolio rt addr chainId db' = r' at hlookup ⊢
  match r, r' with
  | .error e, .error e' =>
      cases hlookup
      exact .inl ⟨e, rfl, rfl⟩
  | .ok none, .ok none => exact .inr (.inl ⟨rfl, rfl⟩)
  | .ok (some p), .ok (some p') =>
      have hroute : route p' = route p := by simpa [Except.map] using hlookup
      have hid : (route p').id = (route p).id := congrArg Portfolio.id hroute
      exact .inr (.inr ⟨p, p', hid, rfl, rfl⟩)
  | .error e, .ok found => cases hlookup
  | .ok found, .error e => cases hlookup
  | .ok none, .ok (some p') => simp [Except.map] at hlookup
  | .ok (some p), .ok none => simp [Except.map] at hlookup

theorem type (h : SameRoutes db db') (p : ℕ) :
    (db'.findPortfolioById p).map Portfolio.type = (db.findPortfolioById p).map Portfolio.type := by
  have hfind := h.find? (fun q => q.id = p) fun _ => rfl
  have htype := congrArg (Option.map Portfolio.type) hfind
  rw [Option.map_map, Option.map_map] at htype
  exact htype

theorem createIfNeeded {needed : Bool} {p t : ℕ}
    (h : Ledger.createIfNeeded needed p t db = .ok db') : SameRoutes db db' := by
  rcases Ledger.createIfNeeded_ok h with rfl | hcreate
  · exact refl
  · obtain ⟨assets, rfl, -⟩ := Ledger.createAsset_ok hcreate
    exact ⟨rfl, rfl⟩

theorem recalcAssetBalance {p t : ℕ} :
    SameRoutes db (Ledger.recalcAssetBalance column p t db) := by
  unfold Ledger.recalcAssetBalance
  split
  · exact refl
  · split
    · exact refl
    · exact ⟨rfl, rfl⟩

theorem createTransactionFromWebhook {portfolio : Portfolio} {body : FeedBody}
    (h : createTransactionFromWebhook moment.env portfolio body none db = .ok db') :
    SameRoutes db db' := by
  obtain ⟨token, t, db₁, db₂, -, -, hcreate, hinsert, rfl, -⟩ :=
    createTransactionFromWebhook_ok h
  obtain ⟨transactions, rfl, -⟩ :=
    Ledger.createTransactionRow_ok (Wallet.insertFeedRow_ok hinsert).2.1
  have hopened : SameRoutes db { db₁ with transactions } :=
    ⟨(createIfNeeded hcreate).tokens, (createIfNeeded hcreate).portfolios⟩
  exact (hopened.trans recalcAssetBalance).trans (of_setNetDeposit rfl rfl)

theorem ingest {leg : Leg} {direction : Direction} {portfolio : Portfolio}
    (h : leg.ingest rt moment timestamp direction portfolio db = .ok db') : SameRoutes db db' := by
  unfold Leg.ingest at h
  cases hcreate : leg.create rt moment timestamp direction portfolio db with
  | error e =>
      rw [hcreate] at h
      dsimp only at h
      split at h
      · cases h
        exact refl
      · cases h
  | ok created =>
      rw [hcreate] at h
      cases h
      unfold Leg.create at hcreate
      obtain ⟨hash, -, hcreate⟩ := bind_eq_ok hcreate
      split at hcreate
      · exact createTransactionFromWebhook hcreate
      · obtain ⟨_, -, herror⟩ := bind_eq_ok hcreate
        cases herror

end SameRoutes

/-- Only the number of the portfolio matters to a booking. -/
theorem ingest_congr {rt : Runtime} {moment : Moment} {timestamp : Millis} {leg : Leg}
    {direction : Direction} {p q : Portfolio} (h : p.id = q.id) (db : Db) :
    leg.ingest rt moment timestamp direction p db =
      leg.ingest rt moment timestamp direction q db := by
  unfold Leg.ingest Leg.create createTransactionFromWebhook
  rw [h]

theorem ok_of_map {α β : Type} {x : Except Failure α} {f : α → β} {y : β}
    (h : x.map f = .ok y) : ∃ a, x = .ok a := by
  cases x with
  | error e => cases h
  | ok a => exact ⟨a, rfl⟩

/-! ## The loops as one list of bookings -/

section Bookings

variable (rt : Runtime) (moment : Moment) (timestamp : Millis)

def bookingOf (chainId : ℕ) (db : Db) (leg : Leg) (candidate : String × Direction) :
    Option Booking :=
  match findConnectedPortfolio rt candidate.1 chainId db with
  | .ok (some portfolio) => some ⟨portfolio, leg, candidate.2⟩
  | _ => none

def legBookings (chainId : ℕ) (db : Db) (leg : Leg) : List Booking :=
  leg.candidates.filterMap (bookingOf rt chainId db leg)

def readTransfer (chain : Chain) (db : Db) : Transfer → Except Failure (Option Leg)
  | .native tx => readNativeTx rt chain.moralisId tx
  | .erc20 transfer => readErc20Transfer rt transfer db

def transferBookings (chain : Chain) (db : Db) (transfer : Transfer) : List Booking :=
  match readTransfer rt chain db transfer with
  | .ok (some leg) => legBookings rt chain.id db leg
  | _ => []

/-- The bookings a payload asks for, in order. -/
def bookings (chain : Chain) (db : Db) (transfers : List Transfer) : List Booking :=
  transfers.flatMap (transferBookings rt chain db)

/-- The transfer reads, and so do the lookups of its parties. -/
def reads (chain : Chain) (db : Db) (transfer : Transfer) : Bool :=
  match readTransfer rt chain db transfer with
  | .error _ => false
  | .ok none => true
  | .ok (some leg) =>
      leg.candidates.all fun candidate =>
        (findConnectedPortfolio rt candidate.1 chain.id db).isOk

def bookAll (bs : List Booking) (db : Db) : Except Failure Db :=
  bs.foldlM (fun db b => b.ingest rt moment timestamp db) db

variable {rt moment timestamp} {db₀ db' : Db}

theorem sameRoutes_bookAll {bs : List Booking} {db : Db}
    (h : bookAll rt moment timestamp bs db = .ok db') : SameRoutes db db' := by
  induction bs generalizing db with
  | nil =>
      cases h
      exact SameRoutes.refl
  | cons b bs ih =>
      unfold bookAll at h
      rw [List.foldlM_cons] at h
      obtain ⟨db₁, hfirst, hrest⟩ := bind_eq_ok h
      exact (SameRoutes.ingest hfirst).trans (ih hrest)

theorem bookCandidates_iff {leg : Leg} {chainId : ℕ} {cs : List (String × Direction)}
    {s : Booked} (h : SameRoutes db₀ s.db) :
    (∃ n s', bookCandidates rt moment leg chainId timestamp cs s = (.ok n, s') ∧ s'.db = db') ↔
      (cs.all fun c => (findConnectedPortfolio rt c.1 chainId db₀).isOk) ∧
        bookAll rt moment timestamp (cs.filterMap (bookingOf rt chainId db₀ leg)) s.db =
          .ok db' := by
  induction cs generalizing s with
  | nil =>
      constructor
      · rintro ⟨n, s', heq, rfl⟩
        cases heq
        exact ⟨rfl, rfl⟩
      · rintro ⟨-, heq⟩
        cases heq
        exact ⟨0, s, rfl, rfl⟩
  | cons c cs ih =>
      obtain ⟨addr, direction⟩ := c
      rw [bookCandidates, List.all_cons, List.filterMap_cons, bookingOf]
      rcases h.lookup_cases addr chainId with ⟨e, h₀, h₁⟩ | ⟨h₀, h₁⟩ | ⟨p, p', hid, h₀, h₁⟩
      · rw [h₀, h₁]
        simp [Except.isOk, Except.toBool]
      · rw [h₀, h₁]
        simpa [Except.isOk, Except.toBool] using ih h
      · rw [h₀, h₁]
        dsimp only
        rw [ingest_congr hid]
        unfold bookAll
        rw [List.foldlM_cons]
        unfold Booking.ingest
        dsimp only
        cases hingest : leg.ingest rt moment timestamp direction p s.db with
        | error e =>
            constructor
            · rintro ⟨n, s', heq, -⟩
              cases heq
            · rintro ⟨-, heq⟩
              cases heq
        | ok db₁ =>
            have hstep := @ih ⟨db₁, setAffected p' s.affected⟩ (h.trans (SameRoutes.ingest hingest))
            dsimp only at hstep ⊢
            rw [Bool.and_eq_true, and_assoc]
            refine Iff.trans ?_ (and_iff_right rfl).symm
            refine Iff.trans ?_ hstep
            constructor
            · rintro ⟨n, s', heq, hdb⟩
              obtain ⟨hcount, rfl⟩ := Prod.mk.inj heq
              obtain ⟨count, hok⟩ := ok_of_map hcount
              exact ⟨count, _, Prod.ext hok rfl, hdb⟩
            · rintro ⟨n, s', heq, hdb⟩
              rw [heq]
              exact ⟨n + 1, s', rfl, hdb⟩

theorem readTransfer_congr {chain : Chain} {db db' : Db} (h : db'.tokens = db.tokens)
    (transfer : Transfer) :
    readTransfer rt chain db' transfer = readTransfer rt chain db transfer := by
  cases transfer with
  | native tx => rfl
  | erc20 transfer =>
      unfold readTransfer readErc20Transfer findTransferToken Wallet.findTokenBySymbol
      rw [h]

/-- The two kinds of transfer are booked alike, and counted each in its way. -/
theorem processTransfer_eq (chain : Chain) (transfer : Transfer) (s : Booked) :
    ∃ counted : ℕ → Counts, processTransfer rt moment chain timestamp transfer s =
      match readTransfer rt chain s.db transfer with
      | .error e => (.error e, s)
      | .ok none => (.ok ⟨0, 1⟩, s)
      | .ok (some leg) =>
          let (count, s) := bookCandidates rt moment leg chain.id timestamp leg.candidates s
          (count.map counted, s) := by
  cases transfer with
  | native tx => exact ⟨fun count => ⟨count, 0⟩, rfl⟩
  | erc20 transfer => exact ⟨fun count => ⟨min count 1, 0⟩, rfl⟩

theorem processTransfer_iff {chain : Chain} {transfer : Transfer} {s : Booked}
    (h : SameRoutes db₀ s.db) :
    (∃ counts s', processTransfer rt moment chain timestamp transfer s = (.ok counts, s') ∧
        s'.db = db') ↔
      reads rt chain db₀ transfer ∧
        bookAll rt moment timestamp (transferBookings rt chain db₀ transfer) s.db = .ok db' := by
  obtain ⟨counted, heq⟩ := @processTransfer_eq rt moment timestamp chain transfer s
  rw [heq, readTransfer_congr h.tokens]
  unfold reads transferBookings
  cases hread : readTransfer rt chain db₀ transfer with
  | error e =>
      constructor
      · rintro ⟨counts, s', hok, -⟩
        cases hok
      · rintro ⟨hfalse, -⟩
        cases hfalse
  | ok leg? =>
      cases leg? with
      | none =>
          constructor
          · rintro ⟨counts, s', hok, rfl⟩
            cases hok
            exact ⟨rfl, rfl⟩
          · rintro ⟨-, hok⟩
            cases hok
            exact ⟨_, _, rfl, rfl⟩
      | some leg =>
          refine Iff.trans ?_ (bookCandidates_iff h)
          constructor
          · rintro ⟨counts, s', hok, hdb⟩
            obtain ⟨hcount, rfl⟩ := Prod.mk.inj hok
            obtain ⟨count, hcount⟩ := ok_of_map hcount
            exact ⟨count, _, Prod.ext hcount rfl, hdb⟩
          · rintro ⟨n, s', hok, hdb⟩
            dsimp only
            rw [hok]
            exact ⟨counted n, s', rfl, hdb⟩

/-- The loops succeed exactly when every transfer reads and every booking is made. -/
theorem processTransfers_iff {chain : Chain} {transfers : List Transfer} {s : Booked}
    (h : SameRoutes db₀ s.db) :
    (∃ counts s', processTransfers rt moment chain timestamp transfers s = (.ok counts, s') ∧
        s'.db = db') ↔
      transfers.all (reads rt chain db₀) ∧
        bookAll rt moment timestamp (bookings rt chain db₀ transfers) s.db = .ok db' := by
  induction transfers generalizing s with
  | nil =>
      constructor
      · rintro ⟨counts, s', hok, rfl⟩
        cases hok
        exact ⟨rfl, rfl⟩
      · rintro ⟨-, hok⟩
        cases hok
        exact ⟨_, _, rfl, rfl⟩
  | cons transfer transfers ih =>
      have happend : bookAll rt moment timestamp
          (bookings rt chain db₀ (transfer :: transfers)) s.db =
          (bookAll rt moment timestamp (transferBookings rt chain db₀ transfer) s.db).bind
            (bookAll rt moment timestamp (bookings rt chain db₀ transfers)) := by
        unfold bookAll bookings
        rw [List.flatMap_cons, List.foldlM_append]
        rfl
      rw [happend, List.all_cons, processTransfers]
      constructor
      · rintro ⟨counts, s', hok, hdb⟩
        split at hok
        · cases hok
        · next counts₁ s₁ hfirst =>
            obtain ⟨hcounts, rfl⟩ := Prod.mk.inj hok
            obtain ⟨rest, hrest⟩ := ok_of_map hcounts
            obtain ⟨hreads, hbook⟩ :=
              (@processTransfer_iff rt moment timestamp db₀ s₁.db chain transfer s h).mp
                ⟨counts₁, s₁, hfirst, rfl⟩
            have hroutes : SameRoutes db₀ s₁.db := h.trans (sameRoutes_bookAll hbook)
            obtain ⟨hreads', hbook'⟩ := (ih hroutes).mp ⟨rest, _, Prod.ext hrest rfl, hdb⟩
            rw [hreads, hreads', hbook]
            exact ⟨rfl, hbook'⟩
      · rintro ⟨hreads, hbook⟩
        rw [Bool.and_eq_true] at hreads
        cases hfirst : bookAll rt moment timestamp (transferBookings rt chain db₀ transfer) s.db with
        | error e =>
            rw [hfirst] at hbook
            cases hbook
        | ok db₁ =>
            rw [hfirst] at hbook
            obtain ⟨counts, s₁, hstep, rfl⟩ :=
              (processTransfer_iff h).mpr ⟨hreads.1, hfirst⟩
            have hroutes : SameRoutes db₀ s₁.db := h.trans (sameRoutes_bookAll hfirst)
            obtain ⟨rest, s₂, hrest, hdb⟩ := (ih hroutes).mpr ⟨hreads.2, hbook⟩
            rw [hstep]
            dsimp only
            rw [hrest]
            exact ⟨counts.add rest, s₂, rfl, hdb⟩

/-! ## What the bookings write -/

variable (rt moment timestamp) in
/-- Every booking is well formed, and its hash is taken or its columns accept it. -/
def acceptsAll (db : Db) : List (ℕ × String) → List Booking → Bool
  | _, [] => true
  | claimed, b :: bs =>
      b.wellFormed rt timestamp db &&
        (b.hashKey.any (· ∈ claimed) || b.columnsAccept rt moment timestamp db) &&
        acceptsAll db (b.hashKey.toList ++ claimed) bs

theorem acceptsAll_congr {db : Db} {bs : List Booking} {claimed claimed' : List (ℕ × String)}
    (h : ∀ k, k ∈ claimed ↔ k ∈ claimed') :
    acceptsAll rt moment timestamp db claimed bs = acceptsAll rt moment timestamp db claimed' bs := by
  induction bs generalizing claimed claimed' with
  | nil => rfl
  | cons b bs ih =>
      have htail : ∀ k, k ∈ b.hashKey.toList ++ claimed ↔ k ∈ b.hashKey.toList ++ claimed' := by
        intro k
        rw [List.mem_append, List.mem_append, h k]
      have htaken : (b.hashKey.any fun k => decide (k ∈ claimed)) =
          b.hashKey.any fun k => decide (k ∈ claimed') := by
        congr 1
        funext k
        simp only [h k]
      rw [acceptsAll, acceptsAll, ih htail, htaken]

theorem SameRoutes.data_eq {db : Db} (h : SameRoutes db db') (b : Booking) :
    b.data rt moment timestamp db' = b.data rt moment timestamp db := by
  unfold Booking.data feedUsdValue Ledger.computeUsdValue Ledger.livePrice Db.findTokenBySymbol
  rw [h.tokens]

/-- What the bookings of a delivery leave as it was. -/
structure Kept (db db' : Db) : Prop extends SameRoutes db db' where
  sums : ∀ q, netDepositSum db' q = netDepositSum db q
  fits : db'.fits column

namespace Kept

variable {db : Db}

theorem wellFormed_eq (h : Kept db db') (b : Booking) :
    b.wellFormed rt timestamp db' = b.wellFormed rt timestamp db := by
  unfold Booking.wellFormed FeedBody.wellFormed Db.findTokenBySymbol
  rw [h.tokens]

theorem columnsAccept_eq (h : Kept db db') (b : Booking) :
    b.columnsAccept rt moment timestamp db' = b.columnsAccept rt moment timestamp db := by
  unfold Booking.columnsAccept Wallet.columnsAccept
  rw [h.toSameRoutes.data_eq, h.sums]

theorem wrote {db'' : Db} {data : TransactionData} (h : Kept db db') (hw : Wrote data db' db'') :
    Kept db db'' := by
  obtain ⟨netDeposit, hportfolios⟩ := hw.portfolios
  have hroutes := h.toSameRoutes.trans (SameRoutes.of_setNetDeposit hw.tokens hportfolios)
  exact ⟨hroutes, fun q => (hw.sums q).trans (h.sums q), hw.fits⟩

end Kept

theorem claimedKeys_of_wrote {db : Db} {data : TransactionData} (h : Wrote data db db') :
    claimedKeys db' = claimedKeys db ++ (rowKey data).toList := by
  unfold claimedKeys
  rw [h.rows, List.filterMap_append]
  congr 1

theorem bookAll_cons (b : Booking) (bs : List Booking) (db : Db) :
    bookAll rt moment timestamp (b :: bs) db =
      (b.ingest rt moment timestamp db).bind (bookAll rt moment timestamp bs) := by
  unfold bookAll
  rw [List.foldlM_cons]
  rfl

/-- The bookings add one row each, except where the hash is taken. -/
theorem rows_bookAll {db : Db} {bs : List Booking} (h : SameRoutes db₀ db)
    (hconnected : ∀ b ∈ bs,
      (db₀.findPortfolioById b.portfolio.id).map Portfolio.type = some .connected)
    (hok : bookAll rt moment timestamp bs db = .ok db') :
    db'.transactions.rows.map Transaction.toTransactionData =
      db.transactions.rows.map Transaction.toTransactionData ++
        (firstClaims Booking.hashKey (claimedKeys db) bs).map
          fun b => b.data rt moment timestamp db₀ := by
  induction bs generalizing db with
  | nil =>
      cases hok
      simp
  | cons b bs ih =>
      have hfound := (h.type b.portfolio.id).trans (hconnected b List.mem_cons_self)
      rw [bookAll_cons] at hok
      obtain ⟨db₁, hfirst, hrest⟩ := bind_eq_ok hok
      have htail := ih (h.trans (SameRoutes.ingest hfirst))
        (fun b' hb' => hconnected b' (List.mem_cons_of_mem b hb')) hrest
      obtain ⟨-, ⟨⟨k, hkey, hclaimed⟩, rfl⟩ | ⟨hfree, hwrote⟩⟩ := Booking.ingest_ok hfound hfirst
      · rw [htail, firstClaims_cons_taken hkey hclaimed]
      · have hkeys : ∀ j, j ∈ b.hashKey.toList ++ claimedKeys db ↔ j ∈ claimedKeys db₁ := by
          intro j
          rw [claimedKeys_of_wrote hwrote, List.mem_append, List.mem_append]
          exact or_comm
        rw [htail, firstClaims_cons_new hfree, firstClaims_congr hkeys, hwrote.rows,
          h.data_eq, List.map_append, List.append_assoc]
        rfl

/-- The bookings go through exactly when each of them is accepted in its turn. -/
theorem isOk_bookAll {db : Db} {bs : List Booking} (h : Kept db₀ db)
    (hconnected : ∀ b ∈ bs,
      (db₀.findPortfolioById b.portfolio.id).map Portfolio.type = some .connected) :
    (bookAll rt moment timestamp bs db).isOk =
      acceptsAll rt moment timestamp db₀ (claimedKeys db) bs := by
  induction bs generalizing db with
  | nil => rfl
  | cons b bs ih =>
      have hfound := (h.type b.portfolio.id).trans (hconnected b List.mem_cons_self)
      have hrest : ∀ b ∈ bs,
          (db₀.findPortfolioById b.portfolio.id).map Portfolio.type = some .connected :=
        fun b' hb' => hconnected b' (List.mem_cons_of_mem b hb')
      rw [bookAll_cons, acceptsAll, ← h.wellFormed_eq, ← h.columnsAccept_eq]
      cases hform : b.wellFormed rt timestamp db with
      | false =>
          obtain ⟨e, hingest⟩ := @Booking.ingest_malformed rt moment timestamp b db hfound hform
          rw [hingest]
          rfl
      | true =>
          rw [Bool.true_and]
          by_cases htaken : ∃ k, b.hashKey = some k ∧ k ∈ claimedKeys db
          · obtain ⟨k, hkey, hclaimed⟩ := htaken
            have hsame : ∀ j, j ∈ b.hashKey.toList ++ claimedKeys db ↔ j ∈ claimedKeys db := by
              intro j
              rw [hkey, Option.toList_some, List.singleton_append, List.mem_cons]
              exact or_iff_right_of_imp fun heq => heq ▸ hclaimed
            rw [Booking.ingest_taken hfound hform hkey hclaimed, acceptsAll_congr hsame,
              ← ih h hrest]
            simp [Except.bind, hkey, hclaimed]
          · have hfree : ∀ k, b.hashKey = some k → k ∉ claimedKeys db :=
              fun k hkey hclaimed => htaken ⟨k, hkey, hclaimed⟩
            have hnone : (b.hashKey.any fun k => decide (k ∈ claimedKeys db)) = false := by
              cases hkey : b.hashKey with
              | none => rfl
              | some k => simpa using hfree k hkey
            have hisOk := @Booking.ingest_free_isOk rt moment timestamp b db hfound h.fits hform
              hfree
            rw [hnone, Bool.false_or, ← hisOk]
            cases hingest : b.ingest rt moment timestamp db with
            | error e => rfl
            | ok db₁ =>
                obtain ⟨-, ⟨⟨k, hkey, hclaimed⟩, -⟩ | ⟨-, hwrote⟩⟩ :=
                  Booking.ingest_ok hfound hingest
                · exact absurd hclaimed (hfree k hkey)
                · have hkeys : ∀ j, j ∈ b.hashKey.toList ++ claimedKeys db ↔
                      j ∈ claimedKeys db₁ := by
                    intro j
                    rw [claimedKeys_of_wrote hwrote, List.mem_append, List.mem_append]
                    exact or_comm
                  rw [acceptsAll_congr hkeys, ← ih (h.wrote hwrote) hrest]
                  rfl

end Bookings

end Neonfi.Webhooks

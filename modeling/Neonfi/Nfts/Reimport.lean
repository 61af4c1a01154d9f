import Neonfi.Lib.Repeat
import Neonfi.Nfts.Rewrite
import Neonfi.Wallet.Reimport

/-!
# Importing a page again

The transactions a page books are booked once: a transfer that was booked under its hash, or
refused, leaves the ledger alone the next time.  A transfer that was booked without a hash is
booked again.
-/

namespace Neonfi.Nfts

open Lib
open Ledger (Db Portfolio Failure TransactionData Env require ensure bind_eq_ok commit_ok)
open Wallet (Text TokenResolveInput column storable fitsVarChar bookable rowKey claimedKeys
  detailTextsFit rowDecimals_of_fits insertFeedRow insertFeedRow_ok insertFeedRow_of_free
  insertTransaction_of_taken invalidDate Healthy Progress Booked Agreed FungibleSettled Unkeyed)
open Webhooks (fitsWidth)

/-! ## The row of a collectible's transfer -/

def HistoryTransfer.data (text : Text) (p : ℕ) (tr : HistoryTransfer) : Option TransactionData :=
  tr.timestamp.map fun timestamp =>
    { portfolioId := p
      direction := tr.direction
      fromAddr := tr.fromAddr
      toAddr := tr.toAddr
      gasFee := tr.gasFee.map Wallet.toDecimalString
      transactionHash := tr.transactionHash
      timestamp := timestamp
      detail := .nft
        { tokenContractAddress := tr.contract text
          nftTokenId := tr.tokenId
          nftName := tr.name.filter (· ≠ "")
          collectionName := tr.collectionName.filter (· ≠ "") } }

/-- The texts the holding row takes from the transfer fit. -/
def HistoryTransfer.rowFits (tr : HistoryTransfer) : Bool := !tr.incoming || tr.texts.fit

/-- The row, in a transaction of its own. -/
def bookRow (data : Option TransactionData) (db : Db) : Except Failure Db := do
  let data ← require data invalidDate
  let db ← insertFeedRow data db
  db.commit column

section Row

variable {text : Text} {portfolio : Portfolio} {tr : HistoryTransfer} {db db' : Db}

theorem importNftTransfer_eq (hcontract : tr.contract text ≠ "") (hid : tr.tokenId ≠ "") :
    Wallet.importNftTransfer text portfolio (fun _ => true) tr.toWalletTransfer db =
      match bookRow (tr.data text portfolio.id) db with
      | .ok db => (true, db)
      | .error _ => (false, db) := by
  unfold Wallet.importNftTransfer
  dsimp only
  rw [if_neg (by simpa using ⟨hcontract, hid⟩)]
  unfold bookRow HistoryTransfer.data
  cases tr.timestamp with
  | none => rfl
  | some timestamp => rfl

theorem rowKey_data {p : ℕ} {data : TransactionData} (h : tr.data text p = some data) :
    rowKey data = tr.transactionHash.map fun hash => (p, hash) := by
  obtain ⟨timestamp, -, rfl⟩ := Option.map_eq_some_iff.mp h
  rfl

theorem bookRow_ok {data? : Option TransactionData} (p : ℕ) (h : bookRow data? db = .ok db') :
    ∃ data, data? = some data ∧ bookable data ∧ (∀ k, rowKey data = some k → k ∉ claimedKeys db) ∧
      Booked p data db db' := by
  unfold bookRow at h
  obtain ⟨data, hdata, h⟩ := bind_eq_ok h
  obtain ⟨db₁, hinsert, h⟩ := bind_eq_ok h
  obtain ⟨rfl, hfits⟩ := commit_ok h
  obtain ⟨htexts, hcreate, hdetail⟩ := insertFeedRow_ok hinsert
  obtain ⟨transactions, rfl, hrows⟩ := Ledger.createTransactionRow_ok hcreate
  refine ⟨data, Ledger.require_ok hdata, ?_, ?_, rfl, .of_tables rfl rfl, hrows, hfits⟩
  · have hdecimals := @rowDecimals_of_fits data _ db _ hrows hfits
    unfold bookable
    rw [htexts, hdetail, hdecimals]
    rfl
  · intro k hkey htaken
    unfold insertFeedRow ensure at hinsert
    rw [if_pos htexts] at hinsert
    obtain ⟨_, -, hinsert⟩ := bind_eq_ok hinsert
    rw [insertTransaction_of_taken hkey htaken] at hinsert
    cases hinsert

theorem bookRow_of_bookable {data : TransactionData} (hfits : db.fits column)
    (hbookable : bookable data) (hfree : ∀ k, rowKey data = some k → k ∉ claimedKeys db) :
    ∃ db', bookRow (some data) db = .ok db' := by
  unfold bookable at hbookable
  rw [Bool.and_eq_true, Bool.and_eq_true] at hbookable
  obtain ⟨⟨htexts, hdetail⟩, hdecimals⟩ := hbookable
  obtain ⟨transactions, hrows, hinsert⟩ := insertFeedRow_of_free htexts hfree
  rw [if_pos hdetail] at hinsert
  refine ⟨{ db with transactions }, ?_⟩
  show (insertFeedRow data db >>= fun db => db.commit column) = _
  rw [hinsert]
  show ({ db with transactions } : Db).commit column = _
  unfold Db.commit
  rw [if_pos]
  unfold Db.fits at hfits ⊢
  rw [Bool.and_eq_true] at hfits ⊢
  refine ⟨hfits.1, ?_⟩
  show transactions.rows.all _ = true
  rw [hrows, List.all_append, hfits.2, Bool.true_and, List.all_cons, List.all_nil, Bool.and_true]
  exact hdecimals

end Row

/-! ## The holding row of a transfer that can be booked -/

section Stored

variable {text : Text} {insertsFirst : Bool} {portfolio : Portfolio} {chainSlug : String}
  {tr : HistoryTransfer}

theorem all_truthy {p : String → Bool} (hp : p "" = true) (s : Option String) :
    (truthy s).all p = s.all p := by
  unfold truthy
  cases s with
  | none => rfl
  | some s =>
      by_cases hs : s = ""
      · subst hs
        simp [Option.filter, hp]
      · simp [Option.filter, hs]

/-- A row that can be booked has texts that fit its key and its collection. -/
theorem textsFit_of_bookable {p : ℕ} (h : (tr.data text p).any bookable) :
    fitsVarChar (tr.contract text) ∧ fitsVarChar tr.tokenId ∧
      tr.collectionName.all fitsVarChar := by
  obtain ⟨data, hdata, hbookable⟩ := Option.any_eq_true _ _ |>.mp h
  obtain ⟨timestamp, -, rfl⟩ := Option.map_eq_some_iff.mp hdata
  unfold bookable at hbookable
  rw [Bool.and_eq_true, Bool.and_eq_true] at hbookable
  have hdetail := hbookable.1.2
  unfold detailTextsFit at hdetail
  rw [List.all_eq_true] at hdetail
  refine ⟨hdetail _ (by simp), hdetail _ (by simp), ?_⟩
  have htruthy := @all_truthy fitsVarChar (by decide) tr.collectionName
  unfold truthy at htruthy
  rw [← htruthy, Option.all_eq_true]
  intro name hname
  exact hdetail name (List.mem_append_right _ (Option.mem_toList.mpr hname))

theorem createFits_nftRow (hchain : fitsWidth 50 chainSlug) {p : ℕ}
    (h : (tr.data text p).any bookable) :
    (tr.nftRow text portfolio.id chainSlug).createFits = tr.texts.fit := by
  obtain ⟨hcontract, hid, hcollection⟩ := textsFit_of_bookable h
  have hstorable : ∀ {s : String}, fitsVarChar s → storable s :=
    fun hs => (Bool.and_eq_true_iff.mp hs).2
  have hcontract' := hstorable hcontract
  have hid' := hstorable hid
  unfold NftRecord.createFits Webhooks.Nft.createFits Webhooks.Nft.updateFits NftTexts.fit
    HistoryTransfer.nftRow HistoryTransfer.texts
  simp only [hcontract, hid, hcollection, hchain, hcontract', hid',
    all_truthy (show fitsVarChar "" = true by decide),
    all_truthy (show storable "" = true by decide),
    Option.all_none, Bool.and_true, Bool.true_and]
  rw [Bool.and_assoc, Bool.and_comm (tr.logoUrl.all storable), Bool.and_assoc]

/-- Whether the holding row of such a transfer is written does not depend on the rows. -/
theorem isSome_storeTransfer (hchain : fitsWidth 50 chainSlug) {p : ℕ}
    (h : (tr.data text p).any bookable) (nfts : NftRecords) :
    (storeTransfer text insertsFirst portfolio chainSlug tr nfts).isSome = tr.rowFits := by
  obtain ⟨hcontract, hid, -⟩ := textsFit_of_bookable h
  have hkey : storable (tr.contract text) ∧ storable tr.tokenId :=
    ⟨(Bool.and_eq_true_iff.mp hcontract).2, (Bool.and_eq_true_iff.mp hid).2⟩
  have hcreate := @createFits_nftRow text portfolio chainSlug tr hchain p h
  unfold storeTransfer HistoryTransfer.rowFits
  cases hin : tr.incoming with
  | false =>
      have hstorable : storable (tr.nftKey text portfolio.id).2.1 ∧
          storable (tr.nftKey text portfolio.id).2.2 := hkey
      unfold dropNft
      rw [if_neg (by simp), if_pos hstorable]
      rfl
  | true =>
      have hstorable : storable (tr.nftRow text portfolio.id chainSlug).contractAddress ∧
          storable (tr.nftRow text portfolio.id chainSlug).tokenId := hkey
      unfold putNft
      rw [if_pos rfl, if_neg (not_not.mpr hstorable), hcreate]
      cases htexts : tr.texts.fit with
      | true =>
          cases nfts.find? (tr.nftRow text portfolio.id chainSlug).key with
          | none => rfl
          | some old => cases insertsFirst <;> rfl
      | false =>
          cases nfts.find? (tr.nftRow text portfolio.id chainSlug).key with
          | none => rfl
          | some old => rfl

end Stored

/-! ## What became of a transfer -/

/-- The transfer is passed over. -/
inductive TransferSettled (text : Text) (env : Env) (p : ℕ) (tr : HistoryTransfer) (db : Db) : Prop
  | fungible (htype : tr.type ≠ .nft) (h : FungibleSettled text env p tr.toWalletTransfer db) :
      TransferSettled text env p tr db
  | unnamed (htype : tr.type = .nft) (h : ¬ tr.namesNft text) : TransferSettled text env p tr db
  | refused (htype : tr.type = .nft) (h : tr.rowFits = false) : TransferSettled text env p tr db
  | unfit (htype : tr.type = .nft) (h : (tr.data text p).any bookable = false) :
      TransferSettled text env p tr db
  | taken {hash : String} (htype : tr.type = .nft) (hhash : tr.transactionHash = some hash)
      (h : (p, hash) ∈ claimedKeys db) : TransferSettled text env p tr db

/-- The transfer has no hash and is booked whenever it is imported. -/
inductive TransferUnkeyed (text : Text) (env : Env) (p : ℕ) (tr : HistoryTransfer) (db : Db) : Prop
  | fungible (htype : tr.type ≠ .nft) (h : Unkeyed text env p tr.toWalletTransfer db) :
      TransferUnkeyed text env p tr db
  | nft (hnames : tr.namesNft text) (hrow : tr.rowFits = true)
      (hbookable : (tr.data text p).any bookable) (hhash : tr.transactionHash = none) :
      TransferUnkeyed text env p tr db

def Known (text : Text) (env : Env) (p : ℕ) (tr : HistoryTransfer) (did : Bool) (db : Db) : Prop :=
  if did ∧ tr.transactionHash = none then TransferUnkeyed text env p tr db
  else TransferSettled text env p tr db

/-- The tokens of a page. -/
def pageInputs (transfers : List HistoryTransfer) : List TokenResolveInput :=
  transfers.flatMap fun tr =>
    if tr.type = .nft then []
    else ((tr.symbol.filter (· ≠ "")).map tr.toWalletTransfer.input).toList

section Known

variable {text : Text} {insertsFirst : Bool} {env : Env} {portfolio : Portfolio}
  {chainSlug : String} {tr : HistoryTransfer} {s s' : Holdings} {inputs : List TokenResolveInput}
  {db db' : Db}

/-- The tokens of this transfer are among the inputs. -/
def Covers (inputs : List TokenResolveInput) (tr : HistoryTransfer) : Prop :=
  tr.type ≠ .nft → ∀ symbol, tr.symbol.filter (· ≠ "") = some symbol →
    tr.toWalletTransfer.input symbol ∈ inputs

theorem TransferSettled.progress (hcompare : Equivalence fun a b => text.insensitive a b) {p : ℕ}
    (hagreed : Agreed text inputs db) (hcovers : Covers inputs tr)
    (h : TransferSettled text env p tr db) (hprogress : Progress text inputs p db db') :
    TransferSettled text env p tr db' := by
  cases h with
  | fungible htype hsettled =>
      exact .fungible htype (hsettled.progress hcompare hagreed (hcovers htype) hprogress)
  | unnamed htype hunnamed => exact .unnamed htype hunnamed
  | refused htype hrow => exact .refused htype hrow
  | unfit htype hunfit => exact .unfit htype hunfit
  | taken htype hhash hclaimed => exact .taken htype hhash (hprogress.claimed hclaimed)

theorem TransferUnkeyed.progress (hcompare : Equivalence fun a b => text.insensitive a b) {p : ℕ}
    (hagreed : Agreed text inputs db) (hcovers : Covers inputs tr)
    (h : TransferUnkeyed text env p tr db) (hprogress : Progress text inputs p db db') :
    TransferUnkeyed text env p tr db' := by
  cases h with
  | fungible htype hunkeyed =>
      exact .fungible htype (hunkeyed.progress hcompare hagreed (hcovers htype) hprogress)
  | nft hnames hrow hbookable hhash => exact .nft hnames hrow hbookable hhash

theorem Known.progress (hcompare : Equivalence fun a b => text.insensitive a b) {p : ℕ} {did : Bool}
    (hagreed : Agreed text inputs db) (hcovers : Covers inputs tr)
    (h : Known text env p tr did db) (hprogress : Progress text inputs p db db') :
    Known text env p tr did db' := by
  unfold Known at h ⊢
  split at h
  · next hbooked =>
      rw [if_pos hbooked]
      exact h.progress hcompare hagreed hcovers hprogress
  · next hsettled =>
      rw [if_neg hsettled]
      exact h.progress hcompare hagreed hcovers hprogress

/-- Without its hash a row that can be booked is free. -/
theorem free_of_hashless {p : ℕ} {data : TransactionData} (hdata : tr.data text p = some data)
    (hhash : tr.transactionHash = none) : ∀ k, rowKey data = some k → k ∉ claimedKeys db := by
  intro k hkey
  rw [rowKey_data hdata, hhash] at hkey
  cases hkey

/-- Once a collectible's transfer was taken, it is known what becomes of it. -/
theorem known_importNftTransfer (hchain : fitsWidth 50 chainSlug) (htype : tr.type = .nft)
    (hhealthy : Healthy portfolio.id s.db) {did : Bool}
    (himport : importNftTransfer text insertsFirst portfolio chainSlug tr s = (did, s')) :
    Progress text inputs portfolio.id s.db s'.db ∧ Healthy portfolio.id s'.db ∧
      Known text env portfolio.id tr did s'.db := by
  unfold importNftTransfer at himport
  split at himport
  · next hunnamed =>
      cases himport
      refine ⟨.refl, hhealthy, .unnamed htype fun hnames => ?_⟩
      exact hunnamed.elim hnames.2.1 hnames.2.2
  · next hnamed =>
      obtain ⟨hcontract, hid⟩ := not_or.mp hnamed
      cases hstore : storeTransfer text insertsFirst portfolio chainSlug tr s.nfts with
      | none =>
          rw [hstore] at himport
          cases himport
          refine ⟨.refl, hhealthy, ?_⟩
          show TransferSettled text env portfolio.id tr s.db
          by_cases hbookable : (tr.data text portfolio.id).any bookable
          · have hrow := @isSome_storeTransfer text insertsFirst portfolio chainSlug tr hchain _
              hbookable s.nfts
            rw [hstore] at hrow
            exact .refused htype hrow.symm
          · exact .unfit htype (Bool.eq_false_iff.mpr hbookable)
      | some nfts =>
          rw [hstore] at himport
          dsimp only at himport
          rw [importNftTransfer_eq hcontract hid] at himport
          cases hbook : bookRow (tr.data text portfolio.id) s.db with
          | error e =>
              rw [hbook] at himport
              cases himport
              refine ⟨.refl, hhealthy, ?_⟩
              show TransferSettled text env portfolio.id tr s.db
              by_cases hbookable : (tr.data text portfolio.id).any bookable
              · obtain ⟨data, hdata, hfits⟩ := Option.any_eq_true _ _ |>.mp hbookable
                by_cases hfree : ∀ k, rowKey data = some k → k ∉ claimedKeys s.db
                · obtain ⟨db', hok⟩ := bookRow_of_bookable hhealthy.fits hfits hfree
                  rw [← hdata, hbook] at hok
                  cases hok
                · push Not at hfree
                  obtain ⟨k, hkey, hclaimed⟩ := hfree
                  rw [rowKey_data hdata] at hkey
                  obtain ⟨hash, hhash, rfl⟩ := Option.map_eq_some_iff.mp hkey
                  exact .taken htype hhash hclaimed
              · exact .unfit htype (Bool.eq_false_iff.mpr hbookable)
          | ok db' =>
              rw [hbook] at himport
              cases himport
              obtain ⟨data, hdata, hbookable, -, hbooked⟩ := bookRow_ok portfolio.id hbook
              have hany : (tr.data text portfolio.id).any bookable := by
                rw [hdata]
                exact hbookable
              refine ⟨hbooked.progress, hbooked.healthy hhealthy, ?_⟩
              unfold Known
              cases hhash : tr.transactionHash with
              | none =>
                  rw [if_pos ⟨rfl, rfl⟩]
                  have hrow := @isSome_storeTransfer text insertsFirst portfolio chainSlug tr hchain
                    _ hany s.nfts
                  rw [hstore] at hrow
                  exact .nft ⟨htype, hcontract, hid⟩ hrow.symm hany hhash
              | some hash =>
                  rw [if_neg (by simp)]
                  refine .taken htype hhash (hbooked.claimed ?_)
                  rw [rowKey_data hdata, hhash]
                  rfl

theorem known_importTransfer (hcompare : Equivalence fun a b => text.insensitive a b)
    (hchain : fitsWidth 50 chainSlug) (hagreed : Agreed text inputs s.db)
    (hcovers : Covers inputs tr) (hhealthy : Healthy portfolio.id s.db) :
    Progress text inputs portfolio.id s.db
        (importTransfer text insertsFirst env portfolio chainSlug tr s).2.db ∧
      Healthy portfolio.id (importTransfer text insertsFirst env portfolio chainSlug tr s).2.db ∧
      Known text env portfolio.id tr
        (importTransfer text insertsFirst env portfolio chainSlug tr s).1
        (importTransfer text insertsFirst env portfolio chainSlug tr s).2.db := by
  unfold importTransfer
  split
  · next htype => exact known_importNftTransfer hchain htype hhealthy rfl
  · next htype =>
      cases hfungible : Wallet.importFungibleTransfer text env portfolio tr.toWalletTransfer s.db with
      | mk done db' =>
          obtain ⟨hprogress, hhealthy', hknown⟩ :=
            Wallet.settles_importFungible hcompare hagreed (hcovers htype) hhealthy hfungible
          refine ⟨hprogress, hhealthy', ?_⟩
          unfold Known
          dsimp only
          split
          · next hbooked =>
              rw [if_pos hbooked] at hknown
              exact .fungible htype hknown
          · next hsettled =>
              rw [if_neg hsettled] at hknown
              exact .fungible htype hknown

/-! ## The next time -/

/-- A settled transfer leaves the ledger alone. -/
theorem importTransfer_of_settled (hchain : fitsWidth 50 chainSlug)
    (hconnected : (s.db.findPortfolioById portfolio.id).map Portfolio.type = some .connected)
    (h : TransferSettled text env portfolio.id tr s.db) :
    (importTransfer text insertsFirst env portfolio chainSlug tr s).2.db = s.db := by
  unfold importTransfer
  by_cases htype : tr.type = .nft
  · rw [if_pos htype]
    unfold importNftTransfer
    split
    · rfl
    · next hnamed =>
        obtain ⟨hcontract, hid⟩ := not_or.mp hnamed
        cases hstore : storeTransfer text insertsFirst portfolio chainSlug tr s.nfts with
        | none => rfl
        | some nfts =>
            dsimp only
            rw [importNftTransfer_eq hcontract hid]
            cases hbook : bookRow (tr.data text portfolio.id) s.db with
            | error e => rfl
            | ok db' =>
                obtain ⟨data, hdata, hbookable, hfree, -⟩ := bookRow_ok portfolio.id hbook
                have hany : (tr.data text portfolio.id).any bookable := by
                  rw [hdata]
                  exact hbookable
                exfalso
                cases h with
                | fungible hother => exact hother htype
                | unnamed _ hunnamed => exact hunnamed ⟨htype, hcontract, hid⟩
                | refused _ hrow =>
                    have hstored := @isSome_storeTransfer text insertsFirst portfolio chainSlug tr
                      hchain _ hany s.nfts
                    rw [hstore, hrow] at hstored
                    cases hstored
                | unfit _ hunfit =>
                    rw [hany] at hunfit
                    cases hunfit
                | @taken hash _ hhash hclaimed =>
                    refine hfree (portfolio.id, hash) ?_ hclaimed
                    rw [rowKey_data hdata, hhash]
                    rfl
  · rw [if_neg htype]
    cases h with
    | fungible _ hsettled =>
        rw [Wallet.importFungible_of_settled hconnected hsettled]
    | unnamed hnft _ => exact absurd hnft htype
    | refused hnft _ => exact absurd hnft htype
    | unfit hnft _ => exact absurd hnft htype
    | taken hnft _ _ => exact absurd hnft htype

/-- A transfer without a hash is booked once more. -/
theorem importTransfer_of_unkeyed (hchain : fitsWidth 50 chainSlug)
    (hhealthy : Healthy portfolio.id s.db) (h : TransferUnkeyed text env portfolio.id tr s.db) :
    ∃ data, Booked portfolio.id data s.db
      (importTransfer text insertsFirst env portfolio chainSlug tr s).2.db := by
  unfold importTransfer
  cases h with
  | fungible htype hunkeyed =>
      rw [if_neg htype]
      obtain ⟨data, -, hbooked⟩ := Wallet.importFungible_of_unkeyed hhealthy hunkeyed
      exact ⟨data, hbooked⟩
  | nft hnames hrow hbookable hhash =>
      obtain ⟨htype, hcontract, hid⟩ := hnames
      rw [if_pos htype]
      have hstored := @isSome_storeTransfer text insertsFirst portfolio chainSlug tr hchain _
        hbookable s.nfts
      obtain ⟨nfts, hstore⟩ := Option.isSome_iff_exists.mp (hstored.trans hrow)
      obtain ⟨data, hdata, hfits⟩ := Option.any_eq_true _ _ |>.mp hbookable
      obtain ⟨db', hbook⟩ := bookRow_of_bookable hhealthy.fits hfits (free_of_hashless hdata hhash)
      obtain ⟨data', -, -, -, hbooked⟩ := bookRow_ok portfolio.id hbook
      rw [← hdata] at hbook
      refine ⟨data', ?_⟩
      unfold importNftTransfer
      rw [if_neg (not_or.mpr ⟨hcontract, hid⟩), hstore]
      dsimp only
      rw [importNftTransfer_eq hcontract hid, hbook]
      exact hbooked

end Known

end Neonfi.Nfts

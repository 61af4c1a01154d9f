import Neonfi.Ledger.Frame
import Neonfi.Wallet.Tokens

/-!
# The activity feed of a connected portfolio

`createTransactionFromWebhook` writes one on-chain transfer as a transaction; the Moralis
webhook and the history import of a wallet sync both go through it.
-/

namespace Neonfi.Wallet

open Lib
open Ledger (Db Token Portfolio Failure Millis Direction Detail TradeDetail Erc20Meta
  TransactionData Env require ensure ensure_ok require_ok bind_eq_ok resolveToken computeUsdValue
  createIfNeeded emptyAsset insertTransaction recalcAssetBalance recalcPortfolioNetDeposit
  insertTransaction_ok createTransactionRow_ok createIfNeeded_ok createAsset_ok commit_ok)

/-! ## One transfer -/

/-- Prisma's refusal of an `Invalid Date`. -/
def invalidDate : Failure := .database "PrismaClientValidationError"

/-- The body of a transfer: `erc20` if it comes with the token's metadata, else `native`.
`none` is the timestamp that is no date. -/
structure FeedBody where
  info : Option Erc20Meta := none
  direction : Direction
  amount : ℚ
  symbol : String
  timestamp : Option Millis
  transactionHash : Option String := none
  fromAddr : Option String := none
  toAddr : Option String := none
  gasFee : Option ℚ := none
  deriving DecidableEq, Repr

def FeedBody.row (body : FeedBody) (portfolioId : ℕ) (timestamp : Millis) (usdValue : ℚ) :
    TransactionData where
  portfolioId := portfolioId
  direction := body.direction
  fromAddr := body.fromAddr
  toAddr := body.toAddr
  gasFee := body.gasFee.map column.fix
  transactionHash := body.transactionHash
  timestamp := timestamp
  detail :=
    let trade : TradeDetail :=
      { amount := column.fix body.amount, symbol := body.symbol, usdValue, priceAtTime := none }
    match body.info with
    | none => .native trade
    | some info => .erc20 trade info

/-- The text columns of the row itself. -/
def rowTextsFit (data : TransactionData) : Bool :=
  (data.fromAddr.toList ++ data.toAddr.toList ++ data.transactionHash.toList).all fitsVarChar

/-- The text columns of the detail record; a token's name is free text. -/
def detailTextsFit : Detail → Bool
  | .native d => fitsVarChar d.symbol
  | .erc20 d info =>
      fitsVarChar d.symbol && fitsVarChar info.tokenContractAddress &&
        fitsVarChar info.tokenSymbol && storable info.tokenName
  | .nft d =>
      ([d.tokenContractAddress, d.nftTokenId] ++ d.nftName.toList ++ d.collectionName.toList).all
        fitsVarChar

/-- The row, then its detail record. -/
def insertFeedRow (data : TransactionData) (db : Db) : Except Failure Db := do
  ensure (rowTextsFit data) valueTooLong
  let db ← insertTransaction data db
  ensure (detailTextsFit data.detail) valueTooLong
  return db

/-- The value of a transfer: the provider's, else the amount at the current price. -/
def feedUsdValue (env : Env) (body : FeedBody) (usdValueOverride : Option ℚ) (db : Db) : ℚ :=
  match usdValueOverride with
  | some usdValue => toDecimalString usdValue
  | none => computeUsdValue column env db body.symbol body.amount none

def createTransactionFromWebhook (env : Env) (portfolio : Portfolio) (body : FeedBody)
    (usdValueOverride : Option ℚ) (db : Db) : Except Failure Db := do
  let token ← resolveToken db body.symbol
  let usdValue := feedUsdValue env body usdValueOverride db
  let needed := (db.findAsset portfolio.id token.id).isNone
  let db ← createIfNeeded needed portfolio.id token.id db
  let timestamp ← require body.timestamp invalidDate
  let db ← insertFeedRow (body.row portfolio.id timestamp usdValue) db
  let db := recalcAssetBalance column portfolio.id token.id db
  let db := recalcPortfolioNetDeposit column portfolio.id db
  db.commit column

/-! ## History import -/

inductive TransferType
  | native
  | erc20
  | nft
  deriving DecidableEq, Repr

/-- A movement of the wallet as a provider reports it; `incoming` is direction `in`. -/
structure WalletTransfer where
  type : TransferType
  incoming : Bool
  hash : Option String
  fromAddr : Option String
  toAddr : Option String
  symbol : Option String
  name : Option String
  contractAddress : Option String
  amount : Option ℚ
  usdValue : Option ℚ
  gasFee : Option ℚ
  timestamp : Option Millis
  nftTokenId : Option String := none
  collectionName : Option String := none
  deriving DecidableEq, Repr

namespace WalletTransfer

variable (tr : WalletTransfer)

def direction : Direction := if tr.incoming then .buy else .sell

/-- An empty hash is left out of the body. -/
def transactionHash : Option String := tr.hash.filter (· ≠ "")

/-- The body of a fungible transfer that was mapped to a catalog row. -/
def body (token : Token) (symbol : String) : FeedBody where
  info :=
    if tr.type = .native then none
    else
      some
        { tokenContractAddress := tr.contractAddress.getD ""
          tokenName := tr.name.getD token.symbol
          tokenSymbol := symbol }
  direction := tr.direction
  amount := toDecimalString (tr.amount.getD 0)
  symbol := token.symbol
  timestamp := tr.timestamp
  transactionHash := tr.transactionHash
  fromAddr := tr.fromAddr
  toAddr := tr.toAddr
  gasFee := tr.gasFee.map toDecimalString

end WalletTransfer

section Import

variable (text : Text) (env : Env) (portfolio : Portfolio)

/-- The catalog keeps what resolving the token did to it when the row is refused. -/
def importFungibleTransfer (tr : WalletTransfer) (db : Db) : Bool × Db :=
  match tr.symbol.filter (· ≠ "") with
  | none => (false, db)
  | some symbol =>
      match resolveOrCreateToken text ⟨symbol, tr.contractAddress, none⟩ db with
      | .error _ => (false, db)
      | .ok (token, db) =>
          match createTransactionFromWebhook env portfolio (tr.body token symbol) tr.usdValue
              db with
          | .ok db => (true, db)
          | .error _ => (false, db)

/-- The transaction row of a collectible's transfer.  `nftStored` tells whether the write of
its holding row, a table of its own, went through. -/
def importNftTransfer (nftStored : WalletTransfer → Bool) (tr : WalletTransfer) (db : Db) :
    Bool × Db :=
  let contract := text.toLowerCase (tr.contractAddress.getD "")
  let tokenId := tr.nftTokenId.getD ""
  if contract = "" ∨ tokenId = "" ∨ ¬ nftStored tr then (false, db)
  else
    let created : Except Failure Db := do
      let timestamp ← require tr.timestamp invalidDate
      let db ← insertFeedRow
        { portfolioId := portfolio.id
          direction := tr.direction
          fromAddr := tr.fromAddr
          toAddr := tr.toAddr
          gasFee := tr.gasFee.map toDecimalString
          transactionHash := tr.transactionHash
          timestamp := timestamp
          detail := .nft
            { tokenContractAddress := contract
              nftTokenId := tokenId
              nftName := tr.name.filter (· ≠ "")
              collectionName := tr.collectionName.filter (· ≠ "") } } db
      db.commit column
    match created with
    | .ok db => (true, db)
    | .error _ => (false, db)

def importTransfer (nftStored : WalletTransfer → Bool) (tr : WalletTransfer) (db : Db) :
    Bool × Db :=
  if tr.type = .nft then importNftTransfer text portfolio nftStored tr db
  else importFungibleTransfer text env portfolio tr db

/-- Oldest first; an unreadable date compares as equal. -/
def notAfter (a b : WalletTransfer) : Prop :=
  ∀ x ∈ a.timestamp, ∀ y ∈ b.timestamp, x ≤ y

instance : DecidableRel notAfter := fun a b =>
  inferInstanceAs (Decidable (∀ x ∈ a.timestamp, ∀ y ∈ b.timestamp, x ≤ y))

def importTransfers (nftStored : WalletTransfer → Bool) (transfers : List WalletTransfer)
    (db : Db) : ℕ × Db :=
  (transfers.insertionSort notAfter).foldl
    (fun done tr =>
      let (did, db) := importTransfer text env portfolio nftStored tr done.2
      (if did then done.1 + 1 else done.1, db))
    (0, db)

end Import

/-! ## What a transfer writes -/

theorem insertFeedRow_ok {data : TransactionData} {db db' : Db}
    (h : insertFeedRow data db = .ok db') :
    rowTextsFit data ∧ db.createTransactionRow data = .ok db' ∧ detailTextsFit data.detail := by
  unfold insertFeedRow at h
  obtain ⟨_, htexts, h⟩ := bind_eq_ok h
  obtain ⟨db₁, hinsert, h⟩ := bind_eq_ok h
  obtain ⟨_, hdetail, h⟩ := bind_eq_ok h
  cases h
  exact ⟨ensure_ok htexts, insertTransaction_ok hinsert, ensure_ok hdetail⟩

theorem createTransactionFromWebhook_ok {env : Env} {portfolio : Portfolio} {body : FeedBody}
    {usdValueOverride : Option ℚ} {db db' : Db}
    (h : createTransactionFromWebhook env portfolio body usdValueOverride db = .ok db') :
    ∃ token timestamp db₁ db₂, db.findTokenBySymbol body.symbol = some token ∧
      body.timestamp = some timestamp ∧
      createIfNeeded (db.findAsset portfolio.id token.id).isNone portfolio.id token.id db =
        .ok db₁ ∧
      insertFeedRow
        (body.row portfolio.id timestamp (feedUsdValue env body usdValueOverride db)) db₁ =
        .ok db₂ ∧
      db' = recalcPortfolioNetDeposit column portfolio.id
        (recalcAssetBalance column portfolio.id token.id db₂) ∧
      db'.fits column := by
  unfold createTransactionFromWebhook at h
  obtain ⟨token, htoken, h⟩ := bind_eq_ok h
  obtain ⟨db₁, hcreate, h⟩ := bind_eq_ok h
  obtain ⟨timestamp, htimestamp, h⟩ := bind_eq_ok h
  obtain ⟨db₂, hinsert, h⟩ := bind_eq_ok h
  have hcommit := commit_ok h
  unfold resolveToken at htoken
  exact ⟨token, timestamp, db₁, db₂, require_ok htoken, require_ok htimestamp, hcreate, hinsert,
    hcommit.1, hcommit.1 ▸ hcommit.2⟩

/-- The feed of a connected portfolio leaves every asset row as it is; a token it had no row
for gets an empty one. -/
structure FeedFrame (p : ℕ) (db db' : Db) : Prop where
  type : (db'.findPortfolioById p).map Portfolio.type =
    (db.findPortfolioById p).map Portfolio.type
  kept : ∀ q u a, db.findAsset q u = some a → db'.findAsset q u = some a
  fresh : ∀ q u a, db.findAsset q u = none → db'.findAsset q u = some a →
    q = p ∧ a = emptyAsset p u

namespace FeedFrame

variable {p : ℕ} {db db' db'' : Db}

theorem of_tables (hportfolios : db'.portfolios = db.portfolios) (hassets : db'.assets = db.assets) :
    FeedFrame p db db' where
  type := by
    unfold Db.findPortfolioById
    rw [hportfolios]
  kept q u a h := by
    unfold Db.findAsset
    rw [hassets]
    exact h
  fresh q u a hnone hsome := by
    unfold Db.findAsset at hnone hsome
    rw [hassets, hnone] at hsome
    cases hsome

theorem refl : FeedFrame p db db := of_tables rfl rfl

theorem trans (h : FeedFrame p db db') (h' : FeedFrame p db' db'') : FeedFrame p db db'' where
  type := h'.type.trans h.type
  kept q u a hsome := h'.kept q u a (h.kept q u a hsome)
  fresh q u a hnone hsome := by
    cases hmid : db'.findAsset q u with
    | none => exact h'.fresh q u a hmid hsome
    | some b =>
        have hkept := h'.kept q u b hmid
        rw [hsome] at hkept
        cases hkept
        exact h.fresh q u a hnone hmid

theorem createIfNeeded {t : ℕ} (h : createIfNeeded (db.findAsset p t).isNone p t db = .ok db') :
    FeedFrame p db db' := by
  rcases createIfNeeded_ok h with rfl | hcreate
  · exact refl
  · obtain ⟨assets, rfl, hrows, hfree⟩ := createAsset_ok hcreate
    have hfind : ∀ q u, ({ db with assets } : Db).findAsset q u =
        (db.findAsset q u).or (if (p, t) = (q, u) then some (emptyAsset p t) else none) := by
      intro q u
      show assets.find? (q, u) = _
      unfold Table.find?
      rw [hrows, List.find?_append, List.find?_singleton]
      simp only [decide_eq_true_eq]
      rfl
    refine ⟨rfl, ?_, ?_⟩
    · intro q u a hsome
      rw [hfind, hsome, Option.some_or]
    · intro q u a hnone hsome
      rw [hfind, hnone, Option.none_or] at hsome
      split at hsome
      · next hkey =>
          cases hkey
          cases hsome
          exact ⟨rfl, rfl⟩
      · cases hsome

theorem insertFeedRow {data : TransactionData} (h : insertFeedRow data db = .ok db') :
    FeedFrame p db db' := by
  obtain ⟨transactions, rfl, -⟩ := createTransactionRow_ok (insertFeedRow_ok h).2.1
  exact of_tables rfl rfl

theorem recalcPortfolioNetDeposit : FeedFrame p db (recalcPortfolioNetDeposit column p db) where
  type := by
    unfold Ledger.recalcPortfolioNetDeposit Db.setNetDeposit Db.findPortfolioById
    dsimp only
    rw [SerialTable.find?_modify, Option.map_map]
    congr 1
    funext portfolio
    rw [Function.comp_apply]
    split <;> rfl
  kept _ _ _ h := h
  fresh q u a hnone hsome := by
    have hsame : db.findAsset q u = some a := hsome
    rw [hnone] at hsame
    cases hsame

/-- A connected portfolio keeps what the provider summary wrote. -/
theorem createTransactionFromWebhook {env : Env} {portfolio : Portfolio} {body : FeedBody}
    {usdValueOverride : Option ℚ}
    (hconnected : (db.findPortfolioById portfolio.id).map Portfolio.type = some .connected)
    (h : createTransactionFromWebhook env portfolio body usdValueOverride db = .ok db') :
    FeedFrame portfolio.id db db' := by
  obtain ⟨token, timestamp, db₁, db₂, -, -, hcreate, hinsert, rfl, -⟩ :=
    createTransactionFromWebhook_ok h
  have hframe := (createIfNeeded hcreate).trans (insertFeedRow hinsert)
  have hskip : recalcAssetBalance column portfolio.id token.id db₂ = db₂ := by
    unfold recalcAssetBalance
    rw [if_pos (hframe.type.trans hconnected)]
  rw [hskip]
  exact hframe.trans recalcPortfolioNetDeposit

theorem importTransfer {text : Text} {env : Env} {portfolio : Portfolio}
    {nftStored : WalletTransfer → Bool} {tr : WalletTransfer}
    (hconnected : (db.findPortfolioById portfolio.id).map Portfolio.type = some .connected) :
    FeedFrame portfolio.id db (importTransfer text env portfolio nftStored tr db).2 := by
  unfold Wallet.importTransfer
  split
  · unfold importNftTransfer
    dsimp only
    split
    · exact refl
    · split
      · next db' hcreated =>
          obtain ⟨timestamp, -, hcreated⟩ := bind_eq_ok hcreated
          obtain ⟨db₁, hinsert, hcommit⟩ := bind_eq_ok hcreated
          rw [(commit_ok hcommit).1]
          exact insertFeedRow hinsert
      · exact refl
  · unfold importFungibleTransfer
    split
    · exact refl
    · split
      · exact refl
      · next token db₁ hresolve =>
          have hcatalog : FeedFrame portfolio.id db db₁ := by
            rw [resolve_catalog hresolve]
            exact of_tables rfl rfl
          split
          · next db₂ hcreated =>
              exact hcatalog.trans
                (createTransactionFromWebhook (hcatalog.type.trans hconnected) hcreated)
          · exact hcatalog

theorem importTransfers {text : Text} {env : Env} {portfolio : Portfolio}
    {nftStored : WalletTransfer → Bool} {transfers : List WalletTransfer}
    (hconnected : (db.findPortfolioById portfolio.id).map Portfolio.type = some .connected) :
    FeedFrame portfolio.id db (importTransfers text env portfolio nftStored transfers db).2 := by
  unfold Wallet.importTransfers
  generalize transfers.insertionSort notAfter = ordered
  have hfold : ∀ (n : ℕ) (db' : Db), FeedFrame portfolio.id db db' →
      FeedFrame portfolio.id db (ordered.foldl
        (fun done tr =>
          let (did, db) := Wallet.importTransfer text env portfolio nftStored tr done.2
          (if did then done.1 + 1 else done.1, db)) (n, db')).2 := by
    induction ordered with
    | nil => intro n db' h; exact h
    | cons tr ordered ih =>
        intro n db' h
        exact ih _ _ (h.trans (importTransfer (h.type.trans hconnected)))
  exact hfold 0 db refl

end FeedFrame

end Neonfi.Wallet

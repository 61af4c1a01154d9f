import Neonfi.Ledger.Recalc

/-!
# Single transactions and transfers

`createTransaction`, `updateTransaction`, `deleteTransaction` and
`createCrossPortfolioTransfer`.  A function takes the portfolio its middleware resolved
and the request body after validation; it answers with the database its write transaction
commits, or with the failure of the request.
-/

namespace Neonfi.Ledger

open Lib

/-! ## Request bodies -/

/-- `decimalStr`: a non-negative decimal string. -/
abbrev DecimalStr := { q : ℚ // 0 ≤ q }

/-- `boundedDecimalStr`: below the magnitude of a `Decimal(20,8)` column. -/
abbrev BoundedDecimal := { q : ℚ // 0 ≤ q ∧ q < 10 ^ 12 }

/-- `amountStr`: bounded and strictly positive. -/
abbrev AmountStr := { q : ℚ // 0 < q ∧ q < 10 ^ 12 }

theorem amount_1 : (0 : ℚ) < 1 ∧ (1 : ℚ) < 10 ^ 12 := by norm_num

theorem amount_2 : (0 : ℚ) < 2 ∧ (2 : ℚ) < 10 ^ 12 := by norm_num

/-- `String.length` counts UTF-16 code units in JavaScript. -/
def utf16Length (s : String) : ℕ := (s.toList.map fun c => if c.val < 0x10000 then 1 else 2).sum

/-- A symbol of 1 to 20 characters. -/
abbrev SymbolStr := { s : String // 1 ≤ utf16Length s ∧ utf16Length s ≤ 20 }

/-- The fields of a native or erc20 body. -/
structure TradeFields where
  amount : AmountStr
  symbol : SymbolStr
  priceAtTime : Option BoundedDecimal := none

inductive CreatePayload
  | native (trade : TradeFields)
  | erc20 (trade : TradeFields) (info : Erc20Meta)
  | nft (nft : NftDetail)

def CreatePayload.trade? : CreatePayload → Option TradeFields
  | .native trade => some trade
  | .erc20 trade _ => some trade
  | .nft _ => none

structure CreateTransactionBody where
  payload : CreatePayload
  direction : Direction
  timestamp : Millis
  transactionHash : Option String := none
  fromAddr : Option String := none
  toAddr : Option String := none
  gasFee : Option BoundedDecimal := none
  notes : Option String := none

/-- A PATCH body.  `none` is an absent field; for a nullable field `some none` is `null`. -/
structure UpdateTransactionBody where
  direction : Option Direction := none
  fromAddr : Option (Option String) := none
  toAddr : Option (Option String) := none
  gasFee : Option (Option BoundedDecimal) := none
  timestamp : Option Millis := none
  amount : Option AmountStr := none
  symbol : Option SymbolStr := none
  tokenContractAddress : Option String := none
  tokenName : Option String := none
  tokenSymbol : Option String := none
  nftName : Option (Option String) := none
  nftTokenId : Option String := none
  collectionName : Option (Option String) := none
  priceAtTime : Option BoundedDecimal := none
  notes : Option (Option String) := none

structure TransferBody where
  destPortfolioId : ℕ
  symbol : SymbolStr
  amount : AmountStr
  timestamp : Option Millis := none
  notes : Option String := none

/-! ## Shared checks -/

def assertManualPortfolio (portfolio : Portfolio) : Except Failure Unit :=
  ensure (portfolio.type ≠ .connected)
    (transactionError 403 "CONNECTED_PORTFOLIO_READ_ONLY"
      "Transactions in connected portfolios are read-only")

def resolveToken (db : Db) (symbol : String) : Except Failure Token :=
  require (db.findTokenBySymbol symbol)
    (transactionError 400 "UNKNOWN_TOKEN_SYMBOL" s!"Unknown token symbol: {symbol}")

/-- The token of a stored symbol; an empty symbol is falsy and names none. -/
def Db.findNamedToken (db : Db) (symbol : String) : Option Token :=
  if symbol = "" then none else db.findTokenBySymbol symbol

def assetNotInPortfolio : Failure :=
  transactionError 400 "ASSET_NOT_IN_PORTFOLIO"
    "Add the token to your portfolio first before logging transactions for it"

def planLimitReached : Failure :=
  transactionError 403 "PLAN_LIMIT_REACHED" "Your plan only allows tokens ranked in the top 10"

def insufficientBalance : Failure :=
  transactionError 400 "INSUFFICIENT_BALANCE" "Cannot sell more than the current balance"

def transactionHashDuplicate : Failure :=
  transactionError 409 "TRANSACTION_HASH_DUPLICATE" "A transaction with this hash already exists"

def transactionNotFound : Failure :=
  transactionError 404 "TRANSACTION_NOT_FOUND" "Transaction not found"

/-- Free plans only add tokens of rank 10 or better. -/
def planRefuses (plan : Plan) (token : Token) : Bool :=
  plan = .free && (token.rank.all fun rank => 10 < rank)

/-- `createTransactionRow` with the hash violation turned into its 409. -/
def insertTransaction (data : TransactionData) (db : Db) : Except Failure Db :=
  match db.createTransactionRow data with
  | .ok db => .ok db
  | .error e => .error (if e = uniqueViolation then transactionHashDuplicate else e)

section Operations

variable (N : Numeric)

/-! ## Create -/

def TradeFields.stored (trade : TradeFields) (usdValue : ℚ) : TradeDetail where
  amount := N.fix trade.amount
  symbol := trade.symbol
  usdValue := usdValue
  priceAtTime := trade.priceAtTime.map fun price => N.fix price

/-- The row a body becomes; `usdValue` is only kept by native and erc20 rows. -/
def CreateTransactionBody.row (body : CreateTransactionBody) (portfolioId : ℕ) (usdValue : ℚ) :
    TransactionData where
  portfolioId := portfolioId
  direction := body.direction
  fromAddr := body.fromAddr
  toAddr := body.toAddr
  gasFee := body.gasFee.map fun fee => N.fix fee
  transactionHash := body.transactionHash
  timestamp := body.timestamp
  notes := body.notes
  detail :=
    match body.payload with
    | .native trade => .native (trade.stored N usdValue)
    | .erc20 trade info => .erc20 (trade.stored N usdValue) info
    | .nft nft => .nft nft

/-- Whether a trade needs a new asset row: a buy of an unheld token within the plan does,
a sell or transfer of an unheld token is refused. -/
def resolveAutoCreate (env : Env) (portfolio : Portfolio) (direction : Direction)
    (token : Token) (db : Db) : Except Failure Bool :=
  if (db.findAsset portfolio.id token.id).isSome then .ok false
  else if direction ≠ .buy then .error assetNotInPortfolio
  else if planRefuses (env.plan portfolio.userId) token then .error planLimitReached
  else .ok true

/-- The oversell guard, read under the row lock. -/
def guardOversell (portfolioId tokenId : ℕ) (direction : Direction) (amount : ℚ) (db : Db) :
    Except Failure Unit :=
  if direction = .sell then do
    let current ← require (db.findAsset portfolioId tokenId) insufficientBalance
    ensure (amount ≤ current.balance) insufficientBalance
  else .ok ()

/-- The empty asset row of an auto-created holding. -/
def emptyAsset (portfolioId tokenId : ℕ) : Asset where
  portfolioId := portfolioId
  tokenId := tokenId

def createIfNeeded (needed : Bool) (portfolioId tokenId : ℕ) (db : Db) : Except Failure Db :=
  if needed then db.createAsset (emptyAsset portfolioId tokenId) else .ok db

def createTrade (env : Env) (portfolio : Portfolio) (body : CreateTransactionBody)
    (trade : TradeFields) (db : Db) : Except Failure Db := do
  let token ← resolveToken db trade.symbol
  let autoCreateAsset ← resolveAutoCreate env portfolio body.direction token db
  let usdValue := computeUsdValue N env db trade.symbol trade.amount
    (trade.priceAtTime.map Subtype.val)
  guardOversell portfolio.id token.id body.direction trade.amount db
  let db ← createIfNeeded autoCreateAsset portfolio.id token.id db
  let db ← insertTransaction (body.row N portfolio.id usdValue) db
  let db := recalcAssetBalance N portfolio.id token.id db
  let db := recalcPortfolioNetDeposit N portfolio.id db
  db.commit N

def createTransaction (env : Env) (portfolio : Portfolio) (body : CreateTransactionBody)
    (db : Db) : Except Failure Db := do
  assertManualPortfolio portfolio
  match body.payload with
  | .native trade => createTrade N env portfolio body trade db
  | .erc20 trade _ => createTrade N env portfolio body trade db
  | .nft _ =>
      let db ← insertTransaction (body.row N portfolio.id 0) db
      db.commit N

/-! ## Update -/

namespace UpdateTransactionBody

variable (body : UpdateTransactionBody)

def balanceAffected : Bool :=
  body.direction.isSome || body.amount.isSome || body.symbol.isSome

def usdAffected : Bool :=
  body.amount.isSome || body.symbol.isSome || body.priceAtTime.isSome

/-- The patched columns of a native or erc20 detail.  The USD value is recomputed from the
patched or the stored amount, symbol and price. -/
def applyTrade (env : Env) (db : Db) (d : TradeDetail) : TradeDetail :=
  let symbol := (body.symbol.map Subtype.val).getD d.symbol
  let amount := (body.amount.map Subtype.val).getD d.amount
  let price := (body.priceAtTime.map Subtype.val).or d.priceAtTime
  { amount := (body.amount.map fun amount => N.fix amount).getD d.amount
    symbol := symbol
    usdValue :=
      if body.usdAffected && symbol ≠ "" then computeUsdValue N env db symbol amount price
      else d.usdValue
    priceAtTime := (body.priceAtTime.map fun price => N.fix price).or d.priceAtTime }

def applyDetail (env : Env) (db : Db) : Detail → Detail
  | .native d => .native (body.applyTrade N env db d)
  | .erc20 d info =>
      .erc20 (body.applyTrade N env db d)
        { tokenContractAddress := body.tokenContractAddress.getD info.tokenContractAddress
          tokenName := body.tokenName.getD info.tokenName
          tokenSymbol := body.tokenSymbol.getD info.tokenSymbol }
  | .nft d =>
      .nft
        { tokenContractAddress := body.tokenContractAddress.getD d.tokenContractAddress
          nftName := body.nftName.getD d.nftName
          nftTokenId := body.nftTokenId.getD d.nftTokenId
          collectionName := body.collectionName.getD d.collectionName }

def apply (env : Env) (db : Db) (t : Transaction) : Transaction :=
  { t with
    direction := body.direction.getD t.direction
    fromAddr := body.fromAddr.getD t.fromAddr
    toAddr := body.toAddr.getD t.toAddr
    gasFee := (body.gasFee.map fun fee => fee.map fun fee => N.fix fee).getD t.gasFee
    timestamp := body.timestamp.getD t.timestamp
    notes := body.notes.getD t.notes
    detail := body.applyDetail N env db t.detail }

end UpdateTransactionBody

/-- The token a PATCH moves the row to, which the portfolio must hold. -/
def resolveNewToken (portfolio : Portfolio) (symbol : String) (db : Db) :
    Except Failure Token := do
  let newToken ← resolveToken db symbol
  ensure (db.findAsset portfolio.id newToken.id).isSome assetNotInPortfolio
  return newToken

/-- The token ids a PATCH recalculates: of the stored symbol and of the new one. -/
def resolvePatchedTokens (portfolio : Portfolio) (body : UpdateTransactionBody)
    (existing : Transaction) (db : Db) : Except Failure (Option ℕ × Option ℕ) :=
  match existing.symbol?, body.symbol with
  | none, _ => .ok (none, none)
  | some oldSymbol, none =>
      let oldTokenId := (db.findNamedToken oldSymbol).map Token.id
      .ok (oldTokenId, oldTokenId)
  | some oldSymbol, some symbol =>
      let oldTokenId := (db.findNamedToken oldSymbol).map Token.id
      if symbol.val = oldSymbol then .ok (oldTokenId, oldTokenId)
      else do
        let newToken ← resolveNewToken portfolio symbol db
        return (oldTokenId, some newToken.id)

/-- The recalculations of a PATCH that changes a balance or a USD value. -/
def recalcPatched (portfolioId : ℕ) (oldTokenId newTokenId : Option ℕ) (db : Db) : Db :=
  let db :=
    match oldTokenId, newTokenId with
    | some old, some new =>
        if old = new then recalcAssetBalance N portfolioId old db
        else recalcAssetBalance N portfolioId new (recalcAssetBalance N portfolioId old db)
    | some old, none => recalcAssetBalance N portfolioId old db
    | none, some new => recalcAssetBalance N portfolioId new db
    | none, none => db
  recalcPortfolioNetDeposit N portfolioId db

/-- A transaction of the portfolio the request addresses. -/
def findOwnTransaction (portfolio : Portfolio) (txId : ℕ) (db : Db) :
    Except Failure Transaction := do
  let existing ← require (db.findTransactionById txId) transactionNotFound
  ensure (existing.portfolioId = portfolio.id) transactionNotFound
  return existing

def transferEditUnsupported : Failure :=
  transactionError 409 "TRANSFER_EDIT_UNSUPPORTED"
    "Delete the transfer and create a new one to change its paired legs"

def updateTransaction (env : Env) (portfolio : Portfolio) (txId : ℕ)
    (body : UpdateTransactionBody) (db : Db) : Except Failure Db := do
  assertManualPortfolio portfolio
  let existing ← findOwnTransaction portfolio txId db
  ensure (existing.transferGroupId = none) transferEditUnsupported
  let (oldTokenId, newTokenId) ← resolvePatchedTokens portfolio body existing db
  let patched := db.updateTransactionRow txId (body.apply N env db) (fun _ => rfl) fun _ => rfl
  if (body.balanceAffected || body.usdAffected) && existing.detail.trade?.isSome then
    (recalcPatched N portfolio.id oldTokenId newTokenId patched).commit N
  else patched.commit N

/-! ## Delete -/

/-- The recalculations after rows of some portfolios and symbols are gone. -/
def recalcTargets (targets : List (ℕ × ℕ)) (portfolioIds : List ℕ) (db : Db) : Db :=
  let db := targets.foldl (fun db target => recalcAssetBalance N target.1 target.2 db) db
  portfolioIds.foldl (fun db portfolioId => recalcPortfolioNetDeposit N portfolioId db) db

/-- The asset a transaction counts towards. -/
def recalcTarget? (db : Db) (leg : Transaction) : Option (ℕ × ℕ) :=
  match leg.symbol? with
  | none => none
  | some symbol => (db.findNamedToken symbol).map fun token => (leg.portfolioId, token.id)

/-- Deleting either leg of a transfer deletes both. -/
def deleteTransfer (groupId : String) (db : Db) : Except Failure Db :=
  let legs := db.transactions.rows.filter fun t => t.transferGroupId = some groupId
  let targets := legs.filterMap (recalcTarget? db)
  let portfolioIds := (legs.map fun leg => leg.portfolioId).dedup
  let deleted := legs.foldl (fun db leg => db.deleteTransactionRow leg.id) db
  (recalcTargets N targets portfolioIds deleted).commit N

def deleteTransaction (portfolio : Portfolio) (txId : ℕ) (db : Db) : Except Failure Db := do
  assertManualPortfolio portfolio
  let existing ← findOwnTransaction portfolio txId db
  match existing.transferGroupId with
  | some groupId => deleteTransfer N groupId db
  | none =>
      let deleted := db.deleteTransactionRow txId
      match recalcTarget? db existing with
      | none => deleted.commit N
      | some target =>
          let db := recalcAssetBalance N portfolio.id target.2 deleted
          (recalcPortfolioNetDeposit N portfolio.id db).commit N

/-! ## Transfer -/

def invalidTransferTarget (message : String) : Failure :=
  transactionError 400 "INVALID_TRANSFER_TARGET" message

def destNotFound : Failure :=
  transactionError 403 "DEST_NOT_FOUND" "Destination portfolio not found or access denied"

def resolveDest (source : Portfolio) (destPortfolioId : ℕ) (db : Db) :
    Except Failure Portfolio := do
  let dest ← require (db.findPortfolioById destPortfolioId) destNotFound
  ensure (dest.userId = source.userId) destNotFound
  ensure (dest.id ≠ source.id) (invalidTransferTarget "Cannot transfer to the same portfolio")
  ensure (dest.type ≠ .connected)
    (invalidTransferTarget "Destination must be a manual portfolio")
  return dest

def insufficientForTransfer : Failure :=
  transactionError 400 "INSUFFICIENT_BALANCE"
    "Source portfolio has insufficient balance for this transfer"

/-- The source row, locked, with enough balance for the transfer. -/
def lockTransferSource (sourceId tokenId : ℕ) (amount : ℚ) (db : Db) :
    Except Failure Asset := do
  let sourceAsset ← require (db.findAsset sourceId tokenId) insufficientForTransfer
  ensure (amount ≤ sourceAsset.balance) insufficientForTransfer
  return sourceAsset

/-- One leg of a transfer. -/
def transferLeg (env : Env) (body : TransferBody) (portfolioId : ℕ) (direction : Direction)
    (usdValue : ℚ) : TransactionData where
  portfolioId := portfolioId
  direction := direction
  timestamp := body.timestamp.getD env.now
  notes := body.notes
  transferGroupId := some env.uuid
  detail := .native
    { amount := N.fix body.amount
      symbol := body.symbol
      usdValue := usdValue
      priceAtTime := none }

/-- Both legs carry the same USD value: the amount's share of the source's net deposit. -/
def createCrossPortfolioTransfer (env : Env) (source : Portfolio) (body : TransferBody)
    (db : Db) : Except Failure Db := do
  assertManualPortfolio source
  let dest ← resolveDest source body.destPortfolioId db
  let token ← resolveToken db body.symbol
  let sourceAsset ← lockTransferSource source.id token.id body.amount db
  let usdValue := N.fix (body.amount * sourceAsset.netDeposit / sourceAsset.balance)
  let db ← createIfNeeded (db.findAsset dest.id token.id).isNone dest.id token.id db
  let db ← db.createTransactionRow (transferLeg N env body source.id .sell usdValue)
  let db ← db.createTransactionRow (transferLeg N env body dest.id .buy usdValue)
  let db := recalcAssetBalance N source.id token.id db
  let db := recalcPortfolioNetDeposit N source.id db
  let db := recalcAssetBalance N dest.id token.id db
  let db := recalcPortfolioNetDeposit N dest.id db
  db.commit N

end Operations

end Neonfi.Ledger

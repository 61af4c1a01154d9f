import Neonfi.Wallet.Tokens

/-!
# The body of a Moralis delivery

`MoralisPayloadSchema` fixes the shape of a body and leaves the fields of its transfers open:
they are JSON values of any kind, and the conversions of the language decide what becomes of
them.
-/

namespace Neonfi.Webhooks

open Ledger (Js Failure require digits? isJsSpace)

/-- A value that `JSON.parse` returns.  A numeral too large for a double reads as infinite. -/
inductive JsonValue
  | null
  | bool (b : Bool)
  | number (x : ℚ)
  | infinity (negative : Bool)
  | string (s : String)
  | array (items : List JsonValue)
  | object (fields : List (String × JsonValue))

/-- An exception of the language that reaches the caller. -/
def typeError : Failure := .database "TypeError"

def rangeError : Failure := .database "RangeError"

/-- Prisma's refusal of an argument of the wrong type. -/
def invalidArgument : Failure := .database "PrismaClientValidationError"

namespace JsonValue

/-! ## Reading a value -/

def field (v : JsonValue) (key : String) : Option JsonValue :=
  match v with
  | object fields => (fields.find? fun entry => entry.1 = key).map Prod.snd
  | _ => none

def isObject : JsonValue → Bool
  | object _ => true
  | _ => false

def text? : JsonValue → Option String
  | string s => some s
  | _ => none

def truthy : JsonValue → Bool
  | null => false
  | bool b => b
  | number x => x ≠ 0
  | string s => s ≠ ""
  | _ => true

/-- The left operand of `??`: a field that is there and not null. -/
def present : Option JsonValue → Option JsonValue
  | some null => none
  | v => v

mutual

/-- `String(v)`.  An object that brings a `toString` of its own has nothing to call, and the
conversion throws. -/
def toText (js : Js) : JsonValue → Option String
  | null => some "null"
  | bool b => some (if b then "true" else "false")
  | number x => some (js.numberToString x)
  | infinity negative => some (if negative then "-Infinity" else "Infinity")
  | string s => some s
  | array items => (itemTexts js items).map (",".intercalate ·)
  | object fields =>
      if fields.any fun entry => entry.1 = "toString" then none else some "[object Object]"

/-- `join` prints null as the empty text. -/
def itemTexts (js : Js) : List JsonValue → Option (List String)
  | [] => some []
  | null :: items => (itemTexts js items).map ("" :: ·)
  | v :: items =>
      match toText js v, itemTexts js items with
      | some text, some texts => some (text :: texts)
      | _, _ => none

end

/-- `Number(v)` where it is finite; a text is read by `stringToNumber`. -/
def toNumber (js : Js) (stringToNumber : String → Option ℚ) :
    JsonValue → Except Failure (Option ℚ)
  | null => .ok (some 0)
  | bool b => .ok (some (if b then 1 else 0))
  | number x => .ok (some x)
  | infinity _ => .ok none
  | string s => .ok (stringToNumber s)
  | array items => do
      let text ← require ((array items).toText js) typeError
      return stringToNumber text
  | object fields => do
      let _ ← require ((object fields).toText js) typeError
      return none

end JsonValue

open JsonValue

/-! ## The schema -/

structure MoralisPayload where
  txs : Option (List JsonValue)
  erc20Transfers : Option (List JsonValue)
  nftTransfers : Option (List JsonValue)
  chainId : Option String
  confirmed : Option Bool
  block : Option JsonValue

namespace MoralisPayloadSchema

/-- A field that may be left out, but not be null. -/
def optional {α : Type} (read : JsonValue → Option α) (v : JsonValue) (key : String) :
    Option (Option α) :=
  match v.field key with
  | none => some none
  | some v => (read v).map some

def transferArray : JsonValue → Option (List JsonValue)
  | array items => if items.all isObject then some items else none
  | _ => none

def boolean : JsonValue → Option Bool
  | .bool b => some b
  | _ => none

def plainObject (v : JsonValue) : Option JsonValue := if v.isObject then some v else none

def safeParse (v : JsonValue) : Option MoralisPayload :=
  if v.isObject then do
    let txs ← optional transferArray v "txs"
    let erc20Transfers ← optional transferArray v "erc20Transfers"
    let nftTransfers ← optional transferArray v "nftTransfers"
    let chainId ← optional text? v "chainId"
    let _ ← optional text? v "streamId"
    let _ ← optional text? v "tag"
    let confirmed ← optional boolean v "confirmed"
    let block ← optional plainObject v "block"
    return { txs, erc20Transfers, nftTransfers, chainId, confirmed, block }
  else none

end MoralisPayloadSchema

/-! ## Units -/

/-- `CHAIN_NATIVE_SYMBOL`. -/
def chainNativeSymbol : List (String × String) :=
  [("0x1", "ETH"), ("0x89", "MATIC"), ("0x38", "BNB"), ("0xa4b1", "ETH"), ("0xa", "ETH"),
    ("0x2105", "ETH"), ("0xa86a", "AVAX"), ("solana", "SOL"), ("0xfa", "FTM"),
    ("0xe708", "ETH"), ("0x144", "ETH"), ("0x44d", "ETH"), ("0x19", "CRO"), ("0x64", "XDAI"),
    ("0x1388", "MNT")]

def nativeSymbol (moralisChainId : String) : Option String :=
  (chainNativeSymbol.find? fun entry => entry.1 = moralisChainId).map Prod.snd

def maxTokenDecimals : ℤ := 36

/-- `!str || str === '0'`. -/
def isZeroText (v : JsonValue) : Bool := !v.truthy || v.text? = some "0"

section Conversions

variable (js : Js)

/-- `BigInt` of a value whose text is all digits. -/
def bigInt (v : JsonValue) (digits : ℕ) : Option ℕ :=
  match v with
  | number x => if x.den = 1 ∧ 0 ≤ x then some x.num.toNat else none
  | _ => some digits

/-- `none` is null, the value that is no plain integer. -/
def safeBigInt (v : JsonValue) : Except Failure (Option ℕ) := do
  let text ← require (v.toText js) typeError
  return (digits? text.toList).bind (bigInt v)

def convertWeiToEther (wei : JsonValue) : Except Failure (Option ℚ) :=
  if isZeroText wei then .ok (some 0)
  else do
    let wei ← safeBigInt js wei
    return wei.map fun (wei : ℕ) => (wei : ℚ) / 10 ^ 18

/-- `parseInt(s, 10)`; `none` is `NaN`. -/
def parseInt (s : String) : Option ℤ :=
  let number (cs : List Char) : Option ℤ :=
    (digits? (cs.takeWhile Char.isDigit)).map fun n => (n : ℤ)
  match s.toList.dropWhile isJsSpace with
  | '-' :: cs => (number cs).map fun n => -n
  | '+' :: cs => number cs
  | cs => number cs

def inDecimalsRange (decimals : ℤ) : Bool := 0 ≤ decimals && decimals ≤ maxTokenDecimals

def convertTokenAmount (value decimals : JsonValue) : Except Failure (Option ℚ) :=
  if isZeroText value then .ok (some 0)
  else do
    let text ← require ((if decimals.truthy then decimals else string "18").toText js) typeError
    match (parseInt text).filter inDecimalsRange with
    | none => return none
    | some decimals =>
        let raw ← safeBigInt js value
        return raw.map fun (raw : ℕ) => (raw : ℚ) / 10 ^ decimals.toNat

end Conversions

example : parseInt " 18 tokens" = some 18 := by decide

end Neonfi.Webhooks

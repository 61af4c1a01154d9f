import Neonfi.Lib.Numeric
import Mathlib.Data.List.Sort

/-!
# Wallet summaries

What a provider reports of a wallet, and the finalizer that every provider hands its tokens
to.  A JavaScript number is an exact rational here.
-/

namespace Neonfi.Wallet

open Lib

/-! ## Decimal columns -/

/-- `Decimal(20,8)`. -/
abbrev column : Numeric := .decimal 12 8

/-- The double that the literal `999999999999.99999999` denotes. -/
def maxDecimal20_8 : ℚ := 10 ^ 12

/-- `toDecimalString`: eight places, clamped to a magnitude. -/
def toDecimalString (n : ℚ) : ℚ := column.fix (min (max n 0) maxDecimal20_8)

/-- `signedDec8`: the same for a number that keeps its sign. -/
def signedDec8 (n : ℚ) : ℚ := column.fix (max (-maxDecimal20_8) (min maxDecimal20_8 n))

/-- A magnitude within the range of the column is rounded and nothing else. -/
theorem toDecimalString_eq {n : ℚ} (h0 : 0 ≤ n) (h : n ≤ maxDecimal20_8) :
    toDecimalString n = column.fix n := by
  unfold toDecimalString
  rw [max_eq_left h0, min_eq_left h]

theorem fix_maxDecimal : column.fix maxDecimal20_8 = maxDecimal20_8 := by
  unfold maxDecimal20_8
  decide +kernel

/-- The clamp itself is out of the range of the column. -/
theorem not_fits_of_maxDecimal_le {n : ℚ} (h : maxDecimal20_8 ≤ n) :
    column.fits (toDecimalString n) = false := by
  have hpos : (0 : ℚ) ≤ maxDecimal20_8 := by
    unfold maxDecimal20_8
    positivity
  unfold toDecimalString
  rw [max_eq_left (hpos.trans h), min_eq_right h, fix_maxDecimal]
  unfold maxDecimal20_8
  decide +kernel

/-! ## Summaries -/

structure WalletToken where
  symbol : String
  name : Option String := none
  contractAddress : Option String
  balance : ℚ
  decimals : Option ℕ := none
  usdPrice : Option ℚ := none
  usdValue : Option ℚ := none
  isNative : Bool := false
  deriving DecidableEq, Repr

structure WalletSummary where
  nativeSymbol : String
  nativeBalance : ℚ
  totalUsd : Option ℚ
  tokenCount : ℕ
  tokens : List WalletToken
  provider : String
  deriving DecidableEq, Repr

def maxTokens : ℕ := 100

/-- `byUsdValueDesc a b ≤ 0`: value descending, nulls last. -/
def byUsdValueDesc (a b : WalletToken) : Prop :=
  match a.usdValue, b.usdValue with
  | none, none => True
  | none, some _ => False
  | some _, none => True
  | some x, some y => y ≤ x

instance : DecidableRel byUsdValueDesc := fun a b =>
  match ha : a.usdValue, hb : b.usdValue with
  | none, none => .isTrue (by unfold byUsdValueDesc; rw [ha, hb]; trivial)
  | none, some _ => .isFalse (by unfold byUsdValueDesc; rw [ha, hb]; exact id)
  | some _, none => .isTrue (by unfold byUsdValueDesc; rw [ha, hb]; trivial)
  | some x, some y => decidable_of_iff (y ≤ x) (by unfold byUsdValueDesc; rw [ha, hb])

def buildSummary (providerName : String) (keptTokens : List WalletToken)
    (fallbackNativeSymbol : String) : WalletSummary :=
  let tokens := (keptTokens.insertionSort byUsdValueDesc).take maxTokens
  let native := tokens.find? WalletToken.isNative
  let priced := tokens.filterMap WalletToken.usdValue
  { nativeSymbol := (native.map WalletToken.symbol).getD fallbackNativeSymbol
    nativeBalance := (native.map WalletToken.balance).getD 0
    totalUsd := if priced.isEmpty then none else some priced.sum
    tokenCount := tokens.length
    tokens
    provider := providerName }

theorem tokens_buildSummary (name native : String) (kept : List WalletToken) :
    (buildSummary name kept native).tokens =
      (kept.insertionSort byUsdValueDesc).take maxTokens := rfl

theorem length_buildSummary (name native : String) (kept : List WalletToken) :
    (buildSummary name kept native).tokens.length = min maxTokens kept.length := by
  rw [tokens_buildSummary, List.length_take, List.length_insertionSort]

/-- A summary of at most the cap drops no token. -/
theorem perm_buildSummary {name native : String} {kept : List WalletToken}
    (h : kept.length ≤ maxTokens) : (buildSummary name kept native).tokens.Perm kept := by
  rw [tokens_buildSummary, List.take_of_length_le (by rw [List.length_insertionSort]; exact h)]
  exact List.perm_insertionSort _ _

theorem mem_of_mem_buildSummary {name native : String} {kept : List WalletToken}
    {t : WalletToken} (h : t ∈ (buildSummary name kept native).tokens) : t ∈ kept := by
  rw [tokens_buildSummary] at h
  exact (List.mem_insertionSort _).mp (List.mem_of_mem_take h)

theorem nodup_buildSummary {name native : String} {kept : List WalletToken} (h : kept.Nodup) :
    (buildSummary name kept native).tokens.Nodup := by
  rw [tokens_buildSummary]
  exact ((List.perm_insertionSort _ _).nodup_iff.mpr h).sublist (List.take_sublist _ _)

end Neonfi.Wallet

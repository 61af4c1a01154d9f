import Neonfi.Ledger.Transactions

/-!
# Cells of a bulk import

The shared helpers of the two bulk endpoints: reading a cell as a trimmed string, checking
a number or a date, and turning a date into a timestamp.
-/

namespace Neonfi.Ledger

open Lib

/-- The runtime's case mappings and its printing of numbers. -/
structure Js where
  toUpperCase : String → String
  toLowerCase : String → String
  numberToString : ℚ → String

/-- A row of the request: the `String` form of the cells that are present and not null. -/
abbrev BulkRow := String → Option String

inductive BulkMode
  | allOrNothing
  | skipInvalid
  deriving DecidableEq, Repr

structure BulkBody where
  mode : BulkMode
  rows : List BulkRow

structure BulkResult where
  imported : ℕ
  skipped : ℕ
  errors : List BulkRowError
  deriving DecidableEq, Repr

def bulkRowCap : ℕ := 500

def tooManyRows : Failure := .bulk 400 "TOO_MANY_ROWS" "At most 500 rows per import" []

def notManual : Failure :=
  .bulk 400 "NOT_MANUAL" "CSV import is only available for manual portfolios" []

def bulkValidationFailed (errors : List BulkRowError) : Failure :=
  .bulk 400 "BULK_VALIDATION_FAILED"
    s!"{errors.length} row(s) failed validation; nothing was imported" errors

/-! ## Strings -/

/-- The characters `String.prototype.trim` removes. -/
def isJsSpace (c : Char) : Bool :=
  let n := c.toNat
  (9 ≤ n && n ≤ 13) || n = 32 || n = 0xA0 || n = 0x1680 || (0x2000 ≤ n && n ≤ 0x200A) ||
    n = 0x2028 || n = 0x2029 || n = 0x202F || n = 0x205F || n = 0x3000 || n = 0xFEFF

def trim (s : String) : String :=
  String.ofList ((s.toList.dropWhile isJsSpace).reverse.dropWhile isJsSpace).reverse

def cellStr (row : BulkRow) (key : String) : String := trim ((row key).getD "")

def normalizeSymbol (js : Js) (value : String) : String := js.toUpperCase (trim value)

/-- The value of a non-empty string of digits. -/
def digits? (cs : List Char) : Option ℕ :=
  if cs ≠ [] ∧ cs.all Char.isDigit then
    some (cs.foldl (fun n c => 10 * n + (c.toNat - '0'.toNat)) 0)
  else none

/-- The value of a string that matches `^\d+(\.\d+)?$`. -/
def decimal? (s : String) : Option ℚ :=
  match s.toList.splitOn '.' with
  | [whole] => (digits? whole).map fun n => (n : ℚ)
  | [whole, frac] =>
      match digits? whole, digits? frac with
      | some n, some f => some (n + f / 10 ^ frac.length)
      | _, _ => none
  | _ => none

def numberCellError (value : String) (positive : Bool) : Option String :=
  match decimal? value with
  | none => some s!"expected a number, got '{value}'"
  | some n =>
      if positive ∧ ¬ 0 < n then some s!"must be greater than 0, got '{value}'"
      else if 10 ^ 12 ≤ n then some "is too large (must be under 1000000000000)"
      else none

/-! ## Dates -/

def isLeapYear (y : ℕ) : Bool := (y % 4 = 0 && y % 100 ≠ 0) || y % 400 = 0

def daysInMonth (y m : ℕ) : ℕ :=
  if m = 2 then if isLeapYear y then 29 else 28
  else if m = 4 ∨ m = 6 ∨ m = 9 ∨ m = 11 then 30 else 31

/-- Days from 1970-01-01 to a date of the proleptic Gregorian calendar. -/
def daysSinceEpoch (y m d : ℕ) : ℤ :=
  let shifted : ℤ := if m ≤ 2 then y - 1 else y
  let era := shifted / 400
  let yearOfEra := shifted - era * 400
  let dayOfYear : ℤ := (153 * ((m + 9) % 12 : ℕ) + 2) / 5 + d - 1
  let dayOfEra := yearOfEra * 365 + yearOfEra / 4 - yearOfEra / 100 + dayOfYear
  era * 146097 + dayOfEra - 719468

def msPerDay : ℤ := 86400000

/-- The year, month and day of a string that matches `^\d{4}-\d{2}-\d{2}$`. -/
def ymd? (s : String) : Option (ℕ × ℕ × ℕ) :=
  match s.toList.splitOn '-' with
  | [y, m, d] =>
      if y.length = 4 ∧ m.length = 2 ∧ d.length = 2 then
        match digits? y, digits? m, digits? d with
        | some y, some m, some d => some (y, m, d)
        | _, _, _ => none
      else none
  | _ => none

/-- A real calendar date; `Date.UTC` moves the years 0 to 99 into the 1900s, so they fail
the comparison with what was typed. -/
def realDate (y m d : ℕ) : Bool :=
  100 ≤ y && 1 ≤ m && m ≤ 12 && 1 ≤ d && d ≤ daysInMonth y m

def endOfDay (now : Millis) : Millis := now / msPerDay * msPerDay + (msPerDay - 1)

/-- The first millisecond of a valid cell date that is not in the future. -/
def cellDate? (value : String) (now : Millis) : Option Millis :=
  match ymd? value with
  | none => none
  | some (y, m, d) =>
      let dt := daysSinceEpoch y m d * msPerDay
      if realDate y m d ∧ dt ≤ endOfDay now then some dt else none

def dateCellError (value : String) (now : Millis) : Option String :=
  match cellDate? value now with
  | some _ => none
  | none => some "date must be YYYY-MM-DD and not in the future"

example : (cellDate? "2024-02-29" 1800000000000) = some 1709164800000 := by decide +kernel

end Neonfi.Ledger

import TagSearch.Text.Words
import TagSearch.Text.Decimal

/-! Points in time to the second, as the catalog writes them: `2024-11-20 14:35:09`. -/
namespace TagSearch

structure Timestamp where
  year : Int
  month : Nat
  day : Nat
  hour : Nat
  minute : Nat
  second : Nat
deriving Repr, DecidableEq

namespace Timestamp
open Text

def isLeapYear (year : Int) : Bool :=
  year % 4 = 0 && (year % 100 ≠ 0 || year % 400 = 0)

def daysIn (year : Int) (month : Nat) : Nat :=
  if month = 2 then (if isLeapYear year then 29 else 28)
  else if month = 4 ∨ month = 6 ∨ month = 9 ∨ month = 11 then 30
  else 31

/-- A date of the calendar and a time of day; second 60 is a leap second. -/
def isValid (t : Timestamp) : Bool :=
  -262143 ≤ t.year && t.year ≤ 262142 && 1 ≤ t.month && t.month ≤ 12 && 1 ≤ t.day &&
    t.day ≤ daysIn t.year t.month && t.hour ≤ 23 && t.minute ≤ 59 && t.second ≤ 60

def skipBlanks (text : List Char) : List Char := text.dropWhile isBlank

/-- A number of at most `width` digits with blanks in front, and what follows it. -/
def number? (width : Nat) (text : List Char) : Option (Nat × List Char) :=
  let text := skipBlanks text
  let digits := (text.take width).takeWhile isDigit
  (natural? digits).map fun n => (n, text.drop digits.length)

/-- A year of at most four digits, or a sign and any number of digits. -/
def year? (text : List Char) : Option (Int × List Char) :=
  match skipBlanks text with
  | '-' :: rest => if rest.head?.any isDigit then (number? rest.length rest).map fun (n, r) => (-(n : Int), r) else none
  | '+' :: rest => if rest.head?.any isDigit then (number? rest.length rest).map fun (n, r) => ((n : Int), r) else none
  | rest => (number? 4 rest).map fun (n, r) => ((n : Int), r)

def after? (c : Char) : List Char → Option (List Char)
  | d :: rest => if d = c then some rest else none
  | [] => none

/-- Year, month, day, hour, minute and second with their separators; blanks may stand before each number. -/
def parse? (text : String) : Option Timestamp := do
  let (year, rest) ← year? text.toList
  let (month, rest) ← number? 2 (← after? '-' rest)
  let (day, rest) ← number? 2 (← after? '-' rest)
  let (hour, rest) ← number? 2 rest
  let (minute, rest) ← number? 2 (← after? ':' rest)
  let (second, rest) ← number? 2 (← after? ':' rest)
  let stamp : Timestamp := ⟨year, month, day, hour, minute, second⟩
  if rest.isEmpty && stamp.isValid then some stamp else none

/-- Four digits for the years 0 to 9999; other years have a sign. -/
def renderYear (year : Int) : String :=
  if 0 ≤ year ∧ year ≤ 9999 then padded 4 year.toNat
  else (if year < 0 then "-" else "+") ++ padded 4 year.natAbs

/-- Date and time in universal time: `2024-11-20T14:35:09Z`. -/
def render (t : Timestamp) : String :=
  renderYear t.year ++ "-" ++ padded 2 t.month ++ "-" ++ padded 2 t.day ++ "T" ++ padded 2 t.hour ++ ":" ++
    padded 2 t.minute ++ ":" ++ padded 2 t.second ++ "Z"

end Timestamp
end TagSearch

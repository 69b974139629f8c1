import TagSearch.Timestamp

/-! Dates and times in TOML: `1979-05-27`, `07:32:00.5`, or both with an optional offset from universal time. -/
namespace TagSearch.Toml
open Text Timestamp

/-- A number of exactly `width` digits between two bounds, and what follows it. -/
def fixed? (width low high : Nat) (text : List Char) : Option (Nat × List Char) :=
  let digits := text.take width
  if digits.length = width then
    (natural? digits).bind fun n => if low ≤ n ∧ n ≤ high then some (n, text.drop width) else none
  else none

/-- What follows a date of the calendar. -/
def afterDate? (text : List Char) : Option (List Char) := do
  let (year, rest) ← fixed? 4 0 9999 text
  let (month, rest) ← fixed? 2 1 12 (← after? '-' rest)
  let (_, rest) ← fixed? 2 1 (daysIn year month) (← after? '-' rest)
  return rest

/-- What follows a fraction of a second; a point needs a digit. -/
def afterFraction? : List Char → Option (List Char)
  | '.' :: rest => if rest.head?.any isDigit then some (rest.dropWhile isDigit) else none
  | rest => some rest

/-- What follows a time of day; second 60 is a leap second. -/
def afterTime? (text : List Char) : Option (List Char) := do
  let (_, rest) ← fixed? 2 0 23 text
  let (_, rest) ← fixed? 2 0 59 (← after? ':' rest)
  let (_, rest) ← fixed? 2 0 60 (← after? ':' rest)
  afterFraction? rest

def isOffset (text : List Char) : Bool :=
  match text with
  | ['Z'] => true
  | ['z'] => true
  | sign :: rest =>
    (sign == '+' || sign == '-') && ((do
      let (_, rest) ← fixed? 2 0 23 rest
      let (_, rest) ← fixed? 2 0 59 (← after? ':' rest)
      return rest) == some [])
  | [] => false

def isDate (text : List Char) : Bool := afterDate? text == some []

/-- A date, a time, or a date and a time with a `T` or a blank between them. -/
def isMoment (text : List Char) : Bool :=
  match afterDate? text with
  | some [] => true
  | some (c :: rest) =>
    (c == 'T' || c == 't' || c == ' ') &&
      match afterTime? rest with
      | some [] => true
      | some offset => isOffset offset
      | none => false
  | none => afterTime? text == some []

end TagSearch.Toml

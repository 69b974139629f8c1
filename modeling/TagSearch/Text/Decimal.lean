/-! Decimal numbers as they are written in queries, options and files. -/
namespace TagSearch.Text

def isDigit (c : Char) : Bool := '0' ≤ c && c ≤ '9'

def digitValue (c : Char) : Nat := c.toNat - '0'.toNat

/-- The value of a run of digits that continues `value`; none if another character occurs. -/
def naturalFrom (value : Nat) : List Char → Option Nat
  | [] => some value
  | c :: rest => if isDigit c then naturalFrom (10 * value + digitValue c) rest else none

/-- The value of a non-empty run of digits. -/
def natural? : List Char → Option Nat
  | [] => none
  | c :: rest => naturalFrom 0 (c :: rest)

/-- Whether a number is negative, and its text without the sign. -/
def splitSign : List Char → Bool × List Char
  | '-' :: rest => (true, rest)
  | '+' :: rest => (false, rest)
  | rest => (false, rest)

/-- An unsigned number of 64 bits: an optional plus sign and digits. -/
def word? (text : List Char) : Option UInt64 :=
  let digits := match text with
    | '+' :: rest => rest
    | _ => text
  match natural? digits with
  | some n => if n < UInt64.size then some (UInt64.ofNat n) else none
  | none => none

/-- A signed number of 64 bits: an optional sign and digits. -/
def integer? : List Char → Option Int64
  | '-' :: digits => (natural? digits).bind fun n => if n ≤ 1 <<< 63 then some (Int64.ofInt (-n)) else none
  | '+' :: digits => (natural? digits).bind fun n => if n < 1 <<< 63 then some (Int64.ofInt n) else none
  | digits => (natural? digits).bind fun n => if n < 1 <<< 63 then some (Int64.ofInt n) else none

/-- The number in decimal digits, with zeros in front up to the given width. -/
def padded (width n : Nat) : String :=
  let digits := toString n
  String.ofList (List.replicate (width - digits.length) '0') ++ digits

end TagSearch.Text

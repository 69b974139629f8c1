import TagSearch.Text.Decimal

/-! Texts that denote numbers. A whole number of 64 bits is exact; another number is rounded to double precision. -/
namespace TagSearch.Sql
open Text

/-- The number `significand * 2 ^ exponent`. -/
structure Double where
  significand : Int
  exponent : Int
deriving Repr, DecidableEq

/-- The quotient rounded to the nearest number, a half to the even one. -/
def roundDiv (n d : Nat) : Nat :=
  if d < 2 * (n % d) ∨ (2 * (n % d) = d ∧ (n / d) % 2 = 1) then n / d + 1 else n / d

/-- The fraction `n / d` with 53 significant bits, fewer where the least exponent of double precision ends them. -/
def Double.ofFraction (negative : Bool) (n d : Nat) : Double :=
  let scaled (exponent : Int) : Nat × Nat := (n <<< (-exponent).toNat, d <<< exponent.toNat)
  let low : Int := (n.log2 : Int) - d.log2 - 53
  let exponent := max (-1074) (if (scaled low).1 < (scaled low).2 <<< 53 then low else low + 1)
  let significand : Int := roundDiv (scaled exponent).1 (scaled exponent).2
  ⟨if negative then -significand else significand, exponent⟩

/-- The number `digits * 10 ^ exponent` in double precision. -/
def Double.ofDecimal (negative : Bool) (digits : Nat) (exponent : Int) : Double :=
  .ofFraction negative (digits * Nat.pow 10 exponent.toNat) (Nat.pow 10 (-exponent).toNat)

/-- An integer compared with a number of double precision, exactly. -/
def Double.compareFrom (n : Int) (x : Double) : Ordering :=
  compare (n <<< (-x.exponent).toNat) (x.significand <<< x.exponent.toNat)

/-- Once the digits read so far reach this number, further digits only count as places. -/
def significandLimit : Nat := (UInt64.size - 1 - 9) / 10

/-- The number that leading digits make, and the digits that no longer fit. -/
def significand (value : Nat) : List Char → Nat × List Char
  | [] => (value, [])
  | c :: rest =>
    if value < significandLimit then significand (10 * value + digitValue c) rest else (value, c :: rest)

inductive Numeral
  | integer (n : Int64)
  | real (x : Double)
deriving Repr, DecidableEq

/-- A blank that may surround a number. -/
def isMargin (c : Char) : Bool := c == ' ' || ('\t' ≤ c && c ≤ '\r')

def withoutMargins (text : List Char) : List Char :=
  ((text.dropWhile isMargin).reverse.dropWhile isMargin).reverse

/-- Exponents from here on are alike. -/
def exponentLimit : Nat := 10000

/-- What follows the digits of a number: nothing, or an exponent; none if it is neither. -/
def exponent? : List Char → Option Int
  | [] => some 0
  | c :: rest =>
    if c == 'e' || c == 'E' then
      let (negative, digits) := splitSign rest
      (natural? digits).map fun n => if negative then -(min n exponentLimit : Int) else min n exponentLimit
    else none

/-- The number that a text denotes: a sign, digits with at most one point among them, and an exponent. -/
def numeral? (text : List Char) : Option Numeral :=
  let (negative, unsigned) := splitSign (withoutMargins text)
  let (whole, rest) := unsigned.span isDigit
  let (fraction, tail) := match rest with
    | '.' :: rest => rest.span isDigit
    | _ => ([], rest)
  if whole.isEmpty && fraction.isEmpty then none
  else match exponent? tail with
    | none => none
    | some exponent =>
      let (digits, dropped) := significand 0 (whole ++ fraction)
      let approximate := Numeral.real (.ofDecimal negative digits (exponent + dropped.length - fraction.length))
      if rest.isEmpty then ((integer? (withoutMargins text)).map Numeral.integer).getD approximate else approximate

end TagSearch.Sql

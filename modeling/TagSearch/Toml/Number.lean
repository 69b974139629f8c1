import TagSearch.Text.Decimal

/-! Numbers in TOML. An underscore may stand between two digits. -/
namespace TagSearch.Toml
open Text

/-- The digits of a number without its underscores; `after` tells whether a digit stands in front. -/
def ungroup (isDigit : Char → Bool) (after : Bool) : List Char → Option (List Char)
  | [] => if after then some [] else none
  | c :: rest =>
    if c = '_' then (if after then ungroup isDigit false rest else none)
    else if isDigit c then (ungroup isDigit true rest).map (c :: ·)
    else none

/-- Decimal digits that may begin with zeros. -/
def digits? (text : List Char) : Option (List Char) := ungroup isDigit false text

/-- Decimal digits without a zero in front, unless the zero is all. -/
def unpadded? (text : List Char) : Option (List Char) :=
  if text.head? = some '0' ∧ text ≠ ['0'] then none else digits? text

def digitOf (c : Char) : Nat :=
  if isDigit c then c.toNat - '0'.toNat
  else if 'a' ≤ c then c.toNat - 'a'.toNat + 10
  else c.toNat - 'A'.toNat + 10

def ofDigits (base : Nat) (digits : List Char) : Nat :=
  digits.foldl (fun value c => base * value + digitOf c) 0

def isHexDigit (c : Char) : Bool := isDigit c || ('a' ≤ c && c ≤ 'f') || ('A' ≤ c && c ≤ 'F')

/-- A whole number that fits into 64 bits. -/
def fit? (n : Int) : Option Int64 :=
  if Int64.minValue.toInt ≤ n ∧ n ≤ Int64.maxValue.toInt then some (Int64.ofInt n) else none

/-- A whole number: decimal with an optional sign, or without a sign in base 16, 8 or 2. -/
def integer? (text : List Char) : Option Int64 :=
  match text with
  | '0' :: 'x' :: rest => (ungroup isHexDigit false rest).bind fun ds => fit? (ofDigits 16 ds)
  | '0' :: 'o' :: rest => (ungroup (fun c => '0' ≤ c && c ≤ '7') false rest).bind fun ds => fit? (ofDigits 8 ds)
  | '0' :: 'b' :: rest => (ungroup (fun c => c == '0' || c == '1') false rest).bind fun ds => fit? (ofDigits 2 ds)
  | _ =>
    let (negative, rest) := splitSign text
    (unpadded? rest).bind fun ds => fit? (if negative then -(ofDigits 10 ds : Int) else ofDigits 10 ds)

/-- Whether `digits · 10 ^ exponent`, for a number of `size` digits, rounds to infinity in 64 bits. -/
def overflows (size digits : Nat) (exponent : Int) : Bool :=
  if size + exponent ≤ 308 then false
  else if 400 < exponent then digits ≠ 0
  else 1 <<< 1024 - 1 <<< 970 ≤ digits * Nat.pow 10 exponent.toNat / Nat.pow 10 (-exponent).toNat

/-- An exponent without its letter; it may begin with zeros. -/
def exponent? (text : List Char) : Option Int :=
  let (negative, rest) := splitSign text
  (digits? rest).map fun ds => if negative then -(ofDigits 10 ds : Int) else ofDigits 10 ds

/-- Whether a text is a number with a fraction or an exponent. A positive number must not round to infinity. -/
def isFloat (text : List Char) : Bool :=
  let (negative, rest) := splitSign text
  let isMark (c : Char) : Bool := c == 'e' || c == 'E'
  let (number, scale) := (rest.takeWhile (!isMark ·), (rest.dropWhile (!isMark ·)).drop 1)
  let scaled := rest.any isMark
  let (whole, fraction) := (number.takeWhile (· ≠ '.'), (number.dropWhile (· ≠ '.')).drop 1)
  let pointed := number.contains '.'
  match unpadded? whole, (if pointed then digits? fraction else some []),
      (if scaled then exponent? scale else some 0) with
  | some ws, some fs, some e =>
    let ds := ws ++ fs
    (pointed || scaled) && (negative || !overflows ds.length (ofDigits 10 ds) (e - fs.length))
  | _, _, _ => false

/-- Infinity or no number, with an optional sign. -/
def isSpecial (text : List Char) : Bool :=
  let word := String.ofList (splitSign text).2
  word == "inf" || word == "nan"

end TagSearch.Toml

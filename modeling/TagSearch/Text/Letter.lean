/-! Letter case. Names keep the letters a to z only, so lower case matters where it meets them. -/
namespace TagSearch.Text

/-- Lower case of the letters A to Z; every other character stays. -/
def lowerAscii (c : Char) : Char :=
  if 'A' ≤ c ∧ c ≤ 'Z' then Char.ofNat (c.toNat + 32) else c

/-- Lower case with the two letters outside A to Z whose lower case holds a letter a to z: the Kelvin sign and
the capital I with a dot, which becomes an i and a combining dot. Other letters stay as they are. -/
def foldCase (c : Char) : List Char :=
  if c = '\u212a' then ['k'] else if c = '\u0130' then ['i', '\u0307'] else [lowerAscii c]

def lowerAsciiText (text : String) : String :=
  String.ofList (text.toList.map lowerAscii)

/-- The part of a text before its first NUL. -/
def beforeNul (text : List Char) : List Char :=
  text.takeWhile (· ≠ '\x00')

/-- Equality without regard to the case of A to Z. What follows a NUL is not looked at, but counts in the size. -/
def sameName (a b : String) : Bool :=
  (beforeNul a.toList).map lowerAscii == (beforeNul b.toList).map lowerAscii &&
    a.utf8ByteSize == b.utf8ByteSize

end TagSearch.Text

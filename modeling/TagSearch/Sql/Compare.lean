import TagSearch.Sql.Like
import TagSearch.Sql.Numeral
import TagSearch.Sql.Statement

/-! How the database engine compares values. -/
namespace TagSearch.Sql

/-- A value as a comparison by size sees it. -/
inductive Operand
  | number (x : Numeral)
  | text (s : String)
deriving Repr, DecidableEq

/-- What an affinity makes of a value. -/
def Affinity.operand : Affinity → Value → Operand
  | .text, .integer n => .text (toString n.toInt)
  | .numeric, .text s => ((numeral? s.toList).map .number).getD (.text s)
  | _, .integer n => .number (.integer n)
  | _, .text s => .text s

/-- Numbers by size, texts by code points, and every number before every text. -/
def Value.compareTo : Value → Operand → Ordering
  | integer a, .number (.integer b) => compare a.toInt b.toInt
  | integer a, .number (.real x) => x.compareFrom a.toInt
  | integer _, .text _ => .lt
  | text _, .number _ => .gt
  | text a, .text b => if a < b then .lt else if a = b then .eq else .gt

/-- The text that a pattern comparison sees, whatever the affinity. -/
def Value.asText : Value → String
  | integer n => toString n.toInt
  | text s => s

def escapeChar (escaped : Bool) : Option Char := if escaped then some '\\' else none

/-- Whether a comparison holds between a value of the given affinity and a value without one. -/
def holds (affinity : Affinity) (comparator : Comparator) (left right : Value) (escaped : Bool) : Bool :=
  match comparator with
  | .eq => left.compareTo (affinity.operand right) = .eq
  | .ne => left.compareTo (affinity.operand right) ≠ .eq
  | .lt => left.compareTo (affinity.operand right) = .lt
  | .le => left.compareTo (affinity.operand right) ≠ .gt
  | .gt => left.compareTo (affinity.operand right) = .gt
  | .ge => left.compareTo (affinity.operand right) ≠ .lt
  | .like => like (escapeChar escaped) right.asText left.asText
  | .notLike => !like (escapeChar escaped) right.asText left.asText

end TagSearch.Sql

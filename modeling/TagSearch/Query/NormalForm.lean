import TagSearch.Comparator
import TagSearch.Text.Letter
import TagSearch.Text.Words

/-! The normal form of a token: a tag name, or a metatag with a comparator and a value. -/
namespace TagSearch.Query

inductive NormalForm
  | tag (name : String)
  | metatag (name : String) (comparator : Comparator) (value : String)
deriving Repr, DecidableEq

/-- Characters of a name: a to z, digits and the underscore. -/
def isNameChar (c : Char) : Bool :=
  ('a' ≤ c && c ≤ 'z') || ('0' ≤ c && c ≤ '9') || c == '_'

/-- Characters of a metatag's value: also the point and the minus sign. -/
def isValueChar (c : Char) : Bool :=
  isNameChar c || c == '.' || c == '-'

/-- Every other character becomes an underscore. -/
def sanitize (allowed : Char → Bool) (text : List Char) : List Char :=
  text.map fun c => if allowed c then c else '_'

/-- Split off the comparator at the start of a metatag's value; none means equality. -/
def splitComparator : List Char → Comparator × List Char
  | '>' :: '=' :: value => (.ge, value)
  | '<' :: '=' :: value => (.le, value)
  | '>' :: value => (.gt, value)
  | '<' :: value => (.lt, value)
  | '=' :: value => (.eq, value)
  | value => (.eq, value)

/-- What stands before and after the only occurrence of a character. -/
def splitAtOnly? (c : Char) (text : List Char) : Option (List Char × List Char) :=
  if text.count c = 1 then some (text.takeWhile (· ≠ c), (text.dropWhile (· ≠ c)).drop 1) else none

/-- Lower case, with the words joined by underscores. -/
def collapse (text : List Char) : List Char :=
  Text.joinWith '_' (Text.words (text.flatMap Text.foldCase))

def normalizeChars (text : List Char) : NormalForm :=
  match splitAtOnly? ':' (collapse text) with
  | some (name, value) =>
    let (comparator, value) := splitComparator value
    .metatag (String.ofList (sanitize isNameChar name)) comparator (String.ofList (sanitize isValueChar value))
  | none => .tag (String.ofList (sanitize isNameChar (collapse text)))

/-- A token with exactly one colon is a metatag; every other token is a tag. -/
def normalize (token : String) : NormalForm :=
  normalizeChars token.toList

/-- The written form: a metatag's comparator is left out when it is equality. -/
def NormalForm.render : NormalForm → String
  | tag name => name
  | metatag name .eq value => name ++ ":" ++ value
  | metatag name comparator value => name ++ ":" ++ comparator.sql ++ value

end TagSearch.Query

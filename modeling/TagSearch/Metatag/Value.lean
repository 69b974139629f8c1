import TagSearch.Similarity
import TagSearch.Text.Decimal

/-! The values of metatags, and the values that are read without the catalog. -/
namespace TagSearch.Metatag

inductive Value
  | text (s : String)
  | integer (n : Int64)
  | user (id : UInt64)
  | flag (b : Bool)
  /-- A pattern in which `%` and `_` are wildcards and a backslash takes their meaning away. -/
  | pattern (s : String)
  | hashes (pair : HashPair)
deriving Repr, DecidableEq

def Value.render : Value → String
  | text s => s
  | integer n => toString n.toInt
  | user id => "user #" ++ toString id
  | flag b => if b then "true" else "false"
  | pattern s => s
  | hashes pair => pair.render

/-- Why a written value does not fit its metatag. -/
inductive ValueFault
  | noSuchUser | emptyText | notAnInteger | notAFlag | notTwoHashes | notAnImageId | noStoredHash
  | shortPattern | notHashes | onlyOrders
deriving Repr, DecidableEq

def ValueFault.message : ValueFault → String
  | noSuchUser => "no such user"
  | emptyText => "value is empty"
  | notAnInteger => "not an integer"
  | notAFlag => "expected yes or no"
  | notTwoHashes => "expected two unsigned hashes"
  | notAnImageId => "expected an image id"
  | noStoredHash => "image has no perceptual hash"
  | shortPattern => "pattern must be longer than 3 characters"
  | notHashes => "expected hashes"
  | onlyOrders => "hashes only order results"

def flag? (s : String) : Option Bool :=
  if s ∈ ["y", "yes", "true", "1"] then some true
  else if s ∈ ["n", "no", "false", "0"] then some false
  else none

/-- What a written value asks for literally: a pair of underscores, from the left, is a blank, and a single
underscore is escaped. -/
def literalPattern : List Char → List Char
  | '_' :: '_' :: rest => ' ' :: literalPattern rest
  | '_' :: rest => '\\' :: '_' :: literalPattern rest
  | c :: rest => c :: literalPattern rest
  | [] => []

/-- The pattern of all texts that contain the written value; a value of at most three characters has none. -/
def containsPattern? (s : String) : Option String :=
  if s.length ≤ 3 then none
  else some (String.ofList ('%' :: literalPattern s.toList ++ ['%']))

/-- What stands before and after the first point. -/
def splitPoint? : List Char → Option (List Char × List Char)
  | [] => none
  | c :: rest => if c = '.' then some ([], rest) else (splitPoint? rest).map fun (h, v) => (c :: h, v)

def hashPair? (horizontal vertical : List Char) : Option HashPair := do
  let h ← Text.word? horizontal
  let v ← Text.word? vertical
  some ⟨h, v⟩

end TagSearch.Metatag

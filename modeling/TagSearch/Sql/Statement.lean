import TagSearch.Comparator
import TagSearch.Kind
import TagSearch.Similarity

/-! The statements a search sends to the catalog database. -/
namespace TagSearch.Sql

/-- A value that is bound to a placeholder. -/
inductive Value
  | integer (n : Int64)
  | text (s : String)
deriving Repr, DecidableEq

/-- Columns of a searchable entity that a condition may compare. -/
inductive Column
  | uploader | rating | averageScore | totalScore | scoreVoters | name | location
deriving Repr, DecidableEq

def Column.sql : Column → String
  | uploader => "uploader_id"
  | rating => "rating"
  | averageScore => "score_average"
  | totalScore => "score_total"
  | scoreVoters => "score_voters"
  | name => "name"
  | location => "location"

/-- What a comparison does to the value on its other side. -/
inductive Affinity
  /-- Integers become texts. -/
  | text
  /-- Texts that denote numbers become numbers. -/
  | numeric
  /-- Values stay as they are. -/
  | none
deriving Repr, DecidableEq

def Column.affinity : Column → Affinity
  | rating | name | location => .text
  | uploader | averageScore | totalScore | scoreVoters => .numeric

/-- A query for the ids of entities. -/
inductive Owners
  /-- The owners of at least one of the tags. -/
  | carryingAny (kind : Kind) (tags : List Int64)
  /-- The owners of as many distinct tags as are listed. -/
  | carryingEvery (kind : Kind) (tags : List Int64)
  /-- The images that are members of a collection. -/
  | collected
deriving Repr, DecidableEq

/-- A condition on an entity `e`. -/
inductive Condition
  | isIn (owners : Owners)
  | isNotIn (owners : Owners)
  /-- A comparison of a column; `escaped` gives the pattern an escape character. -/
  | compare (column : Column) (comparator : Comparator) (value : Value) (escaped : Bool)
  /-- A comparison of the number of tags that are linked to an image. -/
  | tagCount (comparator : Comparator) (value : Value)
deriving Repr, DecidableEq

/-- Either no entity, or the entities of which all conditions hold. -/
inductive Clause
  | nothing
  | all (conditions : List Condition)
deriving Repr, DecidableEq

inductive Direction
  | previous | next
deriving Repr, DecidableEq

inductive Statement
  | count (kind : Kind) (clause : Clause)
  /-- A window of the matching entities: newest first, or nearest to a hash pair first. -/
  | page (kind : Kind) (clause : Clause) (nearest : Option HashPair) (limit offset : Int64)
  /-- The nearest matching id below or above a pivot. -/
  | adjacent (kind : Kind) (clause : Clause) (pivot : Int64) (direction : Direction)
deriving Repr, DecidableEq

end TagSearch.Sql

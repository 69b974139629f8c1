import TagSearch.Sql.Statement

/-! The metatags: what each one filters on and how its value is read. -/
namespace TagSearch.Metatag

/-- What a metatag filters on. -/
inductive Target
  | column (column : Sql.Column)
  | inCollection
  | tagCount
  /-- Nothing: it orders the result by similarity. -/
  | orderSimilar
deriving Repr, DecidableEq

inductive ValueKind
  | userName
  | text
  | integer
  | flag
  /-- The id of an image, or two hashes. -/
  | similarity
  | pattern
deriving Repr, DecidableEq

inductive ComparatorRule
  /-- The comparator that the query writes. -/
  | asWritten
  /-- Always this one. -/
  | forced (comparator : Comparator)
deriving Repr, DecidableEq

inductive Scope
  | images
  | all
deriving Repr, DecidableEq

structure Descriptor where
  name : String
  aliases : List String
  target : Target
  value : ValueKind
  comparator : ComparatorRule
  negatable : Bool
  scope : Scope
deriving Repr, DecidableEq

namespace Descriptor

def appliesTo (d : Descriptor) (kind : Kind) : Bool :=
  match d.scope with
  | .all => true
  | .images => kind = .image

def answersTo (d : Descriptor) (name : String) : Bool :=
  d.name = name || d.aliases.contains name

/-- The comparator of a token that writes the given one. -/
def chooseComparator (d : Descriptor) (written : Comparator) : Comparator :=
  match d.comparator with
  | .asWritten => written
  | .forced c => c

end Descriptor

def registry : List Descriptor :=
  [⟨"uploader", [], .column .uploader, .userName, .forced .eq, true, .all⟩,
   ⟨"rating", [], .column .rating, .text, .forced .eq, true, .images⟩,
   ⟨"score", ["averagescore"], .column .averageScore, .integer, .asWritten, true, .images⟩,
   ⟨"totalscore", [], .column .totalScore, .integer, .asWritten, true, .images⟩,
   ⟨"scorevoters", [], .column .scoreVoters, .integer, .asWritten, true, .images⟩,
   ⟨"incollection", [], .inCollection, .flag, .forced .eq, true, .images⟩,
   ⟨"tagcount", [], .tagCount, .integer, .asWritten, true, .images⟩,
   ⟨"ordersimilar", [], .orderSimilar, .similarity, .forced .eq, false, .images⟩,
   ⟨"name", [], .column .name, .pattern, .forced .like, true, .all⟩,
   ⟨"location", [], .column .location, .pattern, .forced .like, true, .images⟩]

/-- The metatag that a query for the given kind means by a name. -/
def lookup? (name : String) (kind : Kind) : Option Descriptor :=
  registry.find? fun d => d.answersTo name && d.appliesTo kind

/-- The metatag of the given canonical name, whatever the kind. -/
def descriptor? (key : String) : Option Descriptor :=
  registry.find? fun d => d.name = key

theorem mem_registry_of_lookup? {name : String} {kind : Kind} {d : Descriptor}
    (h : lookup? name kind = some d) : d ∈ registry :=
  List.mem_of_find?_eq_some h

theorem descriptor?_name {d : Descriptor} (h : d ∈ registry) : descriptor? d.name = some d := by
  revert d
  decide

end TagSearch.Metatag

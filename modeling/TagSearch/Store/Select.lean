import TagSearch.FirstOfKey
import TagSearch.Sql.Compare
import TagSearch.Sql.Text
import TagSearch.Store.Change

/-! What the statements of a search select from the tables. -/
namespace TagSearch
open Sql

/-- A row that conditions and orders look at: an entity, and the hashes that are joined to it. -/
structure Row where
  id : Int64
  column : Column → Option Value
  hashes : Option (Int64 × Int64)

def Image.column (i : Image) : Column → Value
  | .uploader => .integer i.uploader.toInt64
  | .rating => .text i.rating
  | .averageScore => .integer i.averageScore
  | .totalScore => .integer i.totalScore
  | .scoreVoters => .integer i.scoreVoters
  | .name => .text i.name
  | .location => .text i.location

def Collection.column (c : Collection) : Column → Option Value
  | .uploader => some (.integer c.uploader.toInt64)
  | .name => some (.text c.name)
  | _ => none

def Image.row (i : Image) : Row := ⟨i.id.toInt64, fun c => some (i.column c), none⟩

def Collection.row (c : Collection) : Row := ⟨c.id.toInt64, c.column, none⟩

namespace Store

def rows (s : Store) : Kind → List Row
  | .image => s.images.map Image.row
  | .collection => s.collections.map Collection.row

/-- The links between entities and tags. A collection carries the tags of its members, each tag once. -/
def associations (s : Store) : Kind → List (Int64 × Int64)
  | .image => s.links.map fun l => (l.image.toInt64, l.tag.toInt64)
  | .collection =>
    firstOfKey id (s.members.flatMap fun m =>
      (s.links.filter fun l => l.image = m.image).map fun l => (m.collection.toInt64, l.tag.toInt64))

/-- The associations with one of the tags. -/
def associationsWith (s : Store) (kind : Kind) (tags : List Int64) : List (Int64 × Int64) :=
  (s.associations kind).filter fun a => tags.contains a.2

/-- The number of distinct tags that a group of associations gives to an owner. -/
def distinctTags (owner : Int64) (associations : List (Int64 × Int64)) : Nat :=
  (firstOfKey id ((associations.filter fun a => a.1 = owner).map Prod.snd)).length

def owners (s : Store) : Owners → List Int64
  | .carryingAny kind tags => (s.associationsWith kind tags).map Prod.fst
  | .carryingEvery kind tags =>
    let found := s.associationsWith kind tags
    (firstOfKey id (found.map Prod.fst)).filter fun owner => distinctTags owner found = tags.length
  | .collected => s.members.map fun m => m.image.toInt64

def linkCount (s : Store) (row : Row) : Int64 :=
  Int64.ofNat (s.links.countP fun l => l.image.toInt64 = row.id)

def holds (s : Store) (row : Row) : Condition → Bool
  | .isIn owners => (s.owners owners).contains row.id
  | .isNotIn owners => !(s.owners owners).contains row.id
  | .compare column comparator value escaped =>
    match row.column column with
    | some left => Sql.holds column.affinity comparator left value escaped
    | none => false
  | .tagCount comparator value => Sql.holds .none comparator (.integer (s.linkCount row)) value false

def satisfies (s : Store) (clause : Clause) (row : Row) : Bool :=
  match clause with
  | .nothing => false
  | .all conditions => conditions.all (s.holds row)

/-- The rows of which a clause holds. -/
def matching (s : Store) (kind : Kind) (clause : Clause) : List Row :=
  (s.rows kind).filter (s.satisfies clause)

/-- A row once with each pair of hashes that is stored for its image, or once without hashes. -/
def joinHashes (s : Store) (row : Row) : List Row :=
  match s.hashes.filter fun h => h.image.toInt64 = row.id with
  | [] => [row]
  | found => found.map fun h =>
      { row with hashes := some (h.pair.horizontal.toInt64, h.pair.vertical.toInt64) }

/-- The number of differing bits of two integers. -/
def hammingOf (a b : Int64) : Nat := hamming a.toUInt64 b.toUInt64

/-- The distance of a row's hashes to a pair, none for a row without hashes. -/
def rowDistance (target : HashPair) (row : Row) : Option Nat :=
  row.hashes.map fun (h, v) => hammingOf h target.horizontal.toInt64 + hammingOf v target.vertical.toInt64

/-- Newer rows come first. -/
def newerFirst (a b : Row) : Bool := b.id ≤ a.id

/-- Rows with hashes come first, in the order of their distance; of equally distant rows the newer one. -/
def nearerFirst (target : HashPair) (a b : Row) : Bool :=
  match rowDistance target a, rowDistance target b with
  | some x, some y => x < y || (x == y && newerFirst a b)
  | some _, none => true
  | none, some _ => false
  | none, none => newerFirst a b

/-- A negative offset skips nothing and a negative limit is none. -/
def window {α : Type} (limit offset : Int64) (entries : List α) : List α :=
  let rest := entries.drop offset.toInt.toNat
  if limit < 0 then rest else rest.take limit.toInt.toNat

/-- The rows of a page in order. -/
def ordered (s : Store) (kind : Kind) (clause : Clause) : Option HashPair → List Row
  | none => (s.matching kind clause).mergeSort newerFirst
  | some target => ((s.matching kind clause).flatMap s.joinHashes).mergeSort (nearerFirst target)

/-- The ids that a page or a neighbour statement selects, in order. -/
def select (s : Store) : Statement → List UInt64
  | .count .. => []
  | .page kind clause nearest limit offset =>
    (window limit offset (s.ordered kind clause nearest)).map fun row => row.id.toUInt64
  | .adjacent kind clause pivot .previous =>
    (window 1 0 (((s.matching kind clause).filter fun row => row.id < pivot).mergeSort newerFirst)).map
      fun row => row.id.toUInt64
  | .adjacent kind clause pivot .next =>
    (window 1 0 (((s.matching kind clause).filter fun row => pivot < row.id).mergeSort
      fun a b => newerFirst b a)).map fun row => row.id.toUInt64

/-- The number that a count statement selects. -/
def count (s : Store) : Statement → UInt64
  | .count kind clause => UInt64.ofNat (s.matching kind clause).length
  | _ => 0

def imageSummary? (s : Store) (id : UInt64) : Option ImageSummary :=
  (s.images.find? fun i => i.id = id).map fun i =>
    ⟨i.id, i.name, i.location, i.uploader, i.rating, i.averageScore⟩

/-- Members of lower weight come first, of equal weight the older image. -/
def lighterFirst (a b : Member) : Bool :=
  a.weight < b.weight || (a.weight = b.weight && a.image.toInt64 ≤ b.image.toInt64)

def membersOf (s : Store) (collection : UInt64) : List Member :=
  s.members.filter fun m => m.collection = collection

/-- The locations of a collection's members in their order. -/
def memberLocations (s : Store) (collection : UInt64) : List String :=
  ((s.membersOf collection).mergeSort lighterFirst).filterMap fun m =>
    (s.images.find? fun i => i.id = m.image).map Image.location

def collectionSummary? (s : Store) (id : UInt64) : Option CollectionSummary :=
  (s.collections.find? fun c => c.id = id).map fun c =>
    ⟨c.id, c.name, (s.memberLocations id).head?, UInt64.ofNat (s.membersOf id).length⟩

end Store
end TagSearch

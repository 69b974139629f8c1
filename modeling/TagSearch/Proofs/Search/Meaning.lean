import Mathlib.Tactic.Lemma
import TagSearch.Plan
import TagSearch.Store.Select

/-! What predicates ask of an entity, said of the tables of a catalog and not of the statements that search them. -/
namespace TagSearch

/-- An entity that can be searched. -/
inductive Entity
  | image (image : Image)
  | collection (collection : Collection)
deriving Repr, DecidableEq

namespace Entity

def kind : Entity → Kind
  | image _ => .image
  | collection _ => .collection

def id : Entity → UInt64
  | image i => i.id
  | collection c => c.id

/-- The row of the entity in its table. -/
def row : Entity → Row
  | image i => i.row
  | collection c => c.row

/-- What a column holds, none if the entity has no such column. -/
def column? : Entity → Sql.Column → Option Metatag.Value
  | image i, .uploader => some (.user i.uploader)
  | image i, .rating => some (.text i.rating)
  | image i, .averageScore => some (.integer i.averageScore)
  | image i, .totalScore => some (.integer i.totalScore)
  | image i, .scoreVoters => some (.integer i.scoreVoters)
  | image i, .name => some (.text i.name)
  | image i, .location => some (.text i.location)
  | collection c, .uploader => some (.user c.uploader)
  | collection c, .name => some (.text c.name)
  | collection _, _ => none

@[simp] lemma row_id (e : Entity) : e.row.id = e.id.toInt64 := by cases e <;> rfl

end Entity

namespace Comparator

/-- What a comparator says of two integers. A pattern comparison looks at their decimal texts. -/
def OfIntegers : Comparator → Int → Int → Prop
  | eq, a, b => a = b
  | ne, a, b => a ≠ b
  | lt, a, b => a < b
  | le, a, b => a ≤ b
  | gt, a, b => b < a
  | ge, a, b => b ≤ a
  | like, a, b => Sql.like none (toString b) (toString a) = true
  | notLike, a, b => Sql.like none (toString b) (toString a) = false

/-- What a comparator says of a stored value and the value of a metatag. -/
def OfValues : Comparator → Metatag.Value → Metatag.Value → Prop
  | eq, .user a, .user b => a = b
  | ne, .user a, .user b => a ≠ b
  | eq, .flag a, .flag b => a = b
  | ne, .flag a, .flag b => a ≠ b
  | eq, .text a, .text b => a = b
  | ne, .text a, .text b => a ≠ b
  | like, .text a, .pattern b => Sql.like (some '\\') b a = true
  | notLike, .text a, .pattern b => Sql.like (some '\\') b a = false
  | c, .integer a, .integer b => c.OfIntegers a.toInt b.toInt
  | _, _, _ => False

end Comparator

namespace Store

/-- The catalog has the entity. -/
def Has (s : Store) : Entity → Prop
  | .image i => i ∈ s.images
  | .collection c => c ∈ s.collections

/-- An image carries the tags that are linked to it, and a collection those of its members. -/
def Carries (s : Store) : Entity → UInt64 → Prop
  | .image i, tag => ⟨i.id, tag⟩ ∈ s.links
  | .collection c, tag => ∃ m ∈ s.members, m.collection = c.id ∧ ⟨m.image, tag⟩ ∈ s.links

/-- The links of an image, one for each of its tags. -/
def linksOf (s : Store) (image : UInt64) : List TagLink :=
  s.links.filter fun l => l.image = image

/-- Whether an image is a member of some collection. -/
def isCollected (s : Store) (image : UInt64) : Bool :=
  s.members.any fun m => m.image = image

/-- The condition of a metatag holds of an entity. Ordering by similarity asks nothing of it. -/
def Meets (s : Store) (e : Entity) (c : MetaCondition) : Prop :=
  match (Metatag.descriptor? c.key).map Metatag.Descriptor.target, e with
  | some (.column column), e => ∃ stored, e.column? column = some stored ∧ c.comparator.OfValues stored c.value
  | some .inCollection, .image i => c.comparator.OfValues (.flag (s.isCollected i.id)) c.value
  | some .tagCount, .image i =>
    ∃ n, c.value = .integer n ∧ c.comparator.OfIntegers (s.linksOf i.id).length n.toInt
  | some .orderSimilar, _ => True
  | _, _ => False

/-- An entity has what a predicate asks for. A tag that the catalog does not know, or that stands for nothing, is
carried by no entity, and to exclude it asks nothing. -/
def Satisfies (s : Store) (e : Entity) (p : Predicate) : Prop :=
  match p.condition with
  | some c => s.Meets e c
  | none =>
    if p.excluded then p.known → ¬ s.Carries e p.tagKey
    else p.known ∧ p.tagKey ≠ 0 ∧ s.Carries e p.tagKey

/-- The ids that a search without a window selects, in order. -/
def found (s : Store) (kind : Kind) (predicates : List Predicate) : Except SearchError (List UInt64) :=
  (Plan.ofPredicates predicates kind).map fun plan => s.select (plan.pageStatement 0 0)

variable {s : Store} {e : Entity} {p : Predicate}

lemma satisfies_of_condition {c : MetaCondition} (h : p.condition = some c) : s.Satisfies e p ↔ s.Meets e c := by
  simp [Satisfies, h]

lemma satisfies_of_excluded (h : p.condition = none) (hx : p.excluded = true) :
    s.Satisfies e p ↔ (p.known → ¬ s.Carries e p.tagKey) := by
  simp [Satisfies, h, hx]

lemma satisfies_of_included (h : p.condition = none) (hx : p.excluded = false) :
    s.Satisfies e p ↔ p.known ∧ p.tagKey ≠ 0 ∧ s.Carries e p.tagKey := by
  simp [Satisfies, h, hx]

/-- Where a predicate comes from does not change what it asks for. -/
@[simp] lemma satisfies_asUserFilter : s.Satisfies e p.asUserFilter ↔ s.Satisfies e p := Iff.rfl

end Store
end TagSearch

import TagSearch.Catalog
import TagSearch.Comparator
import TagSearch.Metatag.Value

/-! Predicates: what the tokens of a query ask of an entity, with everything the catalog knows of their tags. -/
namespace TagSearch

/-- The condition of a metatag; `key` is its canonical name. -/
structure MetaCondition where
  key : String
  value : Metatag.Value
  comparator : Comparator
deriving Repr, DecidableEq

structure Predicate extends Tag where
  known : Bool
  excluded : Bool
  fromUserFilter : Bool
  /-- The condition of a metatag, none for a plain tag. -/
  condition : Option MetaCondition
deriving Repr, DecidableEq

namespace Predicate

def unknown (name : String) (excluded : Bool) : Predicate where
  id := 0
  name := name
  description := ""
  uploader := 0
  uploaded := none
  aliased := 0
  isAlias := false
  known := false
  excluded := excluded
  fromUserFilter := false
  condition := none

def ofTag (tag : Tag) (excluded : Bool) : Predicate where
  toTag := tag
  known := true
  excluded := excluded
  fromUserFilter := false
  condition := none

def ofCondition (condition : MetaCondition) (excluded : Bool) : Predicate :=
  { unknown condition.key excluded with known := true, condition := some condition }

/-- The tag that entities carry: an alias counts as the tag it stands for. -/
def tagKey (p : Predicate) : UInt64 := if p.isAlias then p.aliased else p.id

def isMeta (p : Predicate) : Bool := p.condition.isSome

/-- The predicate as part of a stored user filter. -/
def asUserFilter (p : Predicate) : Predicate := { p with fromUserFilter := true }

def render (p : Predicate) : String :=
  (if p.excluded then "-" else "") ++ p.name ++
    match p.condition with
    | some c => " [" ++ c.comparator.sql ++ " " ++ c.value.render ++ "]"
    | none =>
      if !p.known then " (unknown)"
      else if p.isAlias then " (#" ++ toString p.id ++ " -> #" ++ toString p.aliased ++ ")"
      else " (#" ++ toString p.id ++ ")"

end Predicate
end TagSearch

import TagSearch.Plan
import TagSearch.Source

/-! Searches: a window of the matches, the neighbours of an image, and a random image. -/
namespace TagSearch

/-- One page of a result and the size of the whole result. -/
structure ResultPage (α : Type) where
  items : List α
  total : UInt64
  stride : UInt64
deriving Repr, DecidableEq

/-- The nearest matching images below and above an image. -/
structure Neighbours where
  previous : Option UInt64
  next : Option UInt64
deriving Repr, DecidableEq

namespace Search

/-- Count the matches of a plan and fetch one window of them, both of one state of the catalog. -/
def run {α : Type} (plan : Plan) (start stride : UInt64) (fetch : Sql.Statement → Inquiry (List α)) :
    Inquiry (ResultPage α) :=
  if plan.matchesNothing then pure ⟨[], 0, stride⟩
  else do
    Inquiry.snapshot
    let total ← Inquiry.countMatches plan.countStatement
    if start ≥ total then pure ⟨[], total, stride⟩
    else do
      let items ← fetch (plan.pageStatement start stride)
      pure ⟨items, total, stride⟩

def images (predicates : List Predicate) (start stride : UInt64) : Inquiry (ResultPage ImageSummary) := do
  let plan ← Inquiry.ofExcept (Plan.ofPredicates predicates .image)
  run plan start stride Inquiry.fetchImages

def collections (predicates : List Predicate) (start stride : UInt64) :
    Inquiry (ResultPage CollectionSummary) := do
  let plan ← Inquiry.ofExcept (Plan.ofPredicates predicates .collection)
  run plan start stride Inquiry.fetchCollections

/-- The matching images next to the given id, which need not match itself. -/
def neighbours (predicates : List Predicate) (pivot : UInt64) : Inquiry Neighbours :=
  if pivot = 0 then Inquiry.fail .invalidPivot
  else do
    let plan ← Inquiry.ofExcept (Plan.ofPredicates predicates .image)
    if plan.matchesNothing then pure ⟨none, none⟩
    else do
      Inquiry.snapshot
      let previous ← Inquiry.fetchId (plan.adjacentStatement pivot .previous)
      let next ← Inquiry.fetchId (plan.adjacentStatement pivot .next)
      pure ⟨previous, next⟩

/-- A matching image; `draw` picks a place among the given number of them. -/
def randomImage (predicates : List Predicate) (draw : UInt64 → UInt64) : Inquiry ImageSummary := do
  let plan ← Inquiry.ofExcept (Plan.ofPredicates predicates .image)
  if plan.matchesNothing then Inquiry.fail .noResults
  else do
    Inquiry.snapshot
    let total ← Inquiry.countMatches plan.countStatement
    if total = 0 then Inquiry.fail .noResults
    else do
      match ← Inquiry.fetchImages (plan.pageStatement (draw total) 1) with
      | image :: _ => pure image
      | [] => Inquiry.fail .noResults

end Search
end TagSearch

import TagSearch.CommandLine.Arguments
import TagSearch.CountCache
import TagSearch.PageMenu
import TagSearch.Query.Parse
import TagSearch.Search

/-! What the commands print that only ask the catalog. -/
namespace TagSearch.CommandLine

def lines (texts : List String) : String := String.join (texts.map (· ++ "\n"))

def columns (texts : List String) : String := String.intercalate "\t" texts

/-- A predicate; those of the stored filter are marked. -/
def predicateLine (p : Predicate) : String :=
  p.render ++ if p.fromUserFilter then "  (filter)" else ""

def imageLine (i : ImageSummary) : String :=
  columns [toString i.id, i.name, i.location, i.rating, toString i.averageScore.toInt]

def collectionLine (c : CollectionSummary) : String :=
  columns [toString c.id, c.name, toString c.members ++ " images", c.preview.getD "-"]

/-- The size of a page and of the whole result, and the page menu if the result has pages. -/
def footer {α : Type} (page : ResultPage α) (start : UInt64) : List String :=
  (toString page.items.length ++ " of " ++ toString page.total ++ " results") ::
    if page.stride = 0 then []
    else
      match PageMenu.build start page.stride page.total with
      | .ok menu => [menu.render]
      | .error _ => []

def pageReport {α : Type} (line : α → String) (start : UInt64) (page : ResultPage α) : String :=
  lines (page.items.map line ++ footer page start)

def neighbour (id : Option UInt64) : String :=
  match id with
  | some id => toString id
  | none => "-"

/-- What a query asks for: its text, the user whose filter counts, and the window. -/
structure Request where
  query : String
  user : Option UInt64
  kind : Kind
  start : UInt64
  stride : UInt64
deriving Repr, DecidableEq

namespace Request

def predicates (r : Request) (kind : Kind) : Inquiry (List Predicate) := Query.parseFor r.query r.user kind

def parseReport (r : Request) : Inquiry String := do
  return lines ((← r.predicates r.kind).map predicateLine)

def imageReport (r : Request) : Inquiry String := do
  return pageReport imageLine r.start (← Search.images (← r.predicates .image) r.start r.stride)

def collectionReport (r : Request) : Inquiry String := do
  return pageReport collectionLine r.start (← Search.collections (← r.predicates .collection) r.start r.stride)

def adjacentReport (r : Request) (pivot : UInt64) : Inquiry String := do
  let found ← Search.neighbours (← r.predicates .image) pivot
  return lines ["prev: " ++ neighbour found.previous, "next: " ++ neighbour found.next]

/-- A random matching image; `draw` picks a place among the given number of them. -/
def randomReport (r : Request) (draw : UInt64 → UInt64) : Inquiry String := do
  let image ← Search.randomImage (← r.predicates .image) draw
  return lines [columns [toString image.id, image.name, image.location]]

end Request
end TagSearch.CommandLine

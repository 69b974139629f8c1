import TagSearch.FirstOfKey
import TagSearch.Predicate
import TagSearch.Source

/-!
The tags of a query. Names that the catalog does not know stay as unknown predicates, and an alias brings the tag
that it stands for along, one level deep.
-/
namespace TagSearch.Query

/-- A tag name and whether the query excludes it. -/
structure Request where
  name : String
  excluded : Bool
deriving Repr, DecidableEq

/-- The last row of the given key, and the rows without that key. -/
def takeRow {κ : Type} [DecidableEq κ] (key : Tag → κ) (k : κ) (rows : List Tag) : Option Tag × List Tag :=
  ((rows.filter fun t => key t = k).getLast?, rows.filter fun t => key t ≠ k)

/-- The requests in order, each with its own row: a row answers one request only. -/
def matchRequests : List Request → List Tag → List Predicate
  | [], _ => []
  | request :: rest, rows =>
    match takeRow Tag.name request.name rows with
    | (some tag, others) => .ofTag tag request.excluded :: matchRequests rest others
    | (none, others) => .unknown request.name request.excluded :: matchRequests rest others

/-- An alias whose tag is to be brought along. -/
def pointsElsewhere (p : Predicate) : Bool := p.known && p.isAlias && p.aliased ≠ 0

/-- The tags that the aliases stand for and that are not there yet, each with the sign of its first alias. -/
def wantedTargets (resolved : List Predicate) : List (UInt64 × Bool) :=
  let present := (resolved.filter fun p => p.known).map fun p => p.id
  let targets := (resolved.filter pointsElsewhere).map fun p => (p.aliased, p.excluded)
  firstOfKey Prod.fst (targets.filter fun t => !present.contains t.1)

/-- The targets that the catalog has, in the order in which they are wanted. -/
def foundTargets (wanted : List (UInt64 × Bool)) (rows : List Tag) : List Predicate :=
  wanted.filterMap fun (id, excluded) => (takeRow Tag.id id rows).1.map fun tag => .ofTag tag excluded

def resolve (requests : List Request) : Inquiry (List Predicate) :=
  if requests.isEmpty then pure []
  else do
    let rows ← Inquiry.tagsByNames (requests.map Request.name)
    let resolved := matchRequests requests rows
    let wanted := wantedTargets resolved
    if wanted.isEmpty then pure resolved
    else do
      let rows ← Inquiry.tagsByIds (wanted.map Prod.fst)
      pure (resolved ++ foundTargets wanted rows)

end TagSearch.Query

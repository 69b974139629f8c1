import TagSearch.Metatag.Registry
import TagSearch.Ordered
import TagSearch.Predicate
import TagSearch.SearchError

/-!
The plan of a search. Predicates become one clause that the count, the pages and the neighbours share, so that a
count describes exactly the entities that the pages show.
-/
namespace TagSearch

structure Plan where
  kind : Kind
  clause : Sql.Clause
  /-- The hashes that the pages are ordered by. -/
  similarTo : Option HashPair
deriving Repr, DecidableEq

namespace Plan
open Sql

/-- Keys in ascending order, each once. -/
def keySet (keys : List UInt64) : List UInt64 :=
  Ordered.ofList UInt64.toNat keys

/-- The keys that the plain tags of one sign ask for. -/
def tagKeys (excluded : Bool) (predicates : List Predicate) : List UInt64 :=
  keySet ((predicates.filter fun p => !p.isMeta && p.known && p.excluded == excluded && p.tagKey ≠ 0).map
    Predicate.tagKey)

/-- No entity carries a tag that the catalog does not know, or that an alias to nothing stands for. -/
def isUnsatisfiable (p : Predicate) : Bool :=
  !p.isMeta && !p.excluded && (!p.known || p.tagKey = 0)

/-- The conditions of the plain tags. -/
def tagConditions (kind : Kind) (predicates : List Predicate) : List Condition :=
  let included := (tagKeys false predicates).map UInt64.toInt64
  let excluded := (tagKeys true predicates).map UInt64.toInt64
  (if included.isEmpty then [] else [.isIn (.carryingEvery kind included)]) ++
    (if excluded.isEmpty then [] else [.isNotIn (.carryingAny kind excluded)])

inductive Part
  | condition (condition : Condition)
  | order (target : HashPair)
deriving Repr, DecidableEq

/-- The value that a metatag's condition binds. -/
def bound (condition : MetaCondition) : Except SearchError Value :=
  match condition.value with
  | .text s | .pattern s => .ok (.text s)
  | .integer n => .ok (.integer n)
  | .user id => .ok (.integer id.toInt64)
  | .flag b => .ok (.integer (if b then 1 else 0))
  | .hashes _ => .error (.invalidValue condition.key condition.value.render .onlyOrders)

def isPatternValue : Metatag.Value → Bool
  | .pattern _ => true
  | _ => false

/-- Whether a condition on membership asks for members. -/
def wantsMembers (condition : MetaCondition) : Bool :=
  (condition.value = .flag true) == (condition.comparator = .eq)

/-- What the metatag of the given name and sign adds. -/
def partOf (kind : Kind) (name : String) (excluded : Bool) (condition : MetaCondition) :
    Except SearchError Part :=
  match (Metatag.descriptor? condition.key).filter (·.appliesTo kind) with
  | none => .error (.metatagUnrecognized name)
  | some d =>
    match d.target with
    | .column column => do
      return .condition (.compare column condition.comparator (← bound condition) (isPatternValue condition.value))
    | .inCollection =>
      .ok (.condition (if wantsMembers condition then .isIn .collected else .isNotIn .collected))
    | .tagCount => do
      return .condition (.tagCount condition.comparator (← bound condition))
    | .orderSimilar =>
      if excluded then .error (.inversionUnsupported name condition.comparator)
      else match condition.value with
        | .hashes target => .ok (.order target)
        | value => .error (.invalidValue name value.render .notHashes)

/-- The parts of the metatags, in order; the first one that fails decides. -/
def parts (kind : Kind) : List Predicate → Except SearchError (List Part)
  | [] => .ok []
  | p :: rest =>
    match p.condition with
    | none => parts kind rest
    | some condition => do
      let part ← partOf kind p.name p.excluded condition
      let more ← parts kind rest
      return part :: more

def Part.condition? : Part → Option Condition
  | condition c => some c
  | order _ => none

def Part.order? : Part → Option HashPair
  | condition _ => none
  | order target => some target

def ofPredicates (predicates : List Predicate) (kind : Kind) : Except SearchError Plan := do
  let parts ← parts kind predicates
  let clause :=
    if predicates.any isUnsatisfiable then .nothing
    else .all (tagConditions kind predicates ++ parts.filterMap Part.condition?)
  return ⟨kind, clause, (parts.filterMap Part.order?).head?⟩

/-- An included tag can never be carried. -/
def matchesNothing (plan : Plan) : Bool := plan.clause = .nothing

def countStatement (plan : Plan) : Statement := .count plan.kind plan.clause

/-- A window of the matching entities; stride 0 asks for all of them from the start on. -/
def pageStatement (plan : Plan) (start stride : UInt64) : Statement :=
  .page plan.kind plan.clause (if plan.kind = .image then plan.similarTo else none)
    (if stride = 0 then -1 else stride.toInt64) start.toInt64

def adjacentStatement (plan : Plan) (pivot : UInt64) (direction : Direction) : Statement :=
  .adjacent plan.kind plan.clause pivot.toInt64 direction

end Plan
end TagSearch

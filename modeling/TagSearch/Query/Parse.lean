import TagSearch.Metatag.Interpret
import TagSearch.Query.Merge
import TagSearch.Query.NormalForm
import TagSearch.Query.Resolve
import TagSearch.Query.Token

/-! From the text of a query to its predicates. -/
namespace TagSearch.Query

/-- A token in normal form with its sign. -/
structure Term where
  form : NormalForm
  excluded : Bool
deriving Repr, DecidableEq

/-- Terms of one key count once. All spellings of a metatag share its canonical name, and a tag may share it. -/
def NormalForm.key (kind : Kind) : NormalForm → String
  | tag name => name
  | metatag name _ _ => ((Metatag.lookup? name kind).map Metatag.Descriptor.name).getD name

/-- The terms of a query: those with an empty key and all but the first of a key are dropped. -/
def terms (raw : String) (kind : Kind) : List Term :=
  firstOfKey (fun t => t.form.key kind)
    (((tokenize raw).map fun t => ⟨normalize t.text, t.negated⟩).filter fun t => !(t.form.key kind).isEmpty)

/-- A place in the result: the next tag of the query, or a metatag's predicate. -/
inductive Slot
  | tag (request : Request)
  | metatag (predicate : Predicate)
deriving Repr, DecidableEq

/-- Interpret the metatags in order; tags wait for the catalog. -/
def slotOf (kind : Kind) (term : Term) : Inquiry Slot :=
  match term.form with
  | .tag name => pure (.tag ⟨name, term.excluded⟩)
  | .metatag name comparator value => do
    return .metatag (← Metatag.interpret name comparator value term.excluded kind)

def Slot.request? : Slot → Option Request
  | tag request => some request
  | metatag _ => none

/-- Put the resolved tags back into their places, and what is left over behind them. -/
def fillSlots : List Slot → List Predicate → List Predicate
  | [], resolved => resolved
  | .metatag p :: slots, resolved => p :: fillSlots slots resolved
  | .tag _ :: slots, p :: resolved => p :: fillSlots slots resolved
  | .tag _ :: slots, [] => fillSlots slots []

/-- One slot for each term, in order; the first metatag that fails ends the inquiry. -/
def slotsOf (kind : Kind) : List Term → Inquiry (List Slot)
  | [] => pure []
  | term :: rest => do
    let slot ← slotOf kind term
    let slots ← slotsOf kind rest
    return slot :: slots

def parse (raw : String) (kind : Kind) : Inquiry (List Predicate) := do
  let slots ← slotsOf kind (terms raw kind)
  let resolved ← resolve (slots.filterMap Slot.request?)
  return fillSlots slots resolved

def userFilterPredicates (user : UInt64) (kind : Kind) : Inquiry (List Predicate) := do
  let raw ← Inquiry.userFilter user
  let predicates ← parse raw kind
  return predicates.map Predicate.asUserFilter

def mergeFilterText (query : List Predicate) (filter : String) (kind : Kind) : Inquiry (List Predicate) := do
  return merge query (← parse filter kind)

def parseFor (raw : String) (user : Option UInt64) (kind : Kind) : Inquiry (List Predicate) := do
  let query ← parse raw kind
  match user with
  | some id => return merge query (← userFilterPredicates id kind)
  | none => return query

end TagSearch.Query

import TagSearch.Sql.Limit
import TagSearch.Store.Select

/-! Database engines as what they refuse. All else that is said of a search holds whatever its engine refuses; the engine
that the program works with is one of them. -/
namespace TagSearch
open Sql

/-- What a database engine refuses. -/
structure Engine where
  /-- Why a statement is not taken as it reads, before its tables are looked up. -/
  rejects? : Statement → Option Fault
  /-- Why a statement that is taken has no answer from the tables. -/
  abandons? : Store → Statement → Option Fault

/-- Why an engine refuses a statement, none if it answers. -/
def Engine.refusal? (engine : Engine) (s : Store) (statement : Statement) : Option Fault :=
  (engine.rejects? statement).or (engine.abandons? s statement)

namespace Sql

/-- The depth of a query in the tables. The tags of collections come from a query of their own. -/
def Owners.innerDepth : Owners → Nat
  | carryingAny .collection _ => 3
  | owners => owners.depth

def Condition.innerDepth : Condition → Nat
  | isIn owners | isNotIn owners => owners.innerDepth
  | compare .. => 0
  | tagCount .. => 3

def Clause.innerDepth : Clause → Nat
  | nothing => 0
  | all conditions => (conditions.map Condition.innerDepth).foldl max 0

/-- The depth of a statement's condition, to which the condition of a joined table is added. -/
def Statement.depth (statement : Statement) : Nat :=
  let depth := statement.joinedPieces.foldl (fun depth piece => jointDepth depth piece.depth)
    statement.clause.firstPiece.depth
  match statement with
  | page _ _ (some _) .. => jointDepth depth 3
  | _ => depth

/-- Whether the condition of a statement is too deep in the tables, with the queries that are nested in it. -/
def Statement.isDeep (statement : Statement) : Bool :=
  depthLimit < statement.depth + statement.clause.innerDepth

/-- Whether a condition compares with a pattern that the engine does not take. -/
def Condition.hasLongPattern : Condition → Bool
  | compare _ comparator value _ | tagCount comparator value =>
    comparator.isPattern && patternLimit < value.asText.utf8ByteSize
  | _ => false

/-- Whether a condition names the owners of something. -/
def Condition.isOwners : Condition → Bool
  | isIn _ => true
  | _ => false

def Condition.isTagCount : Condition → Bool
  | tagCount .. => true
  | _ => false

/-- Whether a condition asks for one value of a column. -/
def Condition.seeks (column : Column) : Condition → Bool
  | compare other comparator .. => other = column ∧ comparator = .eq
  | _ => false

/-- Whether a condition can be decided in the index of a column, which has the values of the column and the ids. -/
def Condition.isIndexed (column : Column) : Condition → Bool
  | isIn _ | isNotIn _ => true
  | compare other .. => other = column
  | tagCount .. => false

def Statement.isAdjacent : Statement → Bool
  | adjacent .. => true
  | _ => false

/-- The column in whose index the engine finds the rows of a statement. -/
def Statement.index? (statement : Statement) (conditions : List Condition) : Option Column :=
  let byUploader := conditions.any (Condition.seeks .uploader)
  let byRating := conditions.any (Condition.seeks .rating)
  if statement.kind = .collection then none
  else if byUploader && byRating && statement.isAdjacent && !conditions.any Condition.isOwners then some .rating
  else if byUploader then some .uploader
  else if byRating then some .rating
  else none

/-- Conditions in the order in which the engine looks at them. It begins with what finds the rows, an index or the first
owners, and counts tags last. -/
def Condition.inOrder (index : Option Column) (conditions : List Condition) : List Condition :=
  let (first, rest) :=
    match index with
    | some column => conditions.partition (isIndexed column)
    | none => ((conditions.find? isOwners).toList, conditions.eraseP isOwners)
  first ++ rest.filter (!·.isTagCount) ++ rest.filter isTagCount

/-- Whether a row lies on the side of the pivot that a statement asks for. -/
def Statement.isBeside (statement : Statement) (row : Row) : Bool :=
  match statement with
  | adjacent _ _ pivot .previous => row.id < pivot
  | adjacent _ _ pivot .next => pivot < row.id
  | _ => true

end Sql

namespace Store

/-- Whether a row leads to a pattern of too great a size, if the conditions are looked at in order until one does not
hold. -/
def reachesLongPattern (s : Store) (row : Row) : List Condition → Bool
  | [] => false
  | c :: rest => c.hasLongPattern || (s.holds row c && s.reachesLongPattern row rest)

/-- Whether a statement meets a pattern of too great a size. Rows that are found by owners are looked at on both sides of
a pivot. -/
def meetsLongPattern (s : Store) (statement : Statement) : Bool :=
  match statement.clause with
  | .nothing => false
  | .all conditions =>
    let index := statement.index? conditions
    let isLookedAt (row : Row) := (index = none ∧ conditions.any Condition.isOwners) || statement.isBeside row
    conditions.any Condition.hasLongPattern &&
      ((s.rows statement.kind).filter isLookedAt).any fun row =>
        s.reachesLongPattern row (Condition.inOrder index conditions)

end Store

/-- The engine that the program works with. -/
def Engine.standard : Engine where
  rejects? := Statement.fault?
  abandons? s statement :=
    if statement.isDeep then some .tooDeep
    else if s.meetsLongPattern statement then some .patternTooLong
    else none

end TagSearch

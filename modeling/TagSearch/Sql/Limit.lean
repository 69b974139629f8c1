import TagSearch.Store.Fault

/-! Faults of a statement that the engine notices as it reads: escape characters after comparisons that take none, too
many values, and expressions that are nested too deeply. -/
namespace TagSearch.Sql

def Statement.clause : Statement → Clause
  | count _ clause => clause
  | page _ clause .. => clause
  | adjacent _ clause .. => clause

def Statement.kind : Statement → Kind
  | count kind _ => kind
  | page kind .. => kind
  | adjacent kind .. => kind

def Statement.headText : Statement → String
  | count kind _ => "SELECT COUNT(*) FROM " ++ table kind ++ " e WHERE "
  | page kind _ nearest .. =>
    "SELECT " ++ selectColumns kind ++ " FROM " ++ table kind ++ " e" ++ joinText nearest ++ " WHERE "
  | adjacent kind .. => "SELECT e.id FROM " ++ table kind ++ " e WHERE ("

/-- Where the text of a condition has an escape character after a comparison that takes none. -/
def Condition.misplacedEscape? : Condition → Option Nat
  | .compare column comparator value escaped =>
    if escaped && !comparator.isPattern then
      some ((Condition.compare column comparator value false).render.text.utf8ByteSize + 1)
    else none
  | _ => none

/-- The offset of the first misplaced escape character in the text of joined conditions. -/
def misplacedEscape? : List Condition → Option Nat
  | [] => none
  | c :: rest =>
    match c.misplacedEscape? with
    | some offset => some offset
    | none => (misplacedEscape? rest).map fun offset => c.render.text.utf8ByteSize + " AND ".utf8ByteSize + offset

/-- The offset of the first misplaced escape character in the text of a statement. -/
def Statement.misplacedEscape? (statement : Statement) : Option Nat :=
  match statement.clause with
  | .nothing => none
  | .all conditions => (Sql.misplacedEscape? conditions).map (statement.headText.utf8ByteSize + ·)

/-- The largest number of values that a statement may have. -/
def valueLimit : Nat := 32766

/-- The offset of the first placeholder that is too many. -/
def surplusValue? (text : String) : Option Nat :=
  (text.toList.zipIdx.filter (·.1 = '?'))[valueLimit]?.map Prod.snd

/-- The largest depth of an expression. -/
def depthLimit : Nat := 1000

/-- The depth of a query. A list of one value is read as a comparison with the value. -/
def Owners.depth : Owners → Nat
  | carryingAny _ [_] | carryingEvery .. => 3
  | carryingAny .. => 2
  | collected => 1

def Condition.depth : Condition → Nat
  | isIn owners => max 2 owners.depth + 1
  | isNotIn owners => max 2 owners.depth + 2
  | compare _ comparator .. => if comparator = .notLike then 4 else 3
  | tagCount comparator _ => if comparator = .notLike then 6 else 5

/-- The depth of two joined expressions. -/
def jointDepth (left right : Nat) : Nat := max left right + 1

/-- A part of an expression: its depth and its text. -/
structure Piece where
  depth : Nat
  text : String
deriving Repr, DecidableEq

/-- The first condition of a clause, which all others are joined to. -/
def Clause.firstPiece : Clause → Piece
  | nothing => ⟨2, "1 = 0"⟩
  | all [] => ⟨2, "1 = 1"⟩
  | all (c :: _) => ⟨c.depth, c.render.text⟩

/-- What is joined to the first condition of a statement, with the text in between. -/
def Statement.joinedPieces (statement : Statement) : List Piece :=
  (match statement.clause with
    | .nothing => []
    | .all conditions => conditions.tail.map fun c => ⟨c.depth, " AND " ++ c.render.text⟩) ++
  match statement with
  | adjacent .. => [⟨3, ") AND e.id < ?"⟩]
  | _ => []

/-- The place at which joined pieces become too deep; the expression before them ends at `stop`. -/
def excessDepth? (depth stop : Nat) : List Piece → Option Nat
  | [] => none
  | piece :: rest =>
    if depthLimit < jointDepth depth piece.depth then some (stop + piece.text.utf8ByteSize - 1)
    else excessDepth? (jointDepth depth piece.depth) (stop + piece.text.utf8ByteSize) rest

/-- The place in the text of a statement at which its condition becomes too deep. -/
def Statement.excessDepth? (statement : Statement) : Option Nat :=
  let first := statement.clause.firstPiece
  Sql.excessDepth? first.depth (statement.headText.utf8ByteSize + first.text.utf8ByteSize) statement.joinedPieces

/-- The fault at the earlier place. -/
def earlier? (left right : Option (Nat × Fault)) : Option (Nat × Fault) :=
  match left, right with
  | some x, some y => if y.1 < x.1 then some y else some x
  | some x, none => some x
  | none, right => right

/-- What is noticed first as the statement is read. An escape character is noticed together with the placeholder before
it. -/
def Statement.fault? (statement : Statement) : Option Fault :=
  let text := statement.render.text
  let depth := statement.excessDepth?.map fun place => (place, .tooDeep)
  let escape := statement.misplacedEscape?.map fun place => (place - 2, .syntaxNear "ESCAPE" text place)
  let value := (surplusValue? text).map fun place => (place, .tooManyValues text place)
  (earlier? depth (earlier? escape value)).map Prod.snd

end TagSearch.Sql

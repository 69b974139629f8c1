import TagSearch.Text.Letter

/-! Pattern matching in SQL: `%` stands for any text and `_` for one character. -/
namespace TagSearch.Sql

inductive LikeItem
  | anyText
  | anyChar
  /-- This character, in either case if it is one of the letters A to Z. -/
  | letter (c : Char)
deriving Repr, DecidableEq

/-- The items of a pattern; an escape character at the end has nothing to escape. -/
def likeItems? (escape : Option Char) : List Char → Option (List LikeItem)
  | [] => some []
  | c :: rest =>
    if some c = escape then
      match rest with
      | [] => none
      | d :: rest => (likeItems? escape rest).map (.letter d :: ·)
    else if c = '%' then (likeItems? escape rest).map (.anyText :: ·)
    else if c = '_' then (likeItems? escape rest).map (.anyChar :: ·)
    else (likeItems? escape rest).map (.letter c :: ·)

/-- All ends of a text, the longest first. -/
def suffixes : List Char → List (List Char)
  | [] => [[]]
  | c :: rest => (c :: rest) :: suffixes rest

/-- Whether an item of a pattern describes one character. -/
def LikeItem.isLike (item : LikeItem) (c : Char) : Bool :=
  match item with
  | letter d => Text.lowerAscii d == Text.lowerAscii c
  | _ => true

/-- What may be left of a text after one more item; `ends` are the possible ends before it, the longest first. -/
def LikeItem.step (ends : List (List Char)) (item : LikeItem) : List (List Char) :=
  match item with
  | anyText =>
    match ends with
    | [] => []
    | longest :: _ => suffixes longest
  | _ =>
    ends.filterMap fun text =>
      match text with
      | [] => none
      | c :: rest => if item.isLike c then some rest else none

/-- Whether the items describe the whole text. -/
def matchItems (items : List LikeItem) (text : List Char) : Bool :=
  (items.foldl LikeItem.step [text]).any List.isEmpty

/-- The engine does not tell the two noncharacters at the end of the first plane from the replacement character. -/
def readChar (c : Char) : Char := if c = '\ufffe' ∨ c = '\uffff' then '\ufffd' else c

/-- The characters that a pattern comparison reads; a NUL ends a text. -/
def readText (text : String) : List Char := (Text.beforeNul text.toList).map readChar

def like (escape : Option Char) (pattern text : String) : Bool :=
  match likeItems? escape (readText pattern) with
  | some items => matchItems items (readText text)
  | none => false

/-- The size in bytes of the longest pattern that the engine takes. -/
def patternLimit : Nat := 50000

end TagSearch.Sql

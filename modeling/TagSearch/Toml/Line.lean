import TagSearch.Toml.Moment
import TagSearch.Toml.Number
import TagSearch.Toml.Quoted
import TagSearch.Toml.Table

/-! The lines of a TOML document: entries and headers, between comments and empty lines. -/
namespace TagSearch.Toml
open Text

/-- A reader gives what it reads and what follows. -/
abbrev Reader (α : Type) := List Char → Option (α × List Char)

inductive Line
  /-- A value below dotted keys. -/
  | entry (path : List String) (name : String) (value : Value)
  | table (path : List String) (name : String)
  /-- The header of one of several tables. -/
  | item (path : List String) (name : String)

/-- How deep values may lie in each other, and how many keys a dotted key may have. -/
def depthLimit : Nat := 79

def skipSpaces (text : List Char) : List Char := text.dropWhile isSpace

/-- What follows the end of a line: blanks and a comment may stand before it. -/
def afterLine? (text : List Char) : Option (List Char) :=
  let rest := match skipSpaces text with
    | '#' :: comment => comment.dropWhile isPlain
    | rest => rest
  match rest with
  | [] => some []
  | '\n' :: rest => some rest
  | _ => none

/-- The text after blanks, comments and ends of lines. -/
def skipLines : Nat → List Char → Option (List Char)
  | 0, _ => none
  | fuel + 1, text =>
    match skipSpaces text with
    | '\n' :: rest => skipLines fuel rest
    | '#' :: rest => (afterLine? ('#' :: rest)).bind (skipLines fuel)
    | rest => some rest

def isKeyChar (c : Char) : Bool :=
  isDigit c || ('a' ≤ c && c ≤ 'z') || ('A' ≤ c && c ≤ 'Z') || c == '_' || c == '-'

/-- A bare key, or a quoted one on one line; blanks may stand around it. -/
def readKey : Reader String := fun text =>
  let text := skipSpaces text
  let bare := text.takeWhile isKeyChar
  let read := match Quotes.ofText? text with
    | some q => { q with multiline := false }.readBody (.text false) (text.drop 1)
    | none => if bare.isEmpty then none else some (bare, text.drop bare.length)
  read.map fun (key, rest) => (String.ofList key, skipSpaces rest)

/-- Keys with points between them: the last is the name, the others lead to it. -/
def readPath : Nat → Reader (List String × String)
  | 0, _ => none
  | limit + 1, text =>
    match readKey text with
    | some (key, '.' :: rest) => (readPath limit rest).map fun ((path, name), rest) => ((key :: path, name), rest)
    | some (key, rest) => some (([], key), rest)
    | none => none

/-- A character of a number, a date or a word. -/
def isAtomChar (c : Char) : Bool := isKeyChar c || c == '+' || c == '.' || c == ':'

/-- A number, a date, a time, or the word for a truth value. -/
def Value.ofAtom? (atom : List Char) : Option Value :=
  if atom = "true".toList then some (.boolean true)
  else if atom = "false".toList then some (.boolean false)
  else if isMoment atom then some (.moment (String.ofList atom))
  else if isFloat atom || isSpecial atom then some (.float (String.ofList atom))
  else (integer? atom).map .integer

/-- The characters of an atom. A blank between a date and a time belongs to it. -/
def splitAtom (text : List Char) : List Char × List Char :=
  let atom := text.takeWhile isAtomChar
  match text.drop atom.length with
  | ' ' :: rest =>
    let time := rest.takeWhile isAtomChar
    if isDate atom && !time.isEmpty then (atom ++ ' ' :: time, rest.drop time.length) else (atom, ' ' :: rest)
  | rest => (atom, rest)

def readScalar : Reader Value := fun text =>
  match Quotes.ofText? text with
  | some _ => (readQuoted text).map fun (s, rest) => (.text (String.ofList s), rest)
  | none =>
    let (atom, rest) := splitAtom text
    (Value.ofAtom? atom).map fun v => (v, rest)

/-- The values of an array up to its closing bracket. -/
def readItems (value : Reader Value) : Nat → Reader (List Value)
  | 0, _ => none
  | fuel + 1, text =>
    match skipLines (text.length + 1) text with
    | none => none
    | some (']' :: rest) => some ([], rest)
    | some start =>
      match value start with
      | none => none
      | some (v, rest) =>
        match skipLines (rest.length + 1) rest with
        | some (',' :: rest) => (readItems value fuel rest).map fun (vs, rest) => (v :: vs, rest)
        | some (']' :: rest) => some ([v], rest)
        | _ => none

/-- Dotted keys, an equals sign and a value. -/
def readPair (value : Reader Value) : Reader (List String × String × Value) := fun text =>
  match readPath depthLimit text with
  | some ((path, name), '=' :: rest) => (value (skipSpaces rest)).map fun (v, rest) => ((path, name, v), rest)
  | _ => none

/-- The pairs of a table up to its closing brace. -/
def readPairs (value : Reader Value) : Nat → Reader (List (List String × String × Value))
  | 0, _ => none
  | fuel + 1, text =>
    match readPair value text with
    | none => none
    | some (pair, rest) =>
      match skipSpaces rest with
      | ',' :: rest => (readPairs value fuel rest).map fun (pairs, rest) => (pair :: pairs, rest)
      | '\x7d' :: rest => some ([pair], rest)
      | _ => none

/-- The table between braces of which the first was read. -/
def readBraces (value : Reader Value) : Reader Value := fun text =>
  match skipSpaces text with
  | '\x7d' :: rest => some (.table .braces [], rest)
  | start =>
    match readPairs value (start.length + 1) start with
    | some (pairs, rest) => (Entries.ofPairs pairs).map fun entries => (.table .braces entries, rest)
    | none => none

/-- A value with at most `depth` values around each of its parts. -/
def readValue : Nat → Reader Value
  | 0 => readScalar
  | depth + 1 => fun text =>
    match text with
    | '[' :: rest => (readItems (readValue depth) (rest.length + 1) rest).map fun (vs, rest) => (.array vs, rest)
    | '\x7b' :: rest => readBraces (readValue depth) rest
    | text => readScalar text

/-- A header between brackets of which the opening ones were read. -/
def readHeader (closing : List Char) : Reader (List String × String) := fun text =>
  match readPath depthLimit text with
  | some (header, rest) =>
    if rest.take closing.length = closing then
      (afterLine? (rest.drop closing.length)).map fun rest => (header, rest)
    else none
  | none => none

/-- A header or an entry, with the end of its line. -/
def readLine : Reader Line := fun text =>
  match text with
  | '[' :: '[' :: rest => (readHeader [']', ']'] rest).map fun ((path, name), rest) => (.item path name, rest)
  | '[' :: rest => (readHeader [']'] rest).map fun ((path, name), rest) => (.table path name, rest)
  | text =>
    match readPair (readValue depthLimit) text with
    | some ((path, name, value), rest) => (afterLine? rest).map fun rest => (.entry path name value, rest)
    | none => none

def readLines : Nat → List Char → Option (List Line)
  | 0, _ => none
  | fuel + 1, text =>
    match skipSpaces text with
    | [] => some []
    | '\n' :: rest => readLines fuel rest
    | '#' :: rest => (afterLine? ('#' :: rest)).bind (readLines fuel)
    | start =>
      match readLine start with
      | some (line, rest) => (readLines fuel rest).map (line :: ·)
      | none => none

end TagSearch.Toml

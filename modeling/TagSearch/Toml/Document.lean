import TagSearch.Toml.Line

/-!
TOML documents. Reading gives the entries of the whole document; writing covers entries and tables of texts and whole
numbers.
-/
namespace TagSearch.Toml

/-- A line feed with a carriage return in front counts as a line feed. -/
def plainLineEnds : List Char → List Char
  | '\r' :: '\n' :: rest => '\n' :: plainLineEnds rest
  | c :: rest => c :: plainLineEnds rest
  | [] => []

/-- The text without a byte order mark in front. -/
def withoutMark : List Char → List Char
  | '\ufeff' :: rest => rest
  | text => text

def lines? (text : String) : Option (List Line) :=
  let text := plainLineEnds (withoutMark text.toList)
  readLines (text.length + 1) text

/-- The entries of a document, of which the last header is `path`, with a further line. -/
def Entries.addLine (path : List String) (entries : Entries) : Line → Option (List String × Entries)
  | .entry keys name value => (entries.descend (·.define name value keys) path).map ((path, ·))
  | .table keys name => (entries.descend (·.openTable name) keys).map ((keys ++ [name], ·))
  | .item keys name => (entries.descend (·.openItem name) keys).map ((keys ++ [name], ·))

def Entries.addLines (path : List String) (entries : Entries) : List Line → Option Entries
  | [] => some entries
  | line :: rest => (entries.addLine path line).bind fun (path, entries) => entries.addLines path rest

/-- The entries of a document; none if the text is no document. -/
def read? (text : String) : Option Entries :=
  (lines? text).bind fun lines => Entries.addLines [] [] lines

/-- A value of one line. -/
inductive Scalar
  | text (s : String)
  | integer (n : Int64)
deriving Repr, DecidableEq

def Scalar.write : Scalar → List Char
  | text s => writeQuoted s.toList
  | integer n => (toString n.toInt).toList

/-- A document of entries and of tables with entries; names are bare keys. -/
structure Document where
  entries : List (String × Scalar)
  tables : List (String × List (String × Scalar))
deriving Repr, DecidableEq

namespace Document

def writeEntry (entry : String × Scalar) : List Char :=
  entry.1.toList ++ " = ".toList ++ entry.2.write ++ ['\n']

def writeTable (table : String × List (String × Scalar)) : List Char :=
  '[' :: table.1.toList ++ [']', '\n'] ++ table.2.flatMap writeEntry

/-- A line for each entry, and an empty line in front of each table. -/
def render (document : Document) : String :=
  String.ofList (document.entries.flatMap writeEntry ++
    document.tables.flatMap fun table => '\n' :: writeTable table)

end Document
end TagSearch.Toml

import TagSearch.Export.Record

/-! Comma separated values: a line of column names and a line for each record. -/
namespace TagSearch.Export.Csv

/-- A field that holds a comma, a quote or the end of a line is put between quotes. -/
def needsQuotes (c : Char) : Bool :=
  c == ',' || c == '\x22' || c == '\n' || c == '\r'

/-- A quote inside quotes is written twice. -/
def doubleQuotes : List Char → List Char
  | [] => []
  | c :: rest => if c = '\x22' then c :: c :: doubleQuotes rest else c :: doubleQuotes rest

def field (text : List Char) : List Char :=
  if text.any needsQuotes then '\x22' :: doubleQuotes text ++ ['\x22'] else text

/-- The text of a cell; a missing value is an empty text. -/
def cellText : Cell → List Char
  | .null => []
  | .number n => (toString n).toList
  | .text s => s.toList

def fields : List (List Char) → List Char
  | [] => []
  | [text] => field text
  | text :: rest => field text ++ ',' :: fields rest

def line (texts : List (List Char)) : List Char := fields texts ++ ['\n']

/-- The column names come from the first record, so a table without records is empty. -/
def render (records : List Record) : String :=
  match records with
  | [] => ""
  | first :: _ =>
    String.ofList (line (first.map fun c => c.1.toList) ++
      records.flatMap fun record => line (record.map fun c => cellText c.2))

end TagSearch.Export.Csv

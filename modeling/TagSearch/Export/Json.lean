import TagSearch.Export.Record
import TagSearch.Text.Hex

/-! JSON: an array of objects, indented by two blanks. -/
namespace TagSearch.Export.Json

/-- A character inside quotes. Quotes, backslashes and control characters are escaped. -/
def escape (c : Char) : List Char :=
  if c = '\x22' then ['\\', '\x22']
  else if c = '\\' then ['\\', '\\']
  else if c = '\n' then ['\\', 'n']
  else if c = '\r' then ['\\', 'r']
  else if c = '\t' then ['\\', 't']
  else if c = '\x08' then ['\\', 'b']
  else if c = '\x0c' then ['\\', 'f']
  else if c.toNat < 32 then ['\\', 'u', '0', '0', Text.hexDigit 'a' (c.toNat / 16), Text.hexDigit 'a' (c.toNat % 16)]
  else [c]

def quoted (text : List Char) : List Char :=
  '\x22' :: text.flatMap escape ++ ['\x22']

def cell : Cell → List Char
  | .null => "null".toList
  | .number n => (toString n).toList
  | .text s => quoted s.toList

/-- Entries on lines of their own, indented and separated by commas, between brackets. -/
def block (openBracket closeBracket : Char) (indent : Nat) (entries : List (List Char)) : List Char :=
  match entries with
  | [] => [openBracket, closeBracket]
  | first :: rest =>
    let newLine := '\n' :: List.replicate (2 * indent + 2) ' '
    openBracket :: newLine ++ first ++ (rest.flatMap fun entry => ',' :: newLine ++ entry) ++
      '\n' :: List.replicate (2 * indent) ' ' ++ [closeBracket]

def object (indent : Nat) (record : Record) : List Char :=
  block '\x7b' '\x7d' indent (record.map fun (name, value) => quoted name.toList ++ ':' :: ' ' :: cell value)

def render (records : List Record) : String :=
  String.ofList (block '[' ']' 0 (records.map (object 1)))

end TagSearch.Export.Json

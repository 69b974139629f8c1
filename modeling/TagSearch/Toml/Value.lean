/-! The values of a TOML document. -/
namespace TagSearch.Toml

/-- How a table came to be; it decides what a document may add to it. -/
inductive Origin
  | header
  /-- By the header of a table inside it. -/
  | implied
  | dotted
  /-- Between braces; nothing can be added. -/
  | braces
deriving Repr, DecidableEq

inductive Value
  | text (s : String)
  | integer (n : Int64)
  | float (literal : String)
  | boolean (b : Bool)
  | moment (literal : String)
  | array (items : List Value)
  | table (origin : Origin) (entries : List (String × Value))
  /-- Tables that share one header, each with its entries. -/
  | tables (items : List (List (String × Value)))

/-- The entries of a table, by name. -/
abbrev Entries := List (String × Value)

def Entries.get? (entries : Entries) (name : String) : Option Value :=
  (entries.find? fun e => e.1 = name).map Prod.snd

end TagSearch.Toml

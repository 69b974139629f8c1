import TagSearch.Toml.Value

/-! Building tables. A name is defined once, and a table is opened once. -/
namespace TagSearch.Toml.Entries

/-- The entries with the value of a name changed; a new name comes last. -/
def alter (name : String) (f : Option Value → Option Value) : Entries → Option Entries
  | [] => (f none).map fun v => [(name, v)]
  | (n, v) :: rest =>
    if n = name then (f (some v)).map fun w => (n, w) :: rest
    else (alter name f rest).map ((n, v) :: ·)

/-- The last of several tables changed. -/
def alterLast (f : Entries → Option Entries) : List Entries → Option (List Entries)
  | [] => none
  | [last] => (f last).map ([·])
  | first :: rest => (alterLast f rest).map (first :: ·)

/-- A new name with its value. -/
def add (name : String) (value : Value) : Entries → Option Entries :=
  alter name fun
    | none => some value
    | some _ => none

/-- A new entry below dotted keys. They lead through tables without a header, and end in one of dotted keys. -/
def define (name : String) (value : Value) : List String → Entries → Option Entries
  | [] => add name value
  | key :: path => alter key fun
    | none => (define name value path []).map (.table .dotted)
    | some (.table origin entries) =>
      if origin = .dotted ∨ (origin = .implied ∧ path ≠ []) then
        (define name value path entries).map (.table origin)
      else none
    | some (.tables items) =>
      if path = [] then none else (alterLast (define name value path) items).map .tables
    | some _ => none

/-- A table below headers changed; of several tables with one header the last counts. -/
def descend (f : Entries → Option Entries) : List String → Entries → Option Entries
  | [] => f
  | key :: path => alter key fun
    | none => (descend f path []).map (.table .implied)
    | some (.table origin entries) =>
      if origin = .braces then none else (descend f path entries).map (.table origin)
    | some (.tables items) => (alterLast (descend f path) items).map .tables
    | some _ => none

/-- The table of a header. It may exist as part of another header only. -/
def openTable (name : String) : Entries → Option Entries :=
  alter name fun
    | none => some (.table .header [])
    | some (.table .implied entries) => some (.table .header entries)
    | some _ => none

/-- A further table of a header that several tables share. -/
def openItem (name : String) : Entries → Option Entries :=
  alter name fun
    | none => some (.tables [[]])
    | some (.tables items) => some (.tables (items ++ [[]]))
    | some _ => none

/-- The entries of pairs of dotted keys and values. -/
def ofPairs : List (List String × String × Value) → Option Entries :=
  go []
where
  go (entries : Entries) : List (List String × String × Value) → Option Entries
    | [] => some entries
    | (path, name, value) :: rest => (define name value path entries).bind fun entries => go entries rest

end TagSearch.Toml.Entries

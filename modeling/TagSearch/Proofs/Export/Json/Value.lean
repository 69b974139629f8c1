import TagSearch.Proofs.Export.Json.Token

/-! JSON values are read back. A reader of tokens keeps the arrays and objects around the place where it stands, and
reads of a written export an array with an object for each record. -/
namespace TagSearch.Export.Json

inductive Value
  | null
  | flag (b : Bool)
  | number (n : Int)
  | text (s : String)
  | array (items : List Value)
  | object (members : List (String × Value))

/-- An array or object that is not yet closed, with what stands before the value that is being read. -/
inductive Frame
  | array (items : List Value)
  | object (members : List (String × Value)) (name : String)

inductive Stage
  /-- Before a value. -/
  | value
  /-- Before the first value of an array, or its end. -/
  | item
  /-- Before a member of an object; the first one may be its end. -/
  | name (members : List (String × Value))
  | colon (members : List (String × Value)) (name : String)
  /-- Behind a value. -/
  | after (v : Value)

structure Reader where
  stage : Stage
  frames : List Frame

namespace Reader

/-- The first token of a value. -/
def begin? (frames : List Frame) : Token → Option Reader
  | .openArray => some ⟨.item, frames⟩
  | .openObject => some ⟨.name [], frames⟩
  | .null => some ⟨.after .null, frames⟩
  | .flag b => some ⟨.after (.flag b), frames⟩
  | .number n => some ⟨.after (.number n), frames⟩
  | .text s => some ⟨.after (.text s), frames⟩
  | _ => none

/-- The token behind a value. -/
def leave? (v : Value) : List Frame → Token → Option Reader
  | .array items :: rest, .comma => some ⟨.value, .array (items ++ [v]) :: rest⟩
  | .array items :: rest, .closeArray => some ⟨.after (.array (items ++ [v])), rest⟩
  | .object members name :: rest, .comma => some ⟨.name (members ++ [(name, v)]), rest⟩
  | .object members name :: rest, .closeObject => some ⟨.after (.object (members ++ [(name, v)])), rest⟩
  | _, _ => none

def step (r : Reader) (token : Token) : Option Reader :=
  match r.stage, token with
  | .value, token => begin? r.frames token
  | .item, .closeArray => some ⟨.after (.array []), r.frames⟩
  | .item, token => begin? (.array [] :: r.frames) token
  | .name [], .closeObject => some ⟨.after (.object []), r.frames⟩
  | .name members, .text name => some ⟨.colon members name, r.frames⟩
  | .colon members name, .colon => some ⟨.value, .object members name :: r.frames⟩
  | .after v, token => leave? v r.frames token
  | _, _ => none

def finish? (r : Reader) : Option Value :=
  match r.stage, r.frames with
  | .after v, [] => some v
  | _, _ => none

end Reader

/-- The value that a text stands for, none if it is malformed. -/
def read? (text : String) : Option Value :=
  (tokens? text.toList).bind fun tokens => (tokens.foldlM Reader.step ⟨.value, []⟩).bind Reader.finish?

def members? : Value → Option (List (String × Value))
  | .object members => some members
  | _ => none

def rows? : Value → Option (List (List (String × Value)))
  | .array items => items.mapM members?
  | _ => none

/-- The rows of a table, which is an array of objects. -/
def table? (text : String) : Option (List (List (String × Value))) :=
  (read? text).bind rows?

section Reading

variable {tokens : List Token} {frames : List Frame} {α : Type} {tokensOf : α → List Token} {entries : List α}

/-- Tokens stand for a value, whatever stands around them. -/
def Spells (tokens : List Token) (v : Value) : Prop :=
  ∀ frames, tokens.foldlM Reader.step ⟨.value, frames⟩ = some ⟨.after v, frames⟩

/-- The first value of an array is read as any other. -/
lemma Spells.first {v : Value} (h : Spells tokens v) (frames : List Frame) :
    tokens.foldlM Reader.step ⟨.item, frames⟩ = some ⟨.after v, .array [] :: frames⟩ := by
  rw [← h (.array [] :: frames)]
  -- only the end of an array is read otherwise there, and no value begins with it
  cases tokens with
  | nil => cases h frames
  | cons token rest =>
    cases token with
    | closeArray => cases h frames
    | _ => rfl

lemma run_items {valueOf : α → Value} (h : ∀ a ∈ entries, Spells (tokensOf a) (valueOf a)) (items : List Value)
    (v : Value) :
    ((entries.flatMap fun a => Token.comma :: tokensOf a) ++ [Token.closeArray]).foldlM Reader.step
      ⟨.after v, .array items :: frames⟩ = some ⟨.after (.array (items ++ v :: entries.map valueOf)), frames⟩ := by
  induction entries generalizing items v with
  | nil => rfl
  | cons a rest ih =>
    rw [List.forall_mem_cons] at h
    rw [List.flatMap_cons, List.append_assoc, List.cons_append, List.foldlM_cons, List.map_cons,
      List.append_cons items v]
    change (tokensOf a ++ _).foldlM Reader.step ⟨.value, .array (items ++ [v]) :: frames⟩ = _
    rw [List.foldlM_append, h.1]
    exact ih h.2 (items ++ [v]) (valueOf a)

lemma spells_array {valueOf : α → Value} (h : ∀ a ∈ entries, Spells (tokensOf a) (valueOf a)) :
    Spells (blockTokens .openArray .closeArray (entries.map tokensOf)) (.array (entries.map valueOf)) := by
  intro frames
  cases entries with
  | nil => rfl
  | cons a rest =>
    rw [List.forall_mem_cons] at h
    rw [List.map_cons, blockTokens, List.flatMap_map, List.append_assoc]
    change (tokensOf a ++ _).foldlM Reader.step ⟨.item, frames⟩ = _
    rw [List.foldlM_append, h.1.first]
    exact run_items h.2 [] (valueOf a)

lemma step_name (members : List (String × Value)) (name : String) :
    Reader.step ⟨.name members, frames⟩ (.text name) = some ⟨.colon members name, frames⟩ := by
  cases members <;> rfl

lemma run_members {nameOf : α → String} {valueOf : α → Value} (h : ∀ a ∈ entries, Spells (tokensOf a) (valueOf a))
    (members : List (String × Value)) (name : String) (v : Value) :
    ((entries.flatMap fun a => Token.comma :: .text (nameOf a) :: .colon :: tokensOf a) ++
        [Token.closeObject]).foldlM Reader.step ⟨.after v, .object members name :: frames⟩ =
      some ⟨.after (.object (members ++ (name, v) :: entries.map fun a => (nameOf a, valueOf a))), frames⟩ := by
  induction entries generalizing members name v with
  | nil => rfl
  | cons a rest ih =>
    rw [List.forall_mem_cons] at h
    rw [List.flatMap_cons, List.append_assoc, List.map_cons, List.append_cons members (name, v)]
    change Reader.step ⟨.name (members ++ [(name, v)]), frames⟩ (.text (nameOf a)) >>= _ = _
    rw [step_name]
    change (tokensOf a ++ _).foldlM Reader.step ⟨.value, .object (members ++ [(name, v)]) (nameOf a) :: frames⟩ = _
    rw [List.foldlM_append, h.1]
    exact ih h.2 (members ++ [(name, v)]) (nameOf a) (valueOf a)

lemma spells_object {nameOf : α → String} {valueOf : α → Value} (h : ∀ a ∈ entries, Spells (tokensOf a) (valueOf a)) :
    Spells (blockTokens .openObject .closeObject (entries.map fun a => .text (nameOf a) :: .colon :: tokensOf a))
      (.object (entries.map fun a => (nameOf a, valueOf a))) := by
  intro frames
  cases entries with
  | nil => rfl
  | cons a rest =>
    rw [List.forall_mem_cons] at h
    rw [List.map_cons, blockTokens, List.flatMap_map, List.append_assoc]
    change (tokensOf a ++ _).foldlM Reader.step ⟨.value, .object [] (nameOf a) :: frames⟩ = _
    rw [List.foldlM_append, h.1]
    exact run_members h.2 [] (nameOf a) (valueOf a)

end Reading

def cellValue : Cell → Value
  | .null => .null
  | .number n => .number n
  | .text s => .text s

lemma spells_cell (value : Cell) : Spells [cellToken value] (cellValue value) := by
  intro frames
  cases value <;> rfl

/-- The object of a record has its cells under the names of their columns. -/
def recordValue (record : Record) : Value := .object (record.map (Prod.map id cellValue))

lemma spells_record (record : Record) : Spells (recordTokens record) (recordValue record) :=
  spells_object fun member _ => spells_cell member.2

/-- An export is read back as an array with an object for each record. -/
theorem read?_render (records : List Record) :
    read? (render records) = some (.array (records.map recordValue)) := by
  have h : Spells (blockTokens .openArray .closeArray (records.map recordTokens)) (.array (records.map recordValue)) :=
    spells_array fun record _ => spells_record record
  rw [read?, tokens?_render, Option.bind_some, h]
  rfl

example : read? "[\n  \x7b\n    \x22name\x22: \x22\\u0001\\n\x22\n  \x7d\n]" =
    some (.array [.object [("name", .text "\x01\n")]]) := by rfl

theorem table?_render (records : List Record) :
    table? (render records) = some (records.map (List.map (Prod.map id cellValue))) := by
  rw [table?, read?_render, Option.bind_some, rows?, List.mapM_map]
  exact List.mapM_pure

end TagSearch.Export.Json

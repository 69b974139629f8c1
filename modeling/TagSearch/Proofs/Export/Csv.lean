import Mathlib.Data.List.Basic
import Mathlib.Tactic.Lemma
import TagSearch.Export.Csv

/-! Comma separated values are read back. A reader that knows fields with and without quotes, and both ends of a line,
reads of a written table its lines, whatever texts the fields hold. -/
namespace TagSearch.Export.Csv

/-- Where a reader stands in a field. -/
inductive Place
  | start
  | bare
  | quoted
  /-- Behind a quote, which ends the field unless another one follows. -/
  | closing
  /-- Between the two characters of a line end. -/
  | returned
deriving Repr, DecidableEq

structure Reader where
  place : Place
  field : List Char
  /-- The fields of the line before the one that is being read. -/
  line : List (List Char)
  /-- The lines before. -/
  lines : List (List (List Char))
deriving Repr, DecidableEq

namespace Reader

def initial : Reader := ⟨.start, [], [], []⟩

def take (r : Reader) (place : Place) (c : Char) : Reader := { r with place, field := r.field ++ [c] }

def endField (r : Reader) : Reader := ⟨.start, [], r.line ++ [r.field], r.lines⟩

def endLine (r : Reader) : Reader := ⟨.start, [], [], r.lines ++ [r.line ++ [r.field]]⟩

/-- What may follow a whole field. -/
def leave? (r : Reader) (c : Char) : Option Reader :=
  if c = ',' then some r.endField
  else if c = '\n' then some r.endLine
  else if c = '\r' then some { r with place := .returned }
  else none

/-- A field that does not begin with a quote has none inside. -/
def bare? (r : Reader) (c : Char) : Option Reader :=
  if c = '\x22' then none else (r.leave? c).or (some (r.take .bare c))

def step (r : Reader) (c : Char) : Option Reader :=
  match r.place with
  | .start => if c = '\x22' then some { r with place := .quoted } else r.bare? c
  | .bare => r.bare? c
  | .quoted => some (if c = '\x22' then { r with place := .closing } else r.take .quoted c)
  | .closing => if c = '\x22' then some (r.take .quoted c) else r.leave? c
  | .returned => if c = '\n' then some r.endLine else none

/-- The lines of a text that ends here. The last line need not have an end. -/
def finish? (r : Reader) : Option (List (List (List Char))) :=
  match r.place with
  | .start => some (if r.line = [] then r.lines else r.endLine.lines)
  | .bare | .closing => some r.endLine.lines
  | .quoted | .returned => none

end Reader

/-- The lines of a text, none if it is malformed. -/
def read? (text : List Char) : Option (List (List (List Char))) :=
  (text.foldlM Reader.step .initial).bind Reader.finish?

/-- The rows below a line of column names, each field with its column. -/
def labelled? : List (List (List Char)) → Option (List (List (String × String)))
  | [] => some []
  | names :: rows =>
    if rows.all fun row => row.length = names.length then
      some (rows.map fun row => (names.zip row).map (Prod.map String.ofList String.ofList))
    else none

/-- The rows of a table; a text that is empty has none. -/
def table? (text : String) : Option (List (List (String × String))) :=
  (read? text.toList).bind labelled?

section Reading

variable {text field : List Char} {line before : List (List Char)} {lines : List (List (List Char))}

/-- The places at which a field may end. -/
def Place.EndsField (place : Place) : Prop :=
  place = .start ∨ place = .bare ∨ place = .closing

lemma step_comma {place : Place} (h : place.EndsField) :
    Reader.step ⟨place, field, line, lines⟩ ',' = some ⟨.start, [], line ++ [field], lines⟩ := by
  rcases h with rfl | rfl | rfl <;> rfl

lemma step_lineFeed {place : Place} (h : place.EndsField) :
    Reader.step ⟨place, field, line, lines⟩ '\n' = some ⟨.start, [], [], lines ++ [line ++ [field]]⟩ := by
  rcases h with rfl | rfl | rfl <;> rfl

lemma bare?_of_plain {r : Reader} {c : Char} (h : needsQuotes c = false) : r.bare? c = some (r.take .bare c) := by
  simp only [needsQuotes, Bool.or_eq_false_iff, beq_eq_false_iff_ne] at h
  obtain ⟨⟨⟨hcomma, hquote⟩, hfeed⟩, hreturn⟩ := h
  rw [Reader.bare?, if_neg hquote, Reader.leave?, if_neg hcomma, if_neg hfeed, if_neg hreturn, Option.none_or]

/-- Without quotes a field is read as it stands. -/
lemma run_bare (h : ∀ c ∈ text, needsQuotes c = false) :
    text.foldlM Reader.step ⟨.bare, field, line, lines⟩ = some ⟨.bare, field ++ text, line, lines⟩ := by
  induction text generalizing field with
  | nil => rw [List.append_nil]; rfl
  | cons c rest ih =>
    rw [List.forall_mem_cons] at h
    have hstep : Reader.step ⟨.bare, field, line, lines⟩ c = some ⟨.bare, field ++ [c], line, lines⟩ :=
      bare?_of_plain h.1
    rw [List.foldlM_cons, hstep, List.append_cons field c rest]
    exact ih h.2

/-- Between quotes all characters are read, and two quotes as one. -/
lemma run_quoted : (doubleQuotes text).foldlM Reader.step ⟨.quoted, field, line, lines⟩ =
    some ⟨.quoted, field ++ text, line, lines⟩ := by
  induction text generalizing field with
  | nil => rw [List.append_nil]; rfl
  | cons c rest ih =>
    rw [List.append_cons]
    by_cases hc : c = '\x22'
    · subst hc
      exact ih
    · have hstep : Reader.step ⟨.quoted, field, line, lines⟩ c = some ⟨.quoted, field ++ [c], line, lines⟩ :=
        congrArg some (if_neg hc)
      have hplain : doubleQuotes (c :: rest) = c :: doubleQuotes rest := if_neg hc
      rw [hplain, List.foldlM_cons, hstep]
      exact ih

lemma run_field (text : List Char) :
    ∃ place : Place, place.EndsField ∧
      (Csv.field text).foldlM Reader.step ⟨.start, [], line, lines⟩ = some ⟨place, text, line, lines⟩ := by
  by_cases hquotes : text.any needsQuotes = true
  · refine ⟨.closing, .inr (.inr rfl), ?_⟩
    rw [Csv.field, if_pos hquotes]
    change (doubleQuotes text ++ ['\x22']).foldlM Reader.step ⟨.quoted, [], line, lines⟩ = _
    rw [List.foldlM_append, run_quoted]
    rfl
  · have hplain : ∀ c ∈ text, needsQuotes c = false := by
      simpa only [Bool.not_eq_true, List.any_eq_false] using hquotes
    rw [Csv.field, if_neg hquotes]
    cases text with
    | nil => exact ⟨.start, .inl rfl, rfl⟩
    | cons c rest =>
      rw [List.forall_mem_cons] at hplain
      have hquote : c ≠ '\x22' := by
        rintro rfl
        cases hplain.1
      have hstep : Reader.step ⟨.start, [], line, lines⟩ c = some ⟨.bare, [c], line, lines⟩ :=
        (if_neg hquote).trans (bare?_of_plain hplain.1)
      exact ⟨.bare, .inr (.inl rfl), by rw [List.foldlM_cons, hstep]; exact run_bare hplain.2⟩

/-- A written line is read behind the fields that stand before it. -/
lemma run_fields (hne : line ≠ []) :
    (Csv.line line).foldlM Reader.step ⟨.start, [], before, lines⟩ =
      some ⟨.start, [], [], lines ++ [before ++ line]⟩ := by
  induction line generalizing before with
  | nil => exact absurd rfl hne
  | cons text rest ih =>
    obtain ⟨place, hends, hfield⟩ := @run_field before lines text
    cases rest with
    | nil =>
      rw [Csv.line, fields, List.foldlM_append, hfield]
      exact (bind_pure _).trans (step_lineFeed hends)
    | cons next others =>
      have hline : Csv.line (text :: next :: others) = Csv.field text ++ ',' :: Csv.line (next :: others) := by
        rw [Csv.line, fields, List.append_assoc]
        · rfl
        · exact List.cons_ne_nil _ _
      rw [hline, List.foldlM_append, hfield, List.append_cons before]
      change Reader.step _ ',' >>= _ = _
      rw [step_comma hends]
      exact ih (List.cons_ne_nil _ _)

lemma run_lines {written : List (List (List Char))} (h : ∀ line ∈ written, line ≠ []) :
    (written.flatMap Csv.line).foldlM Reader.step ⟨.start, [], [], lines⟩ =
      some ⟨.start, [], [], lines ++ written⟩ := by
  induction written generalizing lines with
  | nil => rw [List.append_nil]; rfl
  | cons line rest ih =>
    rw [List.forall_mem_cons] at h
    rw [List.flatMap_cons, List.foldlM_append, run_fields h.1, List.append_cons lines line rest]
    exact ih h.2

/-- The lines of a text are those that were written, if none of them is without fields. -/
theorem read?_lines {written : List (List (List Char))} (h : ∀ line ∈ written, line ≠ []) :
    read? (written.flatMap Csv.line) = some written := by
  rw [read?, Reader.initial, run_lines h]
  rfl

end Reading

example : read? "a,\x22b\x22\x22,\n\x22\n,\n".toList = some [["a".toList, "b\x22,\n".toList], [[], []]] := by decide

section Tables

variable {names : List String} {records : List Record}

/-- The columns and fields of a record as they are written. -/
def written (record : Record) : List (List Char × List Char) := record.map fun c => (c.1.toList, cellText c.2)

def writtenCell (cell : Cell) : String := String.ofList (cellText cell)

lemma render_cons (first : Record) (rest : List Record) :
    (render (first :: rest)).toList =
      ((written first).map Prod.fst :: (first :: rest).map fun record => (written record).map Prod.snd).flatMap line := by
  simp only [render, written, String.toList_ofList, List.flatMap_cons, List.map_cons, List.flatMap_map, List.map_map,
    Function.comp_def]

lemma map_fst_written {record : Record} (h : record.map Prod.fst = names) :
    (written record).map Prod.fst = names.map String.toList := by
  rw [← h, written, List.map_map, List.map_map]
  rfl

/-- A line of fields is as long as the line of the names. -/
lemma length_written {record : Record} (h : record.map Prod.fst = names) :
    ((written record).map Prod.snd).length = names.length := by
  rw [List.length_map, ← List.length_map (f := Prod.fst), map_fst_written h, List.length_map]

/-- A table is read back from its text, with the names of the columns, if all records have the same columns. -/
theorem table?_render (hne : names ≠ []) (h : ∀ record ∈ records, record.map Prod.fst = names) :
    table? (render records) = some (records.map (List.map (Prod.map id writtenCell))) := by
  cases records with
  | nil => rfl
  | cons first rest =>
    have hfirst := map_fst_written (h first List.mem_cons_self)
    have hlines : ∀ fields ∈ (written first).map Prod.fst ::
        (first :: rest).map fun record => (written record).map Prod.snd, fields ≠ [] := by
      rw [List.forall_mem_cons, List.forall_mem_map, hfirst]
      refine ⟨List.map_eq_nil_iff.not.mpr hne, fun record hrecord => List.ne_nil_of_length_pos ?_⟩
      rw [length_written (h record hrecord)]
      exact List.length_pos_iff.mpr hne
    rw [table?, render_cons, read?_lines hlines, Option.bind_some, labelled?, if_pos, List.map_map, hfirst]
    · refine congrArg some (List.map_congr_left fun record hrecord => ?_)
      rw [Function.comp_apply, ← List.zip_of_prod (map_fst_written (h record hrecord)) rfl, written, List.map_map]
      refine List.map_congr_left fun c _ => ?_
      exact Prod.ext (String.ofList_toList) rfl
    · rw [List.all_map, List.all_eq_true]
      intro record hrecord
      rw [Function.comp_apply, decide_eq_true_eq, length_written (h record hrecord), hfirst, List.length_map]

end Tables

end TagSearch.Export.Csv

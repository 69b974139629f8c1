import TagSearch.Proofs.Toml.Line

/-! Documents are read back. A document of entries and tables under bare names, each name once, is read from its text as
the table that it stands for. -/
namespace TagSearch.Toml

variable {text more : List Char} {read others : List Line} {name : String}

/-- A text that is read as the given lines, whatever follows it. The reader has a step for each character. -/
def ReadsAs (text : List Char) (read : List Line) : Prop :=
  ∀ rest steps, (text ++ rest).length < steps →
    ∃ left, rest.length < left ∧ readLines steps (text ++ rest) = (readLines left rest).map (read ++ ·)

lemma readsAs_nil : ReadsAs [] [] := by
  intro rest steps hsteps
  exact ⟨steps, hsteps, (congrFun Option.map_id _).symm⟩

lemma ReadsAs.append (h : ReadsAs text read) (hmore : ReadsAs more others) :
    ReadsAs (text ++ more) (read ++ others) := by
  intro rest steps hsteps
  rw [List.append_assoc] at hsteps ⊢
  obtain ⟨left, hleft, hread⟩ := h (more ++ rest) steps hsteps
  obtain ⟨left', hleft', hread'⟩ := hmore rest left hleft
  refine ⟨left', hleft', ?_⟩
  rw [hread, hread', Option.map_map]
  congr 1
  funext last
  exact (List.append_assoc read others last).symm

lemma readsAs_flatMap {α : Type} {entries : List α} {write : α → List Char} {linesOf : α → List Line}
    (h : ∀ a ∈ entries, ReadsAs (write a) (linesOf a)) : ReadsAs (entries.flatMap write) (entries.flatMap linesOf) := by
  induction entries with
  | nil => exact readsAs_nil
  | cons a entries ih =>
    rw [List.forall_mem_cons] at h
    exact h.1.append (ih h.2)

lemma readLines_feed (steps : Nat) (rest : List Char) :
    readLines (steps + 1) ('\n' :: rest) = readLines steps rest := rfl

/-- A step over a line that is neither empty nor a comment. -/
lemma readLines_line {c : Char} {line : Line} {rest : List Char} (steps : Nat)
    (hc : isSpace c = false ∧ c ≠ '\n' ∧ c ≠ '#') (h : readLine (c :: text) = some (line, rest)) :
    readLines (steps + 1) (c :: text) = (readLines steps rest).map (line :: ·) := by
  rw [readLines, skipSpaces_of_head hc.1]
  split
  · rename_i heq
    cases heq
  · rename_i heq
    exact absurd (List.cons.inj heq).1 hc.2.1
  · rename_i heq
    exact absurd (List.cons.inj heq).1 hc.2.2
  · rw [h]

lemma readsAs_writeEntry {entry : String × Scalar} (h : IsBare entry.1) :
    ReadsAs (Document.writeEntry entry) [.ofEntry entry] := by
  intro rest steps hsteps
  obtain ⟨c, more, htext, hne⟩ := h.exists_eq (" = ".toList ++ entry.2.write ++ ['\n'] ++ rest)
  have hentry : Document.writeEntry entry ++ rest = c :: more := by
    rw [← htext]
    simp [Document.writeEntry]
  have hline := readLine_writeEntry h rest
  cases steps with
  | zero => exact absurd hsteps (Nat.not_lt_zero _)
  | succ steps =>
    refine ⟨steps, ?_, ?_⟩
    · have hpos : Document.writeEntry entry ≠ [] := by simp [Document.writeEntry]
      have hlength := List.length_pos_iff.mpr hpos
      rw [List.length_append] at hsteps
      omega
    · rw [hentry] at hline ⊢
      exact readLines_line steps ⟨by simp [isSpace, hne ' ' rfl, hne '\t' rfl], hne _ rfl, hne _ rfl⟩ hline

lemma readsAs_entries {entries : List (String × Scalar)} (h : ∀ entry ∈ entries, IsBare entry.1) :
    ReadsAs (entries.flatMap Document.writeEntry) (entries.map .ofEntry) := by
  rw [List.map_eq_flatMap]
  exact readsAs_flatMap fun entry hentry => readsAs_writeEntry (h entry hentry)

/-- The empty line and the header in front of the entries of a table. -/
lemma readsAs_header (h : IsBare name) : ReadsAs ('\n' :: '[' :: name.toList ++ [']', '\n']) [.table [] name] := by
  intro rest steps hsteps
  match steps, hsteps with
  | steps + 2, hsteps =>
    refine ⟨steps, ?_, ?_⟩
    · simp only [List.length_append, List.length_cons, List.length_nil] at hsteps
      omega
    · have hline := readLine_header h rest
      have htext : '\n' :: '[' :: name.toList ++ [']', '\n'] ++ rest =
          '\n' :: ('[' :: name.toList ++ ']' :: '\n' :: rest) := by simp
      rw [htext, readLines_feed]
      exact readLines_line steps (by decide) hline

namespace Entries

variable {entries inner : Entries} {value : Value} {path : List String}

/-- A new name comes last. -/
lemma alter_new {f : Option Value → Option Value} (hnew : name ∉ entries.map Prod.fst) (hf : f none = some value) :
    alter name f entries = some (entries ++ [(name, value)]) := by
  induction entries with
  | nil => rw [alter, hf]; rfl
  | cons entry entries ih =>
    rw [List.map_cons, List.mem_cons, not_or] at hnew
    rw [alter, if_neg (Ne.symm hnew.1), ih hnew.2]
    rfl

/-- The value of the last name is changed where it stands. -/
lemma alter_last {f : Option Value → Option Value} (hnew : name ∉ entries.map Prod.fst) :
    alter name f (entries ++ [(name, value)]) = (f (some value)).map fun changed => entries ++ [(name, changed)] := by
  induction entries with
  | nil => exact if_pos rfl
  | cons entry entries ih =>
    rw [List.map_cons, List.mem_cons, not_or] at hnew
    rw [List.cons_append, alter, if_neg (Ne.symm hnew.1), ih hnew.2, Option.map_map]
    rfl

lemma addLine_entry {entry : String × Scalar} (hnew : entry.1 ∉ entries.map Prod.fst) :
    addLine [] entries (.ofEntry entry) = some ([], entries ++ [Prod.map id Scalar.toValue entry]) := by
  rw [Line.ofEntry, addLine]
  dsimp only [descend, define, add]
  rw [alter_new hnew rfl]
  rfl

/-- Below a header, an entry goes into the table of the header. -/
lemma addLine_inside {entry : String × Scalar} (hname : name ∉ entries.map Prod.fst)
    (hnew : entry.1 ∉ inner.map Prod.fst) :
    addLine [name] (entries ++ [(name, .table .header inner)]) (.ofEntry entry) =
      some ([name], entries ++ [(name, .table .header (inner ++ [Prod.map id Scalar.toValue entry]))]) := by
  rw [Line.ofEntry, addLine]
  dsimp only [descend, define, add]
  rw [alter_last hname]
  dsimp only
  rw [if_neg (by decide), alter_new hnew rfl]
  rfl

lemma addLine_header (hname : name ∉ entries.map Prod.fst) :
    addLine path entries (.table [] name) = some ([name], entries ++ [(name, .table .header [])]) := by
  rw [addLine]
  dsimp only [descend, openTable]
  rw [alter_new hname rfl]
  rfl

end Entries

namespace Document

variable {document : Document}

/-- The lines of a document, without the empty ones. -/
def lines (document : Document) : List Line :=
  document.entries.map .ofEntry ++ document.tables.flatMap Line.ofTable

/-- The entry that a table is. -/
def tableEntry (table : String × List (String × Scalar)) : String × Value :=
  (table.1, .table .header (table.2.map (Prod.map id Scalar.toValue)))

/-- The entries that a document stands for. -/
def toEntries (document : Document) : Entries :=
  document.entries.map (Prod.map id Scalar.toValue) ++ document.tables.map tableEntry

/-- All names are bare, and no name occurs twice beside another one. -/
structure IsProper (document : Document) : Prop where
  bareEntries : ∀ entry ∈ document.entries, IsBare entry.1
  bareTables : ∀ table ∈ document.tables, IsBare table.1 ∧ ∀ entry ∈ table.2, IsBare entry.1
  distinct : (document.entries.map Prod.fst ++ document.tables.map Prod.fst).Nodup
  distinctInside : ∀ table ∈ document.tables, (table.2.map Prod.fst).Nodup

lemma readsAs_lines (h : document.IsProper) : ReadsAs document.render.toList document.lines := by
  rw [render, String.toList_ofList]
  refine (readsAs_entries h.bareEntries).append (readsAs_flatMap fun table htable => ?_)
  obtain ⟨hname, hentries⟩ := h.bareTables table htable
  exact (readsAs_header hname).append (readsAs_entries hentries)

lemma notMem_of_nodup_append {names : List String} {more : List String} (h : (names ++ name :: more).Nodup) :
    name ∉ names :=
  fun hmem => (List.nodup_append.mp h).2.2 name hmem name List.mem_cons_self rfl

lemma addLines_entries {before : Entries} {entries : List (String × Scalar)} {last : List Line}
    (h : (before.map Prod.fst ++ entries.map Prod.fst).Nodup) :
    Entries.addLines [] before (entries.map .ofEntry ++ last) =
      Entries.addLines [] (before ++ entries.map (Prod.map id Scalar.toValue)) last := by
  induction entries generalizing before with
  | nil => rw [List.map_nil, List.map_nil, List.append_nil, List.nil_append]
  | cons entry entries ih =>
    have hnew : entry.1 ∉ before.map Prod.fst := notMem_of_nodup_append h
    have hrest := @ih (before ++ [Prod.map id Scalar.toValue entry]) (by simpa using h)
    change (Entries.addLine [] before (.ofEntry entry)).bind _ = _
    rw [Entries.addLine_entry hnew, List.map_cons, List.append_cons before _ (entries.map _)]
    exact hrest

lemma addLines_inside {before inner : Entries} {entries : List (String × Scalar)} {last : List Line}
    (hname : name ∉ before.map Prod.fst) (h : (inner.map Prod.fst ++ entries.map Prod.fst).Nodup) :
    Entries.addLines [name] (before ++ [(name, .table .header inner)]) (entries.map .ofEntry ++ last) =
      Entries.addLines [name]
        (before ++ [(name, .table .header (inner ++ entries.map (Prod.map id Scalar.toValue)))]) last := by
  induction entries generalizing inner with
  | nil => rw [List.map_nil, List.map_nil, List.append_nil, List.nil_append]
  | cons entry entries ih =>
    have hnew : entry.1 ∉ inner.map Prod.fst := notMem_of_nodup_append h
    have hrest := @ih (inner ++ [Prod.map id Scalar.toValue entry]) (by simpa using h)
    change (Entries.addLine [name] _ (.ofEntry entry)).bind _ = _
    rw [Entries.addLine_inside hname hnew, List.map_cons, List.append_cons inner _ (entries.map _)]
    exact hrest

lemma addLines_tables {path : List String} {before : Entries} {tables : List (String × List (String × Scalar))}
    (h : (before.map Prod.fst ++ tables.map Prod.fst).Nodup)
    (hinside : ∀ table ∈ tables, (table.2.map Prod.fst).Nodup) :
    Entries.addLines path before (tables.flatMap Line.ofTable) = some (before ++ tables.map tableEntry) := by
  induction tables generalizing path before with
  | nil => rw [List.map_nil, List.append_nil]; rfl
  | cons table tables ih =>
    rw [List.forall_mem_cons] at hinside
    have hname : table.1 ∉ before.map Prod.fst := notMem_of_nodup_append h
    have hrest := @ih [table.1] (before ++ [tableEntry table]) (by simpa [tableEntry] using h) hinside.2
    have hinner : Entries.addLines [table.1] (before ++ [(table.1, .table .header [])])
        (table.2.map .ofEntry ++ tables.flatMap Line.ofTable) =
        Entries.addLines [table.1] (before ++ [tableEntry table]) (tables.flatMap Line.ofTable) :=
      addLines_inside hname (by simpa using hinside.1)
    change (Entries.addLine path before (.table [] table.1)).bind _ = _
    rw [Entries.addLine_header hname, List.map_cons, List.append_cons before _ (tables.map _)]
    exact hinner.trans hrest

lemma addLines_lines (h : document.IsProper) : Entries.addLines [] [] document.lines = some document.toEntries := by
  have hentries := (List.nodup_append.mp h.distinct).1
  rw [lines, addLines_entries (by simpa using hentries), List.nil_append]
  refine addLines_tables ?_ h.distinctInside
  rw [List.map_map]
  exact h.distinct

lemma plainLineEnds_eq (h : '\r' ∉ text) : plainLineEnds text = text := by
  fun_induction plainLineEnds text with
  | case1 rest _ => exact absurd List.mem_cons_self h
  | case2 c rest _ ih =>
    rw [List.mem_cons, not_or] at h
    rw [ih h.2]
  | case3 => rfl

lemma return_notMem_writeEntry {entry : String × Scalar} (h : IsBare entry.1) : '\r' ∉ writeEntry entry := by
  have hname : '\r' ∉ entry.1.toList := fun hmem => absurd (h.2 _ hmem) (by decide)
  have hvalue : '\r' ∉ entry.2.write := by
    cases entry.2 with
    | text s => exact return_notMem_writeQuoted _
    | integer n => exact notMem_toString rfl (by decide)
  rw [writeEntry]
  simp only [List.mem_append, not_or]
  exact ⟨⟨⟨hname, by decide⟩, hvalue⟩, by decide⟩

lemma return_notMem_render (h : document.IsProper) : '\r' ∉ document.render.toList := by
  have hentries : ∀ {entries : List (String × Scalar)}, (∀ entry ∈ entries, IsBare entry.1) →
      '\r' ∉ entries.flatMap writeEntry := by
    intro entries hbare hmem
    obtain ⟨entry, hentry, hmem⟩ := List.mem_flatMap.mp hmem
    exact return_notMem_writeEntry (hbare entry hentry) hmem
  rw [render, String.toList_ofList, List.mem_append, not_or]
  refine ⟨hentries h.bareEntries, fun hmem => ?_⟩
  obtain ⟨table, htable, hmem⟩ := List.mem_flatMap.mp hmem
  obtain ⟨hname, hinside⟩ := h.bareTables table htable
  have hheader : '\r' ∉ table.1.toList := fun hmem => absurd (hname.2 _ hmem) (by decide)
  rw [writeTable] at hmem
  simp [hheader, hentries hinside] at hmem

/-- The text of a document begins with no byte order mark. -/
lemma withoutMark_render (h : document.IsProper) : withoutMark document.render.toList = document.render.toList := by
  have hhead : document.render.toList.head? ≠ some '\ufeff' := by
    obtain ⟨entries, tables⟩ := document
    rw [render, String.toList_ofList]
    cases entries with
    | nil => cases tables <;> exact nofun
    | cons entry entries =>
      have hbare : IsBare entry.1 := h.bareEntries entry List.mem_cons_self
      rw [List.flatMap_cons, writeEntry, List.append_assoc, List.append_assoc, List.append_assoc, List.append_assoc]
      obtain ⟨c, more, htext, hne⟩ := hbare.exists_eq _
      rw [htext]
      exact fun hmark => hne _ rfl (Option.some.inj hmark)
  unfold withoutMark
  split
  · rename_i heq
    exact absurd (by rw [heq]; rfl) hhead
  · rfl

/-- A document is read back from its text. -/
theorem read?_render (h : document.IsProper) : read? document.render = some document.toEntries := by
  obtain ⟨left, hleft, hread⟩ := readsAs_lines h [] (document.render.toList.length + 1) (by simp)
  have hend : readLines left [] = some [] := by
    cases left with
    | zero => exact absurd hleft (Nat.not_lt_zero _)
    | succ left => rfl
  rw [List.append_nil, hend, Option.map_some, List.append_nil] at hread
  rw [read?, lines?, withoutMark_render h, plainLineEnds_eq (return_notMem_render h), hread, Option.bind_some,
    addLines_lines h]

end Document

/-- The value with some of the names inside; only a table has names. -/
def Value.keepInside (keep : String → Bool) : Value → Value
  | .table origin entries => .table origin (entries.filter fun entry => keep entry.1)
  | value => value

/-- The entries with some of their names, and with some of the names inside their tables. A name inside a table comes
after the name of the table. -/
def Entries.restrict (keep : List String → Bool) (entries : Entries) : Entries :=
  (entries.filter fun entry => keep [entry.1]).map fun entry =>
    (entry.1, entry.2.keepInside fun name => keep [entry.1, name])

namespace Entries

variable {entries : Entries} {keep : List String → Bool}

lemma get?_cons (entry : String × Value) (entries : Entries) (name : String) :
    get? (entry :: entries) name = if entry.1 = name then some entry.2 else get? entries name := by
  rw [get?, List.find?_cons]
  split_ifs with h
  · rw [decide_eq_true h]
    rfl
  · rw [decide_eq_false h]
    rfl

lemma get?_filter (keep : String → Bool) (entries : Entries) (name : String) :
    get? (entries.filter fun entry => keep entry.1) name = if keep name then entries.get? name else none := by
  induction entries with
  | nil => exact (ite_self none).symm
  | cons entry entries ih =>
    rw [List.filter_cons, get?_cons entry]
    by_cases hname : entry.1 = name
    · rw [hname, if_pos rfl]
      split_ifs with hkeep
      · rw [get?_cons, if_pos hname]
      · rw [ih, if_neg hkeep]
    · rw [if_neg hname, ← ih]
      split_ifs
      · rw [get?_cons, if_neg hname]
      · rfl

/-- What is kept stands for what it did, as far as it is kept itself. -/
lemma get?_restrict (keep : List String → Bool) (entries : Entries) (name : String) :
    (entries.restrict keep).get? name =
      if keep [name] then (entries.get? name).map (·.keepInside fun inner => keep [name, inner]) else none := by
  have hmap : ∀ entries : Entries,
      get? (entries.map fun entry => (entry.1, entry.2.keepInside fun inner => keep [entry.1, inner])) name =
        (entries.get? name).map (·.keepInside fun inner => keep [name, inner]) := by
    intro entries
    induction entries with
    | nil => rfl
    | cons entry entries ih =>
      rw [List.map_cons, get?_cons, get?_cons, ih]
      split_ifs with hname
      · rw [hname]
        rfl
      · rfl
  rw [restrict, hmap, get?_filter fun name => keep [name]]
  split_ifs <;> rfl

end Entries

namespace Document

variable {document : Document} {keep : List String → Bool}

/-- The document with some of its names. -/
def restrict (keep : List String → Bool) (document : Document) : Document where
  entries := document.entries.filter fun entry => keep [entry.1]
  tables := (document.tables.filter fun table => keep [table.1]).map fun table =>
    (table.1, table.2.filter fun entry => keep [table.1, entry.1])

lemma toEntries_restrict : (document.restrict keep).toEntries = document.toEntries.restrict keep := by
  have hscalar : ∀ (keep : String → Bool) (value : Scalar), value.toValue = value.toValue.keepInside keep := by
    rintro keep (_ | _) <;> rfl
  simp only [toEntries, restrict, Entries.restrict, List.filter_append, List.map_append, List.filter_map, List.map_map]
  congr 1
  · refine List.map_congr_left fun entry _ => ?_
    exact Prod.ext rfl (hscalar (fun name => keep [entry.1, name]) entry.2)
  · refine List.map_congr_left fun table _ => ?_
    simp [tableEntry, Value.keepInside, List.filter_map, Function.comp_def]

lemma IsProper.restrict (h : document.IsProper) : (document.restrict keep).IsProper where
  bareEntries entry hentry := h.bareEntries entry (List.mem_filter.mp hentry).1
  bareTables table htable := by
    obtain ⟨whole, hwhole, rfl⟩ := List.mem_map.mp htable
    obtain ⟨hname, hinside⟩ := h.bareTables whole (List.mem_filter.mp hwhole).1
    exact ⟨hname, fun entry hentry => hinside entry (List.mem_filter.mp hentry).1⟩
  distinct := by
    have hsub := (List.filter_sublist (p := fun entry => keep [entry.1]) (l := document.entries)).map Prod.fst
    have hsub' := (List.filter_sublist (p := fun table => keep [table.1]) (l := document.tables)).map Prod.fst
    rw [Document.restrict, List.map_map]
    exact h.distinct.sublist (hsub.append hsub')
  distinctInside table htable := by
    obtain ⟨whole, hwhole, rfl⟩ := List.mem_map.mp htable
    exact (h.distinctInside whole (List.mem_filter.mp hwhole).1).sublist (List.filter_sublist.map Prod.fst)

end Document

end TagSearch.Toml

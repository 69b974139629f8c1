import TagSearch.Export
import TagSearch.Proofs.Export.Csv
import TagSearch.Proofs.Export.Json.Value
import TagSearch.Proofs.Store.Membership

/-! Exports lose nothing. Of an export of either kind and in either format, the rows are read back as the search shows
them, field by field. -/
namespace TagSearch

variable {engine : Engine} {s : Store} {kind : Kind} {predicates : List Predicate}

/-- What a search shows of an entity. -/
def Kind.Summary : Kind → Type
  | .image => ImageSummary
  | .collection => CollectionSummary

namespace Search

/-- A search without a window. -/
def whole (predicates : List Predicate) : (kind : Kind) → Inquiry (ResultPage kind.Summary)
  | .image => Search.images predicates 0 0
  | .collection => Search.collections predicates 0 0

end Search

namespace Export

def record : (kind : Kind) → kind.Summary → Record
  | .image => imageRecord
  | .collection => collectionRecord

def columns : Kind → List String
  | .image => ["id", "name", "location", "uploader_id", "rating", "score_average"]
  | .collection => ["id", "name", "preview_location", "members"]

lemma map_fst_record (row : kind.Summary) : (record kind row).map Prod.fst = columns kind := by
  cases kind <;> rfl

/-- Exactly a collection without members has no preview. -/
def TellsPreview : (kind : Kind) → kind.Summary → Prop
  | .image, _ => True
  | .collection, c => c.preview = none ↔ c.members = 0

/-- How a format tells the values of its cells. -/
structure CellReader (α : Type) where
  word? : α → Option UInt64
  integer? : α → Option Int64
  text? : α → Option String
  /-- The location of a first member, if there is one, in a row with the given number of members. -/
  preview? (members : UInt64) : α → Option (Option String)

namespace CellReader

variable {α β : Type}

/-- The value in a column. -/
def column? (row : List (String × α)) (column : String) (read? : α → Option β) : Option β :=
  (row.lookup column).bind read?

def image? (reader : CellReader α) (row : List (String × α)) : Option ImageSummary := do
  let id ← column? row "id" reader.word?
  let name ← column? row "name" reader.text?
  let location ← column? row "location" reader.text?
  let uploader ← column? row "uploader_id" reader.word?
  let rating ← column? row "rating" reader.text?
  let averageScore ← column? row "score_average" reader.integer?
  return ⟨id, name, location, uploader, rating, averageScore⟩

def collection? (reader : CellReader α) (row : List (String × α)) : Option CollectionSummary := do
  let id ← column? row "id" reader.word?
  let name ← column? row "name" reader.text?
  let members ← column? row "members" reader.word?
  let preview ← column? row "preview_location" (reader.preview? members)
  return ⟨id, name, preview, members⟩

def row? (reader : CellReader α) : (kind : Kind) → List (String × α) → Option kind.Summary
  | .image => reader.image?
  | .collection => reader.collection?

/-- A reader undoes the way in which cells are written. -/
structure Undoes (reader : CellReader α) (write : Cell → α) : Prop where
  word : ∀ w : UInt64, reader.word? (write (.number w.toNat)) = some w
  integer : ∀ n : Int64, reader.integer? (write (.number n.toInt)) = some n
  text : ∀ s, reader.text? (write (.text s)) = some s
  noPreview : reader.preview? 0 (write .null) = some none
  preview : ∀ members location, members ≠ 0 → reader.preview? members (write (.text location)) = some (some location)

variable {reader : CellReader α} {write : Cell → α}

lemma Undoes.image (h : reader.Undoes write) (i : ImageSummary) :
    reader.image? ((imageRecord i).map (Prod.map id write)) = some i := by
  simp [image?, column?, imageRecord, List.lookup_cons, h.word, h.integer, h.text]

lemma Undoes.collection (h : reader.Undoes write) {c : CollectionSummary} (hc : c.preview = none ↔ c.members = 0) :
    reader.collection? ((collectionRecord c).map (Prod.map id write)) = some c := by
  obtain ⟨id, name, preview, members⟩ := c
  cases preview with
  | none =>
    have hmembers : members = 0 := hc.mp rfl
    have hpreview : reader.preview? members (write .null) = some none := hmembers ▸ h.noPreview
    simp [collection?, column?, collectionRecord, List.lookup_cons, h.word, h.text, hpreview]
  | some location =>
    have hmembers : members ≠ 0 := fun hzero => Option.some_ne_none location (hc.mpr hzero)
    simp [collection?, column?, collectionRecord, List.lookup_cons, h.word, h.text, h.preview members location hmembers]

/-- A row is read back from its record. -/
lemma Undoes.row (h : reader.Undoes write) {row : kind.Summary} (hrow : TellsPreview kind row) :
    reader.row? kind ((record kind row).map (Prod.map id write)) = some row := by
  cases kind with
  | image => exact h.image row
  | collection => exact h.collection hrow

end CellReader

/-- Cells of comma separated values are texts. An empty location stands for none in a row without members. -/
def Csv.cells : CellReader String where
  word? text := Text.word? text.toList
  integer? text := Text.integer? text.toList
  text? := some
  preview? members text := some (if text = "" ∧ members = 0 then none else some text)

def Json.cells : CellReader Json.Value where
  word?
    | .number n => if 0 ≤ n ∧ n < 2 ^ 64 then some (UInt64.ofNat n.toNat) else none
    | _ => none
  integer?
    | .number n => if -2 ^ 63 ≤ n ∧ n < 2 ^ 63 then some (Int64.ofInt n) else none
    | _ => none
  text?
    | .text s => some s
    | _ => none
  preview? _
    | .null => some none
    | .text location => some (some location)
    | _ => none

lemma Csv.undoes : Csv.cells.Undoes Csv.writtenCell where
  word w := by
    simp only [cells, writtenCell, cellText, String.toList_ofList]
    exact Text.word?_eq_some_iff.mpr (.plain (Text.denotes_toString w.toNat))
  integer n := by
    have hplus := (Text.denotesInteger_toString n.toInt).notMem (c := '+') rfl (by decide)
    simp only [cells, writtenCell, cellText, String.toList_ofList]
    exact (Text.integer?_eq_some hplus).mpr (Text.denotesInteger_toString n.toInt)
  text s := by
    simp only [cells, writtenCell, cellText, String.ofList_toList]
  noPreview := rfl
  preview members location hmembers := by
    simp only [cells, writtenCell, cellText, String.ofList_toList, hmembers, and_false, if_false]

lemma Json.undoes : Json.cells.Undoes Json.cellValue where
  word w := by
    have hbound : (0 : Int) ≤ w.toNat ∧ (w.toNat : Int) < 2 ^ 64 :=
      ⟨Int.natCast_nonneg _, by exact_mod_cast w.toNat_lt⟩
    simp only [cells, cellValue]
    rw [if_pos hbound, Int.toNat_natCast, UInt64.ofNat_toNat]
  integer n := by
    simp only [cells, cellValue]
    rw [if_pos ⟨n.le_toInt, n.toInt_lt⟩, Int64.ofInt_toInt]
  text _ := rfl
  noPreview := rfl
  preview _ _ _ := rfl

/-- The rows that an export stands for. -/
def Format.rows? (format : Format) (kind : Kind) (text : String) : Option (List kind.Summary) :=
  match format with
  | .csv => (Csv.table? text).bind fun rows => rows.mapM (Csv.cells.row? kind)
  | .json => (Json.table? text).bind fun rows => rows.mapM (Json.cells.row? kind)

/-- Rows are read back from their records. -/
lemma mapM_row {α : Type} {reader : CellReader α} {write : Cell → α} (h : reader.Undoes write)
    {rows : List kind.Summary} (hrows : ∀ row ∈ rows, TellsPreview kind row) :
    ((rows.map (record kind)).map (List.map (Prod.map id write))).mapM (reader.row? kind) = some rows := by
  rw [List.mapM_map, List.mapM_map]
  exact (mapM_eq_some fun row hrow => h.row (hrows row hrow)).trans (congrArg some (List.map_id rows))

/-- Rows are read back from their export. -/
theorem rows?_render (format : Format) {rows : List kind.Summary} (hrows : ∀ row ∈ rows, TellsPreview kind row) :
    format.rows? kind (format.render (rows.map (record kind))) = some rows := by
  cases format with
  | csv =>
    have hcolumns : ∀ r ∈ rows.map (record kind), r.map Prod.fst = columns kind :=
      List.forall_mem_map.mpr fun row _ => map_fst_record row
    have hne : columns kind ≠ [] := by cases kind <;> exact List.cons_ne_nil _ _
    exact (congrArg (Option.bind · _) (Csv.table?_render hne hcolumns)).trans (mapM_row Csv.undoes hrows)
  | json => exact (congrArg (Option.bind · _) (Json.table?_render _)).trans (mapM_row Json.undoes hrows)

/-- An export has a record for each row of the search without a window. -/
lemma result_records (source : Source) :
    (records predicates kind source).result =
      (Search.whole predicates kind source).result >>= fun page => .ok (page.items.map (record kind)) := by
  cases kind with
  | image => exact Inquiry.result_bind source _ _
  | collection => exact Inquiry.result_bind source _ _

/-- A search shows its rows unless the engine refuses it. -/
lemma result_whole (hs : s.Consistent) {plan : Plan} (hplan : Plan.ofPredicates predicates kind = .ok plan) :
    ∃ rows : List kind.Summary, (∀ row ∈ rows, TellsPreview kind row) ∧ rows.length = (s.listed plan).length ∧
      (Search.whole predicates kind (engine.source (.ready s))).result =
        Engine.unlessRefused (engine.windowRefusal? s plan 0 0) ⟨rows, UInt64.ofNat (s.listed plan).length, 0⟩ := by
  cases kind with
  | image =>
    obtain ⟨rows, _, hids, hresult⟩ := Store.exists_images hs hplan
    exact ⟨rows, fun _ _ => trivial, by rw [← hids]; exact (List.length_map _).symm, hresult engine 0 0⟩
  | collection =>
    obtain ⟨rows, hrows, hids, hresult⟩ := Store.exists_collections hs hplan
    rw [← hids, List.map_map] at hrows
    refine ⟨rows, fun row hrow => ?_, by rw [← hids]; exact (List.length_map _).symm, hresult engine 0 0⟩
    exact Store.preview_eq_none hs (List.map_inj_left.mp hrows row hrow)

/-- An answered search is read back from its export, which has as many records as the search counts. -/
lemma read_of_whole (hs : s.Consistent) (hp : Predicate.AllInterpreted kind predicates) (format : Format)
    {page : ResultPage kind.Summary}
    (h : (Search.whole predicates kind (engine.source (.ready s))).result = .ok page) :
    ∃ written, (records predicates kind (engine.source (.ready s))).result = .ok written ∧
      written.length = page.total.toNat ∧ format.rows? kind (format.render written) = some page.items := by
  obtain ⟨plan, hplan⟩ := hp.exists_plan
  obtain ⟨rows, htells, hlength, hresult⟩ := result_whole hs hplan
  refine ⟨page.items.map (record kind), by rw [result_records, h]; rfl, ?_⟩
  obtain ⟨_, rfl⟩ := Engine.unlessRefused_eq_ok.mp (hresult.symm.trans h)
  refine ⟨?_, rows?_render format htells⟩
  rw [List.length_map, hlength, Store.toNat_total hs]

/-- An export loses nothing: it has as many records as the search counts, and the rows of the search are read back from
its text, in order and field by field, so that other rows have another text. Only the engine can refuse an export, as it
refuses the search. -/
theorem export_read_back (engine : Engine) (hs : s.Reachable) (hp : Predicate.AllInterpreted kind predicates)
    (format : Format) :
    ∃ plan, Plan.ofPredicates predicates kind = .ok plan ∧
      (∀ fault, engine.windowRefusal? s plan 0 0 = some fault →
        (Search.whole predicates kind (engine.source (.ready s))).result = .error (.store (.database fault)) ∧
        (records predicates kind (engine.source (.ready s))).result = .error (.store (.database fault))) ∧
      (engine.windowRefusal? s plan 0 0 = none → ∃ page written,
        (Search.whole predicates kind (engine.source (.ready s))).result = .ok page ∧
        (records predicates kind (engine.source (.ready s))).result = .ok written ∧
        written.length = page.total.toNat ∧ format.rows? kind (format.render written) = some page.items ∧
        ∀ (t : Store) (others : List Predicate) (otherPage : ResultPage kind.Summary) (otherWritten : List Record),
          t.Reachable → Predicate.AllInterpreted kind others →
          (Search.whole others kind (engine.source (.ready t))).result = .ok otherPage →
          (records others kind (engine.source (.ready t))).result = .ok otherWritten →
          otherPage.items ≠ page.items → format.render otherWritten ≠ format.render written) := by
  obtain ⟨plan, hplan⟩ := hp.exists_plan
  obtain ⟨rows, _, _, hresult⟩ := @result_whole engine s kind predicates hs.consistent plan hplan
  refine ⟨plan, hplan, fun fault hfault => ?_, fun hnone => ?_⟩
  · rw [hfault] at hresult
    refine ⟨hresult, ?_⟩
    rw [result_records, hresult]
    rfl
  · rw [hnone] at hresult
    obtain ⟨written, hwritten, hcount, hread⟩ := read_of_whole hs.consistent hp format hresult
    refine ⟨_, written, hresult, hwritten, hcount, hread, fun t others otherPage otherWritten ht hothers hpage => ?_⟩
    intro hother hdifferent htext
    obtain ⟨written', hwritten', _, hread'⟩ := read_of_whole ht.consistent hothers format hpage
    obtain rfl := Except.ok.inj (hother.symm.trans hwritten')
    rw [htext, hread] at hread'
    exact hdifferent (Option.some.inj hread').symm

/-- A collection whose first member has no location, and one without members. -/
def shelf : Store :=
  Store.empty.run [.createUser "ann", .createImage "dawn" "" 1, .createCollection "sea, \x22sky\x22\n" "" 1,
    .createCollection "" "" 1, .addMember 1 1 0]

/-- Both previews are empty fields of the export, and are told apart again. -/
theorem shelf_read_back :
    ∃ page written, (Search.whole [] .collection (Database.ready shelf).source).result = .ok page ∧
      (records [] .collection (Database.ready shelf).source).result = .ok written ∧
      written.length = page.total.toNat ∧ Format.csv.rows? .collection (Format.csv.render written) = some page.items ∧
      (⟨1, "sea, \x22sky\x22\n", some "", 1⟩ : CollectionSummary) ∈ page.items ∧
      (⟨2, "", none, 0⟩ : CollectionSummary) ∈ page.items := by
  have hs : shelf.Reachable := Store.Reachable.empty.run _
  have hplan : Plan.ofPredicates [] .collection = .ok ⟨.collection, .all [], none⟩ := rfl
  obtain ⟨plan, hplan', _, htaken⟩ :=
    @export_read_back shelf .collection [] .standard hs (fun _ hp => absurd hp List.not_mem_nil) .csv
  obtain rfl := Except.ok.inj (hplan.symm.trans hplan')
  obtain ⟨page, written, hpage, hwritten, hcount, hread, _⟩ := htaken (Engine.windowRefusal_of_few Sql.areFew_nil rfl)
  have hshown : ∀ c ∈ shelf.collections, ∀ summary : CollectionSummary,
      shelf.collectionSummary? c.id = some summary → summary ∈ page.items := by
    intro c hc summary hsummary
    obtain ⟨entries, hfound, hentries, rfl⟩ := Store.page_of_collections hs.consistent hpage
    have hlisted : c.id ∈ shelf.listed ⟨.collection, .all [], none⟩ :=
      (Store.mem_listed hs.consistent).mpr ⟨.collection c, hc, rfl, rfl, rfl⟩
    rw [Except.ok.inj ((Store.found_eq hplan).symm.trans hfound)] at hlisted
    obtain ⟨x, hx, hid⟩ := List.mem_map.mp hlisted
    obtain rfl := Option.some.inj ((hid ▸ hentries x hx).symm.trans hsummary)
    exact hx
  exact ⟨page, written, hpage, hwritten, hcount, hread,
    hshown ⟨1, "sea, \x22sky\x22\n", "", 1⟩ (by decide +kernel) _ (by decide +kernel),
    hshown ⟨2, "", "", 1⟩ (by decide +kernel) _ (by decide +kernel)⟩

/-- The engine does not take every pattern, and then nothing is exported. -/
theorem records_refused :
    Store.Reachable .sample ∧
      Predicate.AllInterpreted .image
        [Search.nameUnlike (String.ofList ('%' :: List.replicate 50000 'a' ++ ['%']))] ∧
      (records [Search.nameUnlike (String.ofList ('%' :: List.replicate 50000 'a' ++ ['%']))] .image
        (Database.ready .sample).source).result = .error (.store (.database .patternTooLong)) := by
  refine ⟨Store.Reachable.empty.run _, Search.allInterpreted_nameUnlike (by decide), ?_⟩
  rw [result_records, Search.whole, Search.images_nameUnlike Search.dawn_mem_sample Search.patternLimit_lt]
  rfl

end Export
end TagSearch

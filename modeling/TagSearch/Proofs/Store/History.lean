import TagSearch.Proofs.Store.Integrity

/-! Histories of a catalog: the operations on it with their answers. What is refused leaves no trace in the tables and
uses up no id, and whatever the history, the tables keep their integrity. -/
namespace TagSearch

/-- The tables that number their rows. -/
inductive NumberedTable
  | users | tags | images | collections
deriving Repr, DecidableEq

def NumberedTable.sql : NumberedTable → String
  | users => "users"
  | tags => "tags"
  | images => "images"
  | collections => "collections"

namespace Change

/-- The table in which a change creates a row. -/
def creates? : Change → Option NumberedTable
  | createUser .. => some .users
  | createTag .. => some .tags
  | createImage .. => some .images
  | createCollection .. => some .collections
  | _ => none

/-- The name of a new row, if it must be the only one of its table. -/
def uniqueName? : Change → Option String
  | createUser name | createTag name .. | createCollection name .. => some name
  | _ => none

/-- The rows that a change refers to. -/
def references : Change → List (NumberedTable × UInt64)
  | tagImage image tag => [(.images, image), (.tags, tag)]
  | setImageHashes image _ => [(.images, image)]
  | addMember collection image _ => [(.collections, collection), (.images, image)]
  | _ => []

end Change

namespace Store
open Sql (Fault)

variable {s t : Store} {change : Change} {fault : Fault} {table : NumberedTable}

def ids (s : Store) : NumberedTable → List UInt64
  | .users => s.users.map User.id
  | .tags => s.tags.map Tag.id
  | .images => s.images.map Image.id
  | .collections => s.collections.map Collection.id

def names (s : Store) : NumberedTable → List String
  | .users => s.users.map User.name
  | .tags => s.tags.map Tag.name
  | .images => s.images.map Image.name
  | .collections => s.collections.map Collection.name

/-- Why a catalog refuses a change. -/
inductive Refuses (s : Store) (change : Change) : Fault → Prop
  /-- There is no id left for a new row. -/
  | noId {table : NumberedTable} (creates : change.creates? = some table) (full : 2 ^ 63 - 1 ≤ (s.ids table).length) :
      Refuses s change .full
  | nameTaken {table : NumberedTable} {name : String} (creates : change.creates? = some table)
      (unique : change.uniqueName? = some name) (room : (s.ids table).length < 2 ^ 63 - 1)
      (taken : name ∈ s.names table) : Refuses s change (.duplicate table.sql "name")
  | missing {table : NumberedTable} {id : UInt64} (refers : (table, id) ∈ change.references)
      (missing : id ∉ s.ids table) : Refuses s change .missingReference

lemma refuses_named {name : String} (creates : change.creates? = some table) (unique : change.uniqueName? = some name)
    (refers : change.references = []) :
    s.Refuses change fault ↔ (2 ^ 63 - 1 ≤ (s.ids table).length ∧ fault = .full) ∨
      ((s.ids table).length < 2 ^ 63 - 1 ∧ name ∈ s.names table ∧ fault = .duplicate table.sql "name") := by
  constructor
  · rintro (⟨creates', full⟩ | ⟨creates', unique', room, taken⟩ | ⟨refers', _⟩)
    · obtain rfl := Option.some.inj (creates.symm.trans creates')
      exact .inl ⟨full, rfl⟩
    · obtain rfl := Option.some.inj (creates.symm.trans creates')
      obtain rfl := Option.some.inj (unique.symm.trans unique')
      exact .inr ⟨room, taken, rfl⟩
    · rw [refers] at refers'
      cases refers'
  · rintro (⟨full, rfl⟩ | ⟨room, taken, rfl⟩)
    · exact .noId creates full
    · exact .nameTaken creates unique room taken

lemma refuses_unnamed (creates : change.creates? = some table) (unique : change.uniqueName? = none)
    (refers : change.references = []) :
    s.Refuses change fault ↔ 2 ^ 63 - 1 ≤ (s.ids table).length ∧ fault = .full := by
  constructor
  · rintro (⟨creates', full⟩ | ⟨_, unique', _⟩ | ⟨refers', _⟩)
    · obtain rfl := Option.some.inj (creates.symm.trans creates')
      exact ⟨full, rfl⟩
    · cases unique.symm.trans unique'
    · rw [refers] at refers'
      cases refers'
  · rintro ⟨full, rfl⟩
    exact .noId creates full

/-- A change that creates no row is refused when one that it refers to is missing. -/
lemma refuses_referring (creates : change.creates? = none) :
    s.Refuses change fault ↔ (∃ row ∈ change.references, row.2 ∉ s.ids row.1) ∧ fault = .missingReference := by
  constructor
  · rintro (⟨creates', _⟩ | ⟨creates', _⟩ | ⟨refers, missing⟩)
    · cases creates.symm.trans creates'
    · cases creates.symm.trans creates'
    · exact ⟨⟨_, refers, missing⟩, rfl⟩
  · rintro ⟨⟨row, refers, missing⟩, rfl⟩
    exact .missing refers missing

lemma nextId_eq_error {rows : ℕ} : nextId rows = .error fault ↔ 2 ^ 63 - 1 ≤ rows ∧ fault = .full := by
  unfold nextId
  by_cases h : rows + 1 < 1 <<< 63
  · rw [if_pos h]
    constructor
    · intro hid
      cases hid
    · rintro ⟨full, _⟩
      exact absurd full (by omega)
  · rw [if_neg h, Except.error.injEq, eq_comm]
    exact (and_iff_right (by omega)).symm

/-- A row with a unique name is refused when there is no id for it, or else when its name is taken. -/
lemma named_eq_error {α : Type} {rows : ℕ} {taken : Bool} {duplicate : Fault} {make : UInt64 → α} :
    (do let id ← nextId rows; if taken then .error duplicate else .ok (make id)) = Except.error fault ↔
      (2 ^ 63 - 1 ≤ rows ∧ fault = .full) ∨ (rows < 2 ^ 63 - 1 ∧ taken = true ∧ fault = duplicate) := by
  cases hid : nextId rows with
  | error e =>
    obtain ⟨full, rfl⟩ := nextId_eq_error.mp hid
    constructor
    · intro h
      cases h
      exact .inl ⟨full, rfl⟩
    · rintro (⟨_, rfl⟩ | ⟨room, _⟩)
      · rfl
      · exact absurd full (by omega)
  | ok id =>
    have room := (nextId_eq_ok.mp hid).1
    simp only [room, Nat.not_le.mpr room, false_and, false_or, true_and]
    cases taken <;> simp [bind, Except.bind, eq_comm]

lemma map_some_eq_error {x : Except Fault (Store × UInt64)} :
    (do return (← x).map id some) = Except.error fault ↔ x = .error fault := by
  cases x <;> simp [bind, Except.bind, pure, Except.pure]

lemma pair_none_eq_error {x : Except Fault Store} :
    (do return (← x, (none : Option UInt64))) = Except.error fault ↔ x = .error fault := by
  cases x <;> simp [bind, Except.bind, pure, Except.pure]

/-- A row that refers to others is refused when one of them is missing. -/
lemma referring_eq_error {α : Type} {present : Bool} {row : α} :
    (if present then .ok row else .error .missingReference) = Except.error fault ↔
      present = false ∧ fault = .missingReference := by
  cases present <;> simp [eq_comm]

/-- A change is refused for these reasons only. -/
theorem apply_eq_error_iff : s.apply change = .error fault ↔ s.Refuses change fault := by
  cases change with
  | createUser name =>
    rw [refuses_named rfl rfl rfl, apply, map_some_eq_error, createUser, named_eq_error]
    simp [ids, names, NumberedTable.sql]
  | createTag name description uploader uploaded =>
    rw [refuses_named rfl rfl rfl, apply, map_some_eq_error, createTag, named_eq_error]
    simp [ids, names, NumberedTable.sql]
  | createCollection name description uploader =>
    rw [refuses_named rfl rfl rfl, apply, map_some_eq_error, createCollection, named_eq_error]
    simp [ids, names, NumberedTable.sql]
  | createImage name location uploader =>
    rw [refuses_unnamed rfl rfl rfl, apply, map_some_eq_error, createImage]
    cases hid : nextId s.images.length with
    | error e =>
      obtain ⟨full, rfl⟩ := nextId_eq_error.mp hid
      simp only [bind, Except.bind, Except.error.injEq, ids, List.length_map, full, true_and, eq_comm]
    | ok id =>
      have room := (nextId_eq_ok.mp hid).1
      simp [bind, Except.bind, ids, -Nat.reducePow, -Nat.reduceSub, Nat.not_le.mpr room]
  | tagImage image tag =>
    rw [refuses_referring rfl, apply, pair_none_eq_error, tagImage, referring_eq_error]
    simp [Change.references, ids, ← hasImage_iff, ← hasTag_iff, Bool.and_eq_false_iff, -Bool.and_eq_false_imp]
  | setImageHashes image pair =>
    rw [refuses_referring rfl, apply, pair_none_eq_error, setImageHashes, referring_eq_error]
    simp [Change.references, ids, ← hasImage_iff]
  | addMember collection image weight =>
    rw [refuses_referring rfl, apply, pair_none_eq_error, addMember, referring_eq_error]
    simp [Change.references, ids, ← hasImage_iff, ← hasCollection_iff, Bool.and_eq_false_iff, -Bool.and_eq_false_imp]
  | setUserFilter | setTagTime | aliasTag | setImageRating | setImageScores =>
    rw [refuses_referring rfl]
    simp [apply, Change.references]

/-- An accepted change keeps the ids of every table, and a row that it creates adds the id that it reports. -/
lemma ids_apply {created : Option UInt64} (h : s.apply change = .ok (t, created)) (table : NumberedTable) :
    t.ids table = s.ids table ++ if change.creates? = some table then created.toList else [] := by
  cases change with
  | createUser name =>
    obtain ⟨id, hid, rfl⟩ := map_some_eq_ok h
    obtain ⟨_, _, _, rfl⟩ := createUser_eq_ok hid
    cases table <;> simp [ids, Change.creates?]
  | createTag name description uploader uploaded =>
    obtain ⟨id, hid, rfl⟩ := map_some_eq_ok h
    obtain ⟨_, _, _, rfl⟩ := createTag_eq_ok hid
    cases table <;> simp [ids, Change.creates?]
  | createImage name location uploader =>
    obtain ⟨id, hid, rfl⟩ := map_some_eq_ok h
    obtain ⟨_, _, rfl⟩ := createImage_eq_ok hid
    cases table <;> simp [ids, Change.creates?]
  | createCollection name description uploader =>
    obtain ⟨id, hid, rfl⟩ := map_some_eq_ok h
    obtain ⟨_, _, _, rfl⟩ := createCollection_eq_ok hid
    cases table <;> simp [ids, Change.creates?]
  | setUserFilter user filter =>
    cases h
    cases table <;> simp [ids, Change.creates?, map_alter]
  | setTagTime tag uploaded =>
    cases h
    cases table <;> simp [ids, Change.creates?, map_alter]
  | aliasTag tag target =>
    cases h
    cases table <;> simp [ids, Change.creates?, map_alter]
  | setImageRating image rating =>
    cases h
    cases table <;> simp [ids, Change.creates?, map_alter]
  | setImageScores image average total voters =>
    cases h
    have hids := map_alter Image.id image (Image.withScores average total voters) Image.id (fun _ => rfl) s.images
    cases table <;> simp [ids, Change.creates?, hids]
  | tagImage image tag =>
    obtain ⟨hlink, rfl⟩ := pair_none_eq_ok h
    obtain ⟨_, _, rfl⟩ := tagImage_eq_ok hlink
    cases table <;> simp [ids, Change.creates?]
  | setImageHashes image pair =>
    obtain ⟨hhashes, rfl⟩ := pair_none_eq_ok h
    obtain ⟨_, rfl⟩ := setImageHashes_eq_ok hhashes
    cases table <;> simp [ids, Change.creates?]
  | addMember collection image weight =>
    obtain ⟨hmember, rfl⟩ := pair_none_eq_ok h
    obtain ⟨_, _, rfl⟩ := addMember_eq_ok hmember
    cases table <;> simp [ids, Change.creates?]

end Store

/-- What may be done to a catalog database. -/
inductive Operation
  /-- Create the tables that are not there yet. -/
  | createTables
  | change (change : Change)
deriving Repr, DecidableEq

/-- An operation and its answer: the id of the row that it creates, if it creates one. -/
structure Event where
  operation : Operation
  answer : Except StoreError (Option UInt64)

namespace Event

def isAccepted (event : Event) : Bool := event.answer.isOk

/-- The id that an event gives to a new row of a table. -/
def issued (table : NumberedTable) (event : Event) : List UInt64 :=
  match event.operation, event.answer with
  | .change change, .ok created => if change.creates? = some table then created.toList else []
  | _, _ => []

end Event

namespace Database

/-- Try an operation. If it is refused, the database stays as it was. -/
def perform (database : Database) : Operation → Database × Event
  | .createTables => (database.createTables, ⟨.createTables, .ok none⟩)
  | .change change =>
    match database.apply change with
    | .ok (next, created) => (next, ⟨.change change, .ok created⟩)
    | .error error => (database, ⟨.change change, .error error⟩)

/-- Try operations in order. -/
def performAll (database : Database) : List Operation → Database × List Event
  | [] => (database, [])
  | operation :: rest =>
    let (next, event) := database.perform operation
    let (last, events) := next.performAll rest
    (last, event :: events)

variable {database next : Database} {operation : Operation} {event : Event} {s : Store}

lemma performAll_cons (h : database.perform operation = (next, event)) (rest : List Operation) :
    database.performAll (operation :: rest) = ((next.performAll rest).1, event :: (next.performAll rest).2) := by
  rw [performAll, h]

/-- The event is about the operation, and if it is a refusal, the database stays as it was. -/
lemma perform_eq (h : database.perform operation = (next, event)) :
    event.operation = operation ∧ (event.isAccepted = false → next = database) := by
  cases operation with
  | createTables =>
    cases h
    exact ⟨rfl, fun refused => nomatch refused⟩
  | change change =>
    rw [perform] at h
    split at h
    · cases h
      exact ⟨rfl, fun refused => nomatch refused⟩
    · cases h
      exact ⟨rfl, fun _ => rfl⟩

/-- Without the operations that are refused, a run leaves the same database and gives the same answers. -/
theorem performAll_accepted (database : Database) (operations : List Operation) :
    database.performAll (((database.performAll operations).2.filter Event.isAccepted).map Event.operation) =
      ((database.performAll operations).1, (database.performAll operations).2.filter Event.isAccepted) := by
  induction operations generalizing database with
  | nil => rfl
  | cons operation rest ih =>
    obtain ⟨⟨next, event⟩, hperform⟩ : ∃ result, database.perform operation = result := ⟨_, rfl⟩
    obtain ⟨hoperation, hrefused⟩ := perform_eq hperform
    rw [performAll_cons hperform]
    cases haccepted : event.isAccepted with
    | true =>
      rw [List.filter_cons_of_pos haccepted, List.map_cons, hoperation, performAll_cons hperform, ih]
    | false =>
      obtain rfl := hrefused haccepted
      rw [List.filter_cons_of_neg (by simp [haccepted]), ih]

/-- One operation keeps the integrity of the tables and issues the ids of the rows that it creates. -/
lemma perform_ready (hs : s.Consistent) (operation : Operation) :
    ∃ t event, (ready s).perform operation = (ready t, event) ∧ t.Consistent ∧
      ∀ table, t.ids table = s.ids table ++ event.issued table := by
  cases operation with
  | createTables => exact ⟨s, ⟨.createTables, .ok none⟩, rfl, hs, fun table => (List.append_nil _).symm⟩
  | change change =>
    cases happly : s.apply change with
    | error fault =>
      refine ⟨s, ⟨.change change, .error (.database fault)⟩, ?_, hs, fun table => (List.append_nil _).symm⟩
      rw [perform, Database.apply, happly]
    | ok result =>
      obtain ⟨t, created⟩ := result
      refine ⟨t, ⟨.change change, .ok created⟩, ?_, hs.apply happly, Store.ids_apply happly⟩
      rw [perform, Database.apply, happly]

theorem performAll_ready (hs : s.Consistent) (operations : List Operation) :
    ∃ t history, (ready s).performAll operations = (ready t, history) ∧ t.Consistent ∧
      ∀ table, t.ids table = s.ids table ++ history.flatMap (Event.issued table) := by
  induction operations generalizing s with
  | nil => exact ⟨s, [], rfl, hs, fun table => (List.append_nil _).symm⟩
  | cons operation rest ih =>
    obtain ⟨t, event, hperform, ht, hids⟩ := perform_ready hs operation
    obtain ⟨u, history, hrest, hu, hmore⟩ := ih ht
    refine ⟨u, event :: history, ?_, hu, fun table => ?_⟩
    · rw [performAll_cons hperform, hrest]
    · rw [hmore, hids, List.flatMap_cons, List.append_assoc]

end Database

namespace Store

variable {s : Store}

lemma Consistent.numbered (hs : s.Consistent) (table : NumberedTable) : Numbered (s.ids table) := by
  cases table with
  | users => exact hs.userIds
  | tags => exact hs.tagIds
  | images => exact hs.imageIds
  | collections => exact hs.collectionIds

/-- Rows in the order of their keys are told apart by what the keys are made of. -/
lemma nodup_map_of_isOrdered {α β : Type} {key : α → ℕ} {column : α → β} {rows : List α}
    (h : Ordered.IsOrdered key rows) (hkey : ∀ a b, column a = column b → key a = key b) :
    (rows.map column).Nodup := by
  refine List.pairwise_map.mpr (h.imp fun {a b} hlt heq => ?_)
  exact Nat.ne_of_lt hlt (hkey a b heq)

end Store

/-- Whatever is done to a new catalog, its tables keep their integrity: names that must be unique are, the ids of every
table count from 1 and are the ones that were reported, links refer to rows that exist and occur once, and an image has
one pair of hashes at most. An operation is refused when it needs an id and there is none, when its name is taken, or
when it refers to a row that does not exist; then it changes nothing, and nothing that follows depends on it. -/
theorem integrity_of_history (operations : List Operation) :
    ∃ s history, Database.blank.createTables.performAll operations = (.ready s, history) ∧
      (s.names .users).Nodup ∧ (s.names .tags).Nodup ∧ (s.names .collections).Nodup ∧
      (∀ table, (s.ids table).map UInt64.toNat = List.range' 1 (s.ids table).length ∧
        history.flatMap (Event.issued table) = s.ids table ∧ ∀ id ∈ s.ids table, id.toNat < 2 ^ 63) ∧
      (∀ l ∈ s.links, l.image ∈ s.ids .images ∧ l.tag ∈ s.ids .tags) ∧
      (s.links.map fun l => (l.image, l.tag)).Nodup ∧
      (∀ m ∈ s.members, m.collection ∈ s.ids .collections ∧ m.image ∈ s.ids .images) ∧
      (s.members.map fun m => (m.collection, m.image)).Nodup ∧
      (∀ h ∈ s.hashes, h.image ∈ s.ids .images) ∧ (s.hashes.map StoredHash.image).Nodup ∧
      (∀ change fault, s.Refuses change fault ↔
        (Database.ready s).perform (.change change) = (.ready s, ⟨.change change, .error (.database fault)⟩)) ∧
      Database.blank.createTables.performAll ((history.filter Event.isAccepted).map Event.operation) =
        (.ready s, history.filter Event.isAccepted) := by
  obtain ⟨s, history, hrun, hs, hids⟩ := Database.performAll_ready Store.consistent_empty operations
  have hkept := Database.performAll_accepted (.ready .empty) operations
  rw [hrun] at hkept
  have hissued : ∀ table, history.flatMap (Event.issued table) = s.ids table := by
    intro table
    rw [hids]
    cases table <;> rfl
  refine ⟨s, history, hrun, hs.userNames, hs.tagNames, hs.collectionNames,
    fun table => ⟨(hs.numbered table).map_toNat, hissued table, fun id => (hs.numbered table).toNat_lt⟩,
    fun l hl => ⟨hs.linkedImage l hl, hs.linkedTag l hl⟩, ?_,
    fun m hm => ⟨hs.memberCollection m hm, hs.memberImage m hm⟩, ?_, hs.hashedImage, ?_, fun change fault => ?_, hkept⟩
  · exact Store.nodup_map_of_isOrdered hs.links fun a b h => Store.pairKey_inj.mpr (Prod.mk.inj h)
  · exact Store.nodup_map_of_isOrdered hs.members fun a b h => Store.pairKey_inj.mpr (Prod.mk.inj h)
  · exact Store.nodup_map_of_isOrdered hs.hashes fun a b h => congrArg UInt64.toNat h
  · rw [← Store.apply_eq_error_iff, Database.perform, Database.apply]
    cases s.apply change <;> simp

end TagSearch

import TagSearch.Source
import TagSearch.Store.Engine

/-! A catalog database as a source. -/
namespace TagSearch
open Sql

/-- The text of the statement that looks up tags by a column. -/
def Sql.tagLookupText (column : String) (count : Nat) : String :=
  "SELECT id, name, description, uploader_id, upload_time, aliased_id, is_alias FROM tags WHERE " ++ column ++
    " IN (" ++ String.intercalate "," (List.replicate count "?") ++ ")"

namespace Store

/-- The user of a name, without regard to case. Of several, the first in the order of the names. -/
def userIdByName (s : Store) (name : String) : Option UInt64 :=
  ((s.users.mergeSort fun a b => decide (a.name ≤ b.name)).find? fun u => Text.sameName u.name name).map User.id

def userFilter? (s : Store) (user : UInt64) : Option String :=
  (s.users.find? fun u => u.id = user).map User.filter

def imageHashes? (s : Store) (image : UInt64) : Option HashPair :=
  (s.hashes.find? fun h => h.image = image).map StoredHash.pair

/-- The images that have no hashes, oldest first, with their locations. -/
def imagesWithoutHashes (s : Store) : List (UInt64 × String) :=
  (s.images.filter fun i => !s.hashes.any fun h => h.image = i.id).map fun i => (i.id, i.location)

end Store

namespace Database

/-- An answer from the tables; the given table is the first one that it needs. -/
def answer {α : Type} (database : Database) (table : String) (f : Store → Except StoreError α) :
    Except StoreError α :=
  match database with
  | blank => .error (.database (.noSuchTable table))
  | ready store => f store

/-- The answer to a look-up of tags by the values of a column. -/
def findTags (database : Database) (column : String) (count : Nat) (isWanted : Tag → Bool) :
    Except StoreError (List Tag) :=
  if count = 0 then .ok []
  else
    match Sql.surplusValue? (Sql.tagLookupText column count) with
    | some offset => .error (.database (.tooManyValues (Sql.tagLookupText column count) offset))
    | none => database.answer "tags" fun store => .ok (store.tags.filter isWanted)

def imagesWithoutHashes (database : Database) : Except StoreError (List (UInt64 × String)) :=
  database.answer "images" fun store => .ok store.imagesWithoutHashes

end Database

namespace Engine

variable (engine : Engine)

/-- The answer to a statement that the engine does not refuse. -/
def execute {α : Type} (database : Database) (statement : Statement) (f : Store → α) : Except StoreError α :=
  match engine.rejects? statement with
  | some fault => .error (.database fault)
  | none => database.answer (Sql.table statement.kind) fun store =>
    match engine.abandons? store statement with
    | some fault => .error (.database fault)
    | none => .ok (f store)

/-- The answers of a database in its present state. -/
def source (database : Database) : Source where
  tagsByNames names := database.findTags "name" names.length fun t => names.contains t.name
  tagsByIds ids := database.findTags "id" ids.length fun t => ids.contains t.id
  userIdByName name := database.answer "users" fun store => .ok (store.userIdByName name)
  userFilter user := database.answer "users" fun store =>
    match store.userFilter? user with
    | some filter => .ok filter
    | none => .error (.unknownUser user)
  imageHashes image := database.answer "imaged_hashes" fun store => .ok (store.imageHashes? image)
  countMatches statement := engine.execute database statement fun store => store.count statement
  fetchId statement := engine.execute database statement fun store => (store.select statement).head?
  fetchImages statement := engine.execute database statement fun store =>
    (store.select statement).filterMap store.imageSummary?
  fetchCollections statement := engine.execute database statement fun store =>
    (store.select statement).filterMap store.collectionSummary?
  totalImages := database.answer "images" fun store => .ok (UInt64.ofNat store.images.length)
  snapshot := .ok ()

end Engine

/-- The answers of a database in its present state, from the engine of the program. -/
abbrev Database.source (database : Database) : Source := Engine.standard.source database

end TagSearch

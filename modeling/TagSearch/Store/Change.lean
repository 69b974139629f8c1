import TagSearch.Store.Fault
import TagSearch.Store.Table

/-! Changes of a catalog. A change that is refused leaves no trace. -/
namespace TagSearch

inductive Change
  | createUser (name : String)
  | setUserFilter (user : UInt64) (filter : String)
  | createTag (name description : String) (uploader : UInt64) (uploaded : Option Timestamp)
  | setTagTime (tag : UInt64) (uploaded : Option Timestamp)
  /-- Make a tag an alias of another one; chains are allowed. -/
  | aliasTag (tag target : UInt64)
  | createImage (name location : String) (uploader : UInt64)
  | setImageRating (image : UInt64) (rating : String)
  | setImageScores (image : UInt64) (average total voters : Int64)
  | tagImage (image tag : UInt64)
  | setImageHashes (image : UInt64) (pair : HashPair)
  | createCollection (name description : String) (uploader : UInt64)
  /-- Add an image to a collection, or change its weight. -/
  | addMember (collection image : UInt64) (weight : Int64)
deriving Repr, DecidableEq

namespace Store
open Sql (Fault)

/-- The id of a new row after the given number of rows; the largest id is 2⁶³ - 1. -/
def nextId (rows : Nat) : Except Fault UInt64 :=
  if rows + 1 < 1 <<< 63 then .ok (UInt64.ofNat (rows + 1)) else .error .full

/-- The rows with the row of the given id changed, if there is one. -/
def alter {α : Type} (id : α → UInt64) (k : UInt64) (f : α → α) (rows : List α) : List α :=
  rows.map fun row => if id row = k then f row else row

def createUser (s : Store) (name : String) : Except Fault (Store × UInt64) := do
  let id ← nextId s.users.length
  if s.users.any fun u => u.name = name then .error (.duplicate "users" "name")
  else .ok ({ s with users := s.users ++ [⟨id, name, ""⟩] }, id)

def createTag (s : Store) (name description : String) (uploader : UInt64) (uploaded : Option Timestamp) :
    Except Fault (Store × UInt64) := do
  let id ← nextId s.tags.length
  if s.tags.any fun t => t.name = name then .error (.duplicate "tags" "name")
  else .ok ({ s with tags := s.tags ++ [⟨id, name, description, uploader, uploaded, 0, false⟩] }, id)

def createImage (s : Store) (name location : String) (uploader : UInt64) : Except Fault (Store × UInt64) := do
  let id ← nextId s.images.length
  .ok ({ s with images := s.images ++ [⟨id, name, location, uploader, "unrated", 0, 0, 0⟩] }, id)

def createCollection (s : Store) (name description : String) (uploader : UInt64) :
    Except Fault (Store × UInt64) := do
  let id ← nextId s.collections.length
  if s.collections.any fun c => c.name = name then .error (.duplicate "collections" "name")
  else .ok ({ s with collections := s.collections ++ [⟨id, name, description, uploader⟩] }, id)

/-- Link a tag to an image; a link that exists already stays. -/
def tagImage (s : Store) (image tag : UInt64) : Except Fault Store :=
  if s.hasImage image && s.hasTag tag then
    .ok { s with links := Ordered.add TagLink.key ⟨image, tag⟩ s.links }
  else .error .missingReference

def setImageHashes (s : Store) (image : UInt64) (pair : HashPair) : Except Fault Store :=
  if s.hasImage image then .ok { s with hashes := Ordered.put StoredHash.key ⟨image, pair⟩ s.hashes }
  else .error .missingReference

def addMember (s : Store) (collection image : UInt64) (weight : Int64) : Except Fault Store :=
  if s.hasCollection collection && s.hasImage image then
    .ok { s with members := Ordered.put Member.key ⟨collection, image, weight⟩ s.members }
  else .error .missingReference

/-- The catalog after a change, and the id of the row it creates. Changes of rows that do not exist change
nothing. -/
def apply (s : Store) : Change → Except Fault (Store × Option UInt64)
  | .createUser name => return (← s.createUser name).map id some
  | .setUserFilter user filter =>
    .ok ({ s with users := alter User.id user (fun u => { u with filter := filter }) s.users }, none)
  | .createTag name description uploader uploaded =>
    return (← s.createTag name description uploader uploaded).map id some
  | .setTagTime tag uploaded =>
    .ok ({ s with tags := alter Tag.id tag (fun t => { t with uploaded := uploaded }) s.tags }, none)
  | .aliasTag tag target =>
    .ok ({ s with tags := alter Tag.id tag (fun t => { t with aliased := target, isAlias := true }) s.tags },
      none)
  | .createImage name location uploader => return (← s.createImage name location uploader).map id some
  | .setImageRating image rating =>
    .ok ({ s with images := alter Image.id image (fun i => { i with rating := rating }) s.images }, none)
  | .setImageScores image average total voters =>
    .ok ({ s with images := alter Image.id image (Image.withScores average total voters) s.images }, none)
  | .tagImage image tag => return (← s.tagImage image tag, none)
  | .setImageHashes image pair => return (← s.setImageHashes image pair, none)
  | .createCollection name description uploader =>
    return (← s.createCollection name description uploader).map id some
  | .addMember collection image weight => return (← s.addMember collection image weight, none)

end Store

def Change.table : Change → String
  | createUser .. | setUserFilter .. => "users"
  | createTag .. | setTagTime .. | aliasTag .. => "tags"
  | createImage .. | setImageRating .. | setImageScores .. => "images"
  | tagImage .. => "image_tags"
  | setImageHashes .. => "imaged_hashes"
  | createCollection .. => "collections"
  | addMember .. => "collection_members"

/-- A catalog database; before its tables are created it has none. -/
inductive Database
  | blank
  | ready (store : Store)
deriving Repr, DecidableEq

namespace Database

def createTables : Database → Database
  | blank => ready .empty
  | ready store => ready store

def apply : Database → Change → Except StoreError (Database × Option UInt64)
  | blank, change => .error (.database (.noSuchTable change.table))
  | ready store, change =>
    match store.apply change with
    | .ok (store, id) => .ok (ready store, id)
    | .error fault => .error (.database fault)

end Database
end TagSearch

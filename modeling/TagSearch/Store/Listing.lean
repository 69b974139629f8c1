import TagSearch.Store.Change
import TagSearch.Text.Decimal

/-! The written form of a catalog: a line for each row, with tabs between the fields. -/
namespace TagSearch

namespace Listing

/-- A text without tabs and line feeds, which have escapes. -/
def escape : List Char → List Char
  | [] => []
  | c :: rest =>
    (if c = '\\' then ['\\', '\\'] else if c = '\t' then ['\\', 't'] else if c = '\n' then ['\\', 'n'] else [c]) ++
      escape rest

def unescape : List Char → List Char
  | '\\' :: 't' :: rest => '\t' :: unescape rest
  | '\\' :: 'n' :: rest => '\n' :: unescape rest
  | '\\' :: c :: rest => c :: unescape rest
  | c :: rest => c :: unescape rest
  | [] => []

def field (s : String) : String := String.ofList (escape s.toList)

def moment : Option Timestamp → String
  | some t =>
    Timestamp.renderYear t.year ++ "-" ++ Text.padded 2 t.month ++ "-" ++ Text.padded 2 t.day ++ " " ++
      Text.padded 2 t.hour ++ ":" ++ Text.padded 2 t.minute ++ ":" ++ Text.padded 2 t.second
  | none => ""

def line (fields : List String) : String := String.intercalate "\t" fields ++ "\n"

def flag (b : Bool) : String := if b then "1" else "0"

def number (n : Int64) : String := toString n.toInt

def userLine (u : User) : String := line ["user", toString u.id, field u.name, field u.filter]

def tagLine (t : Tag) : String :=
  line ["tag", toString t.id, field t.name, field t.description, toString t.uploader, moment t.uploaded,
    toString t.aliased, flag t.isAlias]

def imageLine (i : Image) : String :=
  line ["image", toString i.id, field i.name, field i.location, toString i.uploader, field i.rating,
    number i.averageScore, number i.totalScore, number i.scoreVoters]

def linkLine (l : TagLink) : String := line ["link", toString l.image, toString l.tag]

def collectionLine (c : Collection) : String :=
  line ["collection", toString c.id, field c.name, field c.description, toString c.uploader]

def memberLine (m : Member) : String :=
  line ["member", toString m.collection, toString m.image, number m.weight]

def hashLine (h : StoredHash) : String :=
  line ["hashes", toString h.image, toString h.pair.horizontal, toString h.pair.vertical]

def title : String := "catalog"

def word? (s : String) : Option UInt64 := Text.word? s.toList

def number? (s : String) : Option Int64 := Text.integer? s.toList

def text (s : String) : String := String.ofList (unescape s.toList)

/-- The store with the row of a line. -/
def addLine (s : Store) (fields : List String) : Option Store :=
  match fields with
  | ["user", id, name, filter] => do
    return { s with users := s.users ++ [⟨← word? id, text name, text filter⟩] }
  | ["tag", id, name, description, uploader, uploaded, aliased, isAlias] => do
    return { s with tags := s.tags ++ [⟨← word? id, text name, text description, ← word? uploader,
      Timestamp.parse? uploaded, ← word? aliased, isAlias == "1"⟩] }
  | ["image", id, name, location, uploader, rating, average, total, voters] => do
    return { s with images := s.images ++ [⟨← word? id, text name, text location, ← word? uploader, text rating,
      ← number? average, ← number? total, ← number? voters⟩] }
  | ["link", image, tag] => do
    let row : TagLink := ⟨← word? image, ← word? tag⟩
    return { s with links := Ordered.add TagLink.key row s.links }
  | ["collection", id, name, description, uploader] => do
    return { s with collections := s.collections ++ [⟨← word? id, text name, text description, ← word? uploader⟩] }
  | ["member", collection, image, weight] => do
    let row : Member := ⟨← word? collection, ← word? image, ← number? weight⟩
    return { s with members := Ordered.put Member.key row s.members }
  | ["hashes", image, horizontal, vertical] => do
    let row : StoredHash := ⟨← word? image, ← word? horizontal, ← word? vertical⟩
    return { s with hashes := Ordered.put StoredHash.key row s.hashes }
  | _ => none

end Listing

namespace Database
open Listing

/-- The lines of a catalog; a blank one is an empty text. -/
def listing : Database → String
  | blank => ""
  | ready s =>
    line [title] ++ String.join (s.users.map userLine ++ s.tags.map tagLine ++ s.images.map imageLine ++
      s.links.map linkLine ++ s.collections.map collectionLine ++ s.members.map memberLine ++ s.hashes.map hashLine)

/-- The catalog of a listing; none if a line is no row. -/
def ofListing? (listing : String) : Option Database :=
  if listing.isEmpty then some .blank
  else
    match listing.splitOn "\n" with
    | first :: rows =>
      if first = title then
        ((rows.filter (· ≠ "")).foldlM (fun s row => addLine s (row.splitOn "\t")) Store.empty).map .ready
      else none
    | [] => none

end Database
end TagSearch

import TagSearch.Environment
import TagSearch.Toml.Document

/-! The configuration: where the catalog and its images are, and the settings of searching and hashing. -/
namespace TagSearch

structure Config where
  databasePath : String
  /-- The folder that the locations of images are relative to. -/
  imageFolder : String
  pageStride : UInt64
  /-- How many seconds the number of all images is remembered. -/
  countCacheSeconds : UInt64
  /-- The number of threads that hash images, 0 for one on each core. -/
  hashThreads : UInt64
deriving Repr, DecidableEq

namespace Config
open Toml

/-- The settings of a configuration that names none. -/
def default (e : Environment) : Config where
  databasePath := Path.join (Path.join e.dataFolder "tagsift") "tagsift.db"
  imageFolder := Path.join (Path.join e.dataFolder "tagsift") "images"
  pageStride := 30
  countCacheSeconds := 3600
  hashThreads := 0

def text? : Option Value → String → Option String
  | none, fallback => some fallback
  | some (.text s), _ => some s
  | some _, _ => none

def number? : Option Value → UInt64 → Option UInt64
  | none, fallback => some fallback
  | some (.integer n), _ => if 0 ≤ n then some n.toUInt64 else none
  | some _, _ => none

/-- A field of a section: of a table by its name, of an array by its place. A date has no field. -/
def field? (value : Value) (place : Nat) (name : String) : Option (Option Value) :=
  match value with
  | .table _ entries => some (Entries.get? entries name)
  | .array items => some items[place]?
  | .tables items => some (items[place]?.map (.table .header))
  | .moment _ => some none
  | _ => none

/-- A number in a section; a section that is missing names no number. -/
def sectionNumber? (value : Option Value) (place : Nat) (name : String) (fallback : UInt64) : Option UInt64 :=
  match value with
  | none => some fallback
  | some v => (field? v place name).bind fun field => number? field fallback

/-- The settings that the entries name, and the fallback's for the others. Other names do not count. -/
def ofEntries? (fallback : Config) (entries : Entries) : Option Config := do
  let databasePath ← text? (entries.get? "db_path") fallback.databasePath
  let imageFolder ← text? (entries.get? "image_dir") fallback.imageFolder
  let pageStride ← sectionNumber? (entries.get? "search") 0 "page_stride" fallback.pageStride
  let countCacheSeconds ← sectionNumber? (entries.get? "search") 1 "count_cache_secs" fallback.countCacheSeconds
  let hashThreads ← sectionNumber? (entries.get? "hashing") 0 "threads" fallback.hashThreads
  return ⟨databasePath, imageFolder, pageStride, countCacheSeconds, hashThreads⟩

/-- The configuration that a text describes; none if it describes none. -/
def read? (fallback : Config) (text : String) : Option Config :=
  (Toml.read? text).bind (ofEntries? fallback)

/-- A number as far as a document can hold it. -/
def scalar? (n : UInt64) : Option Scalar :=
  if n.toNat < 1 <<< 63 then some (.integer n.toInt64) else none

/-- The document of a configuration; none if a number is too large. -/
def document? (c : Config) : Option Document := do
  let pageStride ← scalar? c.pageStride
  let countCacheSeconds ← scalar? c.countCacheSeconds
  let hashThreads ← scalar? c.hashThreads
  return {
    entries := [("db_path", .text c.databasePath), ("image_dir", .text c.imageFolder)]
    tables := [("search", [("page_stride", pageStride), ("count_cache_secs", countCacheSeconds)]),
      ("hashing", [("threads", hashThreads)])] }

/-- The text of a configuration; none if a number is too large. -/
def render? (c : Config) : Option String := c.document?.map Document.render

end Config
end TagSearch

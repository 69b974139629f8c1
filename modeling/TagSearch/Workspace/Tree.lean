import TagSearch.Disk
import TagSearch.Path
import TagSearch.Png.Image
import TagSearch.Text.Bytes

/-! Folders and files in memory. Names and paths are bytes, as on a disk; most paths are the bytes of a text. -/
namespace TagSearch

/-- What a path can lead to. -/
inductive Entry
  | folder
  | text (content : String)
  | picture (content : Picture)
  | catalog (content : Database)
  /-- A file whose content is none of these. -/
  | bytes

namespace Workspace

abbrev Name := List UInt8

end Workspace

/-- Entries by the names that lead to them from the root. -/
structure Workspace where
  /-- The folder that relative paths start from. -/
  current : List Workspace.Name
  entries : List (List Workspace.Name × Entry)

namespace Workspace

def entry? (w : Workspace) (names : List Name) : Option Entry :=
  if names.isEmpty then some .folder else (w.entries.find? fun e => e.1 = names).map Prod.snd

def remove (w : Workspace) (names : List Name) : Workspace :=
  { w with entries := w.entries.filter fun e => e.1 ≠ names }

/-- Put an entry in place of what is there. -/
def set (w : Workspace) (names : List Name) (entry : Entry) : Workspace :=
  { w with entries := (names, entry) :: (w.remove names).entries }

def nameLimit : Nat := 255

/-- The size from which on a path is too long. -/
def pathLimit : Nat := 4096

def above : Name := Text.bytes ".."

def here : Name := Text.bytes "."

def slash : UInt8 := '/'.toUInt8

/-- The steps of a path, with those on the spot and upwards. -/
def steps (path : List UInt8) : List Name := (Text.pieces (· = slash) path).filter fun piece => !piece.isEmpty

/-- Where a path starts. -/
def origin (w : Workspace) (path : List UInt8) : List Name := if path.head? = some slash then [] else w.current

/-- The names that some steps from a folder lead to. All steps but the last lead through folders, also those on the
spot and upwards. -/
def walk (w : Workspace) (folder : List Name) : List Name → Except DiskError (List Name)
  | [] => .ok folder
  | name :: rest =>
    if name = above then w.walk folder.dropLast rest
    else if name = here then w.walk folder rest
    else if rest.isEmpty then .ok (folder ++ [name])
    else if nameLimit < name.length then .error .nameTooLong
    else
      match w.entry? (folder ++ [name]) with
      | some .folder => w.walk (folder ++ [name]) rest
      | some _ => .error .notFolder
      | none => .error .missing

def resolve (w : Workspace) (path : List UInt8) : Except DiskError (List Name) :=
  if path.contains 0 then .error .nulInPath
  else if path.isEmpty then .error .missing
  else if pathLimit ≤ path.length then .error .nameTooLong
  else w.walk (w.origin path) (steps path)

def endsInSlash (path : List UInt8) : Bool := path.getLast? = some slash

/-- The entry at some names, if there is one. -/
def lookUp (w : Workspace) (names : List Name) : Except DiskError (Option Entry) :=
  if names.getLast?.any fun name => nameLimit < name.length then .error .nameTooLong
  else .ok (w.entry? names)

def get (w : Workspace) (path : List UInt8) : Except DiskError Entry := do
  match ← w.lookUp (← w.resolve path) with
  | none => .error .missing
  | some .folder => .ok .folder
  | some entry => if endsInSlash path then .error .notFolder else .ok entry

def holds (w : Workspace) (path : List UInt8) : Bool :=
  match w.get path with
  | .ok _ => true
  | .error _ => false

def isFolder (w : Workspace) (path : List UInt8) : Bool :=
  match w.get path with
  | .ok .folder => true
  | _ => false

def readText (w : Workspace) (path : List UInt8) : Except DiskError String :=
  match w.get path with
  | .ok (.text content) => .ok content
  | .ok .folder => .error .isFolder
  | .ok _ => .error .notText
  | .error e => .error e

/-- Make a file or replace what it holds. -/
def write (w : Workspace) (path : List UInt8) (entry : Entry) : Except DiskError Workspace := do
  let names ← w.resolve path
  if endsInSlash path then .error .isFolder
  else
    match ← w.lookUp names with
    | some .folder => .error .isFolder
    | _ => .ok (w.set names entry)

/-- Make a folder in a folder that exists. -/
def makeFolder (w : Workspace) (path : List UInt8) : Except DiskError Workspace := do
  let names ← w.resolve path
  match ← w.lookUp names with
  | some _ => .error .taken
  | none => .ok (w.set names .folder)

/-- The picture in a file, if the name of the file tells its format. -/
def readPicture (w : Workspace) (path : String) : Option Picture :=
  match w.get (Text.bytes path) with
  | .ok (.picture content) => if Png.isName path then some content else none
  | _ => none

end Workspace
end TagSearch

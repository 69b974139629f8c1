import TagSearch.Path
import TagSearch.Picture.Grid
import TagSearch.Store.Address

/-! What the program does with files and folders. -/
namespace TagSearch

inductive DiskError
  | missing
  | taken
  | notFolder
  | isFolder
  /-- A name or a path is longer than the disk takes. -/
  | nameTooLong
  /-- A path holds a NUL. -/
  | nulInPath
  /-- The content of a file is no text. -/
  | notText
  | other (message : String)
deriving Repr, DecidableEq

def DiskError.message : DiskError → String
  | missing => "No such file or directory (os error 2)"
  | taken => "File exists (os error 17)"
  | notFolder => "Not a directory (os error 20)"
  | isFolder => "Is a directory (os error 21)"
  | nameTooLong => "File name too long (os error 36)"
  | nulInPath => "file name contained an unexpected NUL byte"
  | notText => "stream did not contain valid UTF-8"
  | other message => message

/-- Why a file cannot be used as a catalog. -/
inductive CatalogFault
  | opening (fault : Sql.Fault)
  | using (fault : Sql.Fault)
deriving Repr, DecidableEq

/-- An open file with the catalog that it holds. -/
structure CatalogFile where
  /-- The absolute path of the file. -/
  path : List UInt8
  isWritable : Bool
  /-- Whether changes go to a log of changes. -/
  hasLog : Bool
  /-- The absolute paths of the files beside it that go when it is closed. -/
  passing : List (List UInt8)
  database : Database

/-- The operations on files and folders that the program needs. -/
structure Disk (m : Type → Type) where
  holds : String → m Bool
  isFolder : String → m Bool
  readText : String → m (Except DiskError String)
  /-- Make a file or replace its content; its folder must exist. -/
  writeText : String → String → m (Except DiskError Unit)
  /-- Make a folder; the folder around it must exist. -/
  makeFolder : String → m (Except DiskError Unit)
  /-- The catalog in the file at a path, and what else its address asks for. An empty file holds a blank catalog. -/
  openCatalog : List UInt8 → Address → m (Except CatalogFault CatalogFile)
  writeCatalog : CatalogFile → Database → m (Except Sql.Fault Unit)
  closeCatalog : CatalogFile → m Unit
  readPicture : String → m (Option Picture)

namespace Disk

variable {m : Type → Type} [Monad m] (disk : Disk m)

/-- Make a folder that may be there already. -/
def ensureFolder (path : String) : m (Except DiskError Unit) := do
  match ← disk.makeFolder path with
  | .ok () => return .ok ()
  | .error e => if ← disk.isFolder path then return .ok () else return .error e

/-- Make the first of some folders, and where the folder around it is missing, the next one before. -/
def makeAlong : List String → m (Except DiskError Unit)
  | [] => return .ok ()
  | path :: outer => do
    if path.isEmpty then return .ok ()
    match ← disk.makeFolder path with
    | .ok () => return .ok ()
    | .error .missing =>
      match ← makeAlong outer with
      | .ok () => disk.ensureFolder path
      | .error e => return .error e
    | .error e => if ← disk.isFolder path then return .ok () else return .error e

/-- Make a folder and the folders around it, as far as they are missing. -/
def makeFolders (path : String) : m (Except DiskError Unit) := disk.makeAlong (Path.ancestors path)

end Disk
end TagSearch

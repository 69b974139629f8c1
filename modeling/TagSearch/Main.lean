import TagSearch.CommandLine.Run
import TagSearch.Png.Image
import TagSearch.Store.Listing

/-! The program: a command line over the files of the machine. -/
namespace TagSearch.Main

def causeOf (e : IO.Error) : DiskError :=
  match e with
  | .noFileOrDirectory .. => .missing
  | .alreadyExists .. => .taken
  | .inappropriateType _ 21 _ => .isFolder
  | .inappropriateType .. => .notFolder
  | .invalidArgument _ 36 _ => .nameTooLong
  | .invalidArgument _ _ "string contains NUL bytes" => .nulInPath
  | e => .other (toString e)

/-- The result of an operation, or the cause of its failure. -/
def attempt {α : Type} (action : IO α) : IO (Except DiskError α) := do
  try
    return .ok (← action)
  catch e =>
    return .error (causeOf e)

def readText (path : String) : IO (Except DiskError String) := do
  match ← attempt (IO.FS.readBinFile path) with
  | .error e => return .error e
  | .ok bytes =>
    match String.fromUTF8? bytes with
    | some text => return .ok text
    | none => return .error .notText

def holds (path : String) : IO Bool := do
  if path.isEmpty then return false else ((← IO.currentDir) / path).pathExists

/-- Open the catalog in a file. A missing file is created empty if the address allows it. -/
def openCatalog (bytes : List UInt8) (address : Address) : IO (Except CatalogFault CatalogFile) := do
  let unopened := .error (.opening (.unopened address.text))
  let openFile (path : String) (database : Database) : IO (Except CatalogFault CatalogFile) := do
    let absolute := ((← IO.currentDir) / path).toString
    return .ok ⟨Text.bytes absolute, address.writable, false, [], database⟩
  match address.permissionsOf with
  | some other => if !(← holds (Text.ofBytes other)) then return .error (.opening .noPermissions)
  | none => pure ()
  match String.fromUTF8? ⟨bytes.toArray⟩ with
  | none => return unopened
  | some path =>
    match ← readText path with
    | .ok text =>
      match Database.ofListing? text with
      | some database => openFile path database
      | none => return .error (.using .notCatalog)
    | .error .missing =>
      if address.access = .create then
        match ← attempt (IO.FS.writeFile path "") with
        | .ok () => openFile path .blank
        | .error _ => return unopened
      else return unopened
    | .error .notText => return .error (.using .notCatalog)
    | .error .isFolder => return if address.access = .readOnly then .error (.opening .unreadable) else unopened
    | .error _ => return unopened

def writeCatalog (file : CatalogFile) (database : Database) : IO (Except Sql.Fault Unit) := do
  if !file.isWritable then return .error .readOnly
  return (← attempt (IO.FS.writeFile (Text.ofBytes file.path) database.listing)).mapError fun _ => .noCompanion

def readPicture (path : String) : IO (Option Picture) := do
  if Png.isName path then
    match ← attempt (IO.FS.readBinFile path) with
    | .ok bytes => return Png.read? bytes
    | .error _ => return none
  else return none

def disk : Disk IO where
  holds := holds
  isFolder path := if path.isEmpty then return false else do ((← IO.currentDir) / path).isDir
  readText := readText
  writeText path text := attempt (IO.FS.writeFile path text)
  makeFolder path := attempt (IO.FS.createDir path)
  openCatalog := openCatalog
  writeCatalog := writeCatalog
  closeCatalog _ := return
  readPicture := readPicture

def environment : IO Environment := do
  return {
    configuration := ← IO.getEnv "TAGSIFT_CONFIG"
    configHome := ← IO.getEnv "XDG_CONFIG_HOME"
    dataHome := ← IO.getEnv "XDG_DATA_HOME"
    home := ← IO.getEnv "HOME"
    accountHome := none }

end TagSearch.Main

def main (words : List String) : IO UInt32 := do
  let seed ← IO.rand 0 (1 <<< 62)
  let environment ← TagSearch.Main.environment
  let draw (count : UInt64) : UInt64 := UInt64.ofNat seed % count
  let output ← TagSearch.CommandLine.run TagSearch.Main.disk environment draw words
  (← IO.getStdout).putStr output.stdout
  (← IO.getStderr).putStr output.stderr
  return output.code.toUInt32

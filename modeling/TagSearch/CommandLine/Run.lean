import TagSearch.CommandLine.Failure
import TagSearch.CommandLine.Help
import TagSearch.CommandLine.Report
import TagSearch.Export
import TagSearch.Hashing

/-! One run of the program. -/
namespace TagSearch.CommandLine

structure Output where
  code : UInt8
  stdout : String
  stderr : String
deriving Repr, DecidableEq

/-- What is said to a command line that cannot be run. -/
def Stop.output : Stop → Output
  | help => ⟨0, CommandLine.help, ""⟩
  | version => ⟨0, CommandLine.version, ""⟩
  | missingValue flag => ⟨1, "", "Error: " ++ flag ++ " requires an argument\n"⟩
  | invalidNumber flag text =>
    ⟨1, "", "Error: " ++ flag ++ " expects a non-negative number, got '" ++ text ++ "'\n"⟩
  | unknownCommand word => ⟨1, CommandLine.help, "Unknown command: " ++ word ++ "\n"⟩

variable {m : Type → Type} [Monad m]

/-- A step of a run. -/
abbrev Step (m : Type → Type) := ExceptT Failure m

def ofExcept {α : Type} : Except Failure α → Step m α
  | .ok a => pure a
  | .error failure => throw failure

/-- The result of an inquiry at a catalog. -/
def inquire {α : Type} (database : Database) (x : Inquiry α) : Step m α :=
  ofExcept ((x database.source).result.mapError .search)

def Failure.ofFault (fault : Sql.Fault) : Failure := .search (.store (.database fault))

/-- What a file that is no usable catalog means for the address that leads to it. -/
def failureOf (address : String) : CatalogFault → Failure
  | .opening fault => .opening address (.database fault)
  | .using fault => .ofFault fault

structure Opened where
  /-- Whether it may be changed, if it is not in a file. -/
  isWritable : Bool
  /-- The file; none for a catalog in memory. -/
  file : Option CatalogFile
  database : Database

def Opened.write (disk : Disk m) (opened : Opened) (database : Database) : Step m Unit :=
  match opened.file with
  | some file => ExceptT.adapt .ofFault (ExceptT.mk (disk.writeCatalog file database))
  | none => if opened.isWritable then pure () else throw (.ofFault .readOnly)

def Opened.close (disk : Disk m) (opened : Opened) : m Unit :=
  match opened.file with
  | some file => disk.closeCatalog file
  | none => pure ()

/-- Open the catalog at an address, after making its folder, and create its tables if there are none. -/
def openCatalog (disk : Disk m) (text : String) : Step m Opened := do
  match Path.parent? text with
  | some folder =>
    let explain (e : DiskError) : Failure := .opening text (.unavailable (folder ++ ": " ++ e.message))
    ExceptT.adapt explain (ExceptT.mk (disk.makeFolders folder))
  | none => pure ()
  let address ← ofExcept ((Address.parse text).mapError fun fault => .opening text (.database fault))
  let opened : Opened ← match address.file with
    | some path => do
      let file ← ExceptT.adapt (failureOf text) (ExceptT.mk (disk.openCatalog path address))
      pure ⟨file.isWritable, some file, file.database⟩
    | none => pure ⟨address.writable, none, .blank⟩
  if opened.database = .blank then opened.write disk opened.database.createTables
  pure { opened with database := opened.database.createTables }

def findUser (database : Database) : Option String → Step m (Option UInt64)
  | none => pure none
  | some name => do
    match ← inquire database (Inquiry.userIdByName name) with
    | some id => pure (some id)
    | none => throw (.unknownUser name)

def exportTo (disk : Disk m) (database : Database) (request : Request) (path : String) : Step m String := do
  match Export.Format.ofPath? path with
  | none => throw (.unknownFormat path)
  | some format =>
    let records ← inquire database do Export.records (← request.predicates request.kind) request.kind
    ExceptT.adapt .disk (ExceptT.mk (disk.writeText path (format.render records)))
    pure (lines ["Exported " ++ toString records.length ++ " rows as " ++ format.name ++ " to " ++ path])

/-- Hash the images without hashes, which lie in a folder; `pairOf` gives the pair of a picture. -/
def hash (disk : Disk m) (pairOf : Picture → HashPair) (config : Config) (opened : Opened) : Step m String := do
  let pending ← ofExcept (opened.database.imagesWithoutHashes.mapError fun e => .search (.store e))
  let found ← pending.mapM fun (image, location) => do
    let picture ← disk.readPicture (Path.join config.imageFolder location)
    pure (image, picture.map pairOf)
  let (hashed, report) ← ofExcept ((opened.database.storeHashes ⟨0, 0⟩ found).mapError fun e => .search (.store e))
  if report.hashed ≠ 0 then opened.write disk hashed
  pure (lines ["Hashed " ++ toString report.hashed ++ " images (" ++ toString report.failed ++ " failed)"])

def stats (config : Config) (database : Database) : Step m String := do
  let cache := CountCache.empty config.countCacheSeconds.toNat
  let (count, _) ← inquire database (cache.get 0)
  let pending ← ofExcept (database.imagesWithoutHashes.mapError fun e => .search (.store e))
  pure (lines ["Images: " ++ toString count, "Unhashed: " ++ toString pending.length])

/-- The kind of entity that a command works on where it can work on both. -/
def Arguments.kind (args : Arguments) : Kind :=
  if args.collections ∨ args.command = some .collections then .collection else .image

def perform (disk : Disk m) (draw : UInt64 → UInt64) (config : Config) (opened : Opened)
    (args : Arguments) (command : Command) : Step m String := do
  let database := opened.database
  let user ← findUser database args.user
  let request : Request :=
    ⟨String.intercalate " " args.query, user, args.kind, args.start, args.stride.getD config.pageStride⟩
  match command with
  | .parse => inquire database request.parseReport
  | .images => inquire database request.imageReport
  | .collections => inquire database request.collectionReport
  | .adjacent pivot => inquire database (request.adjacentReport pivot)
  | .random => inquire database (request.randomReport draw)
  | .exportTo path => exportTo disk database request path
  | .hash => hash disk HashPair.ofPicture config opened
  | .stats => stats config database

/-- Load the configuration, open the catalog and perform the command; without a command there is help, and the
catalog is left as it is. -/
def runArguments (disk : Disk m) (environment : Environment) (draw : UInt64 → UInt64) (args : Arguments) :
    Step m Output := do
  let path := args.config.getD environment.configPath
  let config ← ExceptT.adapt .config (Config.load disk (Config.default environment) path)
  let opened ← openCatalog disk config.databasePath
  match args.command with
  | none => pure ⟨1, CommandLine.help, ""⟩
  | some command =>
    let printed ← ExceptT.lift (perform disk draw config opened args command).run
    ExceptT.lift (opened.close disk)
    return ⟨0, ← ofExcept printed, ""⟩

/-- What is said if the folder for records of runs cannot be made. Records that go to the standard error need no
folder. -/
def logWarning (disk : Disk m) (environment : Environment) (args : Arguments) : m String := do
  if args.verbose then return ""
  match ← disk.makeFolders environment.logFolder with
  | .ok () => return ""
  | .error e => return lines ["Warning: logging unavailable: " ++ e.message]

/-- Run the program with the words of a command line. -/
def run (disk : Disk m) (environment : Environment) (draw : UInt64 → UInt64) (words : List String) : m Output :=
  match Arguments.parse words with
  | .error stop => pure stop.output
  | .ok args => do
    let warning ← logWarning disk environment args
    let output := match ← (runArguments disk environment draw args).run with
      | .ok output => output
      | .error failure => ⟨1, "", failure.render⟩
    return { output with stderr := warning ++ output.stderr }

end TagSearch.CommandLine

import TagSearch.Sql.Text

/-! Why a catalog cannot answer. -/
namespace TagSearch

namespace Sql

/-- What the database engine refuses. -/
inductive Fault
  | noSuchTable (table : String)
  /-- A value that must be unique occurs already. -/
  | duplicate (table column : String)
  /-- A row refers to a row that does not exist. -/
  | missingReference
  /-- A word stands where the grammar does not allow it; the offset counts bytes. -/
  | syntaxNear (word text : String) (offset : Nat)
  | full
  /-- A statement has more values than the engine takes; the offset of the first that is too many counts bytes. -/
  | tooManyValues (text : String) (offset : Nat)
  /-- A statement has an expression that is nested too deeply. -/
  | tooDeep
  | patternTooLong
  | readOnly
  /-- The file is something else. -/
  | notCatalog
  /-- The file begins like a catalog and does not go on like one. -/
  | malformed
  | newerFormat
  /-- There is no file that could be opened. -/
  | unopened (address : String)
  | unreadable
  | noCompanion
  /-- A broken change must be taken back, and the catalog may only be read. -/
  | brokenChange
  | undeletable
  | noIndex
  /-- Another program works on the catalog. -/
  | locked
  /-- There is no way to keep others away. -/
  | unlockable
  /-- The file whose permissions a new file is to get does not exist. -/
  | noPermissions
  | foreignHost (host : String)
  /-- The value of a parameter is unknown; the setting is what the parameter is about. -/
  | noSuchMode (setting value : String)
  /-- A parameter asks for more than is allowed. -/
  | refusedMode (setting value : String)
  | noSuchSystem (name : String)
  /-- An address holds a NUL; the position counts bytes. -/
  | nulByte (position : Nat)
deriving Repr, DecidableEq

def Fault.message : Fault → String
  | noSuchTable table => "no such table: " ++ table
  | duplicate table column => "UNIQUE constraint failed: " ++ table ++ "." ++ column
  | missingReference => "FOREIGN KEY constraint failed"
  | syntaxNear word text offset =>
    "near \"" ++ word ++ "\": syntax error in " ++ text ++ " at offset " ++ toString offset
  | full => "database or disk is full"
  | tooManyValues text offset => "too many SQL variables in " ++ text ++ " at offset " ++ toString offset
  | tooDeep => "Expression tree is too large (maximum depth 1000)"
  | patternTooLong => "LIKE or GLOB pattern too complex"
  | readOnly => "attempt to write a readonly database"
  | brokenChange => "attempt to write a readonly database"
  | notCatalog => "file is not a database"
  | malformed => "database disk image is malformed"
  | newerFormat => "unsupported file format"
  | unopened address => "unable to open database file: " ++ address
  | noCompanion => "unable to open database file"
  | unreadable | noPermissions | undeletable | unlockable => "disk I/O error"
  | noIndex => "locking protocol"
  | locked => "database is locked"
  | foreignHost host => "invalid uri authority: " ++ host
  | noSuchMode setting value => "no such " ++ setting ++ " mode: " ++ value
  | refusedMode setting value => setting ++ " mode not allowed: " ++ value
  | noSuchSystem name => "no such vfs: " ++ name
  | nulByte position => "nul byte found in provided data at position: " ++ toString position

/-- The number of a fault and what the number means; a NUL is found before there could be a number. -/
def Fault.code? : Fault → Option (Nat × String)
  | noSuchTable .. | syntaxNear .. | tooManyValues .. | tooDeep | patternTooLong | foreignHost .. | noSuchMode ..
  | noSuchSystem .. | newerFormat => some (1, "SQL error or missing database")
  | duplicate .. => some (2067, "A UNIQUE constraint failed")
  | missingReference => some (787, "Foreign key constraint failed")
  | full => some (13, "Insertion failed because database is full")
  | readOnly => some (8, "Attempt to write a readonly database")
  | notCatalog => some (26, "File opened that is not a database file")
  | malformed => some (11, "The database disk image is malformed")
  | unopened _ | noCompanion => some (14, "Unable to open the database file")
  | unreadable => some (266, "Error reading from disk")
  | brokenChange => some (776, "Database has hot journal that must be rolled back (requires write access)")
  | undeletable => some (2570, "I/O error within xDelete of a VFS object")
  | noIndex => some (15, "Database lock protocol error")
  | locked => some (5, "The database file is locked")
  | unlockable => some (3850, "I/O error in the advisory file locking layer")
  | noPermissions => some (1802, "Error invoking fstat to get file metadata")
  | refusedMode .. => some (3, "Access permission denied")
  | nulByte _ => none

/-- What is behind a fault. -/
def Fault.cause (fault : Fault) : String :=
  match fault.code? with
  | some (code, meaning) => "Error code " ++ toString code ++ ": " ++ meaning
  | none => fault.message

end Sql

inductive StoreError
  | database (fault : Sql.Fault)
  | unknownUser (user : UInt64)
  | unavailable (reason : String)
deriving Repr, DecidableEq

def StoreError.message : StoreError → String
  | database fault => "sqlite error: " ++ fault.message
  | unknownUser user => "unknown user '" ++ toString user ++ "'"
  | unavailable reason => "store unavailable: " ++ reason

/-- What led to the error, the nearest cause first. -/
def StoreError.causes : StoreError → List String
  | database fault => [fault.message, fault.cause]
  | _ => []

end TagSearch

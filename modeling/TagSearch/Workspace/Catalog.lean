import TagSearch.Store.Header
import TagSearch.Workspace.Tree

/-!
Catalogs in a workspace. Beside the file of a catalog the engine keeps files of its own, under its name and an
ending: a journal with the state before a change, or a log of changes with an index. A run may find such files of
another run, or something else under their names.
-/
namespace TagSearch
open Sql (Fault)

namespace Entry

def isFolder : Entry → Bool
  | folder => true
  | _ => false

def isEmpty : Entry → Bool
  | text content => content.isEmpty
  | _ => false

def startsWithNul : Entry → Bool
  | text content => content.toList.head? = some '\x00'
  | _ => false

/-- The size of the head of a log of changes. -/
def logHeadSize : Nat := 32

/-- Whether a file has room for the head of a log. Pictures and catalogs are larger. -/
def holdsLogHead : Entry → Bool
  | text content => logHeadSize ≤ content.utf8ByteSize
  | _ => true

def catalog? : Entry → Except Fault Database
  | catalog database => .ok database
  | text content => Header.read (Text.bytes content)
  | _ => .error .notCatalog

end Entry

namespace Workspace

/-- The size of the longest path of a catalog; the engine appends a few characters to it for files of its own. -/
def catalogPathLimit : Nat := 504

def pathSize (names : List Name) : Nat := names.foldl (fun size name => size + name.length + 1) 0

/-- The names that the path of a catalog leads to, step by step. A step upwards takes the last name away, whatever
it is; a step into a file or by too long a name leads nowhere. -/
def catalogNamesFrom (w : Workspace) (names : List Name) : List Name → Option (List Name)
  | [] => if names.isEmpty ∨ catalogPathLimit < pathSize names then none else some names
  | name :: rest =>
    if name = above then w.catalogNamesFrom names.dropLast rest
    else if name = here then w.catalogNamesFrom names rest
    else if catalogPathLimit + 7 < pathSize (names ++ [name]) then none
    else
      match w.entry? names with
      | some .folder =>
        if nameLimit < name.length then none else w.catalogNamesFrom (names ++ [name]) rest
      | some _ => none
      | none => w.catalogNamesFrom (names ++ [name]) rest

def catalogNames? (w : Workspace) (path : List UInt8) : Option (List Name) :=
  w.catalogNamesFrom (w.origin path) (steps path)

def absolutePath (names : List Name) : List UInt8 := names.flatMap fun name => slash :: name

/-- The names of a file that lies beside another under its name and an ending. -/
def beside (names : List Name) (ending : String) : List Name :=
  names.dropLast ++ [(names.getLast?.getD []) ++ Text.bytes ending]

/-- What the name of a catalog ends in where the state before a change is kept. -/
def journalEnding : String := "-journal"

/-- What the name of a catalog ends in where a log of changes is kept. -/
def logEnding : String := "-wal"

/-- What the name of a catalog ends in where the index of a log is kept. -/
def indexEnding : String := "-shm"

/-- What the name of a catalog ends in where a folder stands for a lock. -/
def lockEnding : String := ".lock"

/-- What lies beside a catalog; an empty file counts as nothing. -/
def companion? (w : Workspace) (names : List Name) (ending : String) : Option Entry :=
  match w.lookUp (beside names ending) with
  | .ok (some entry) => if entry.isEmpty then none else some entry
  | _ => none

/-- Whether a lock can be had. -/
def checkLock (w : Workspace) (names : List Name) (address : Address) : Except Fault Unit :=
  if address.system = .lockFolder ∧ address.locks then
    match w.lookUp (beside names lockEnding) with
    | .ok none => .ok ()
    | .ok (some _) => .error .locked
    | .error _ => .error .unlockable
  else .ok ()

/-- Whether somebody seems to be changing the catalog. A folder that stands for a lock does not tell whose it is. -/
def seemsReserved (w : Workspace) (names : List Name) (address : Address) : Bool :=
  address.system = .lockFolder && (address.locks || (w.entry? (beside names lockEnding)).isSome)

/-- Whether a lock for a change can be had: locks on a file need a file that may be written. -/
def canReserve (address : Address) : Bool :=
  address.access ≠ .readOnly || !address.locks || address.system = .lockFree

/-- Take back a change that broke off. Its journal says nothing about a file without content, and nothing at all if
it starts with a NUL. What else may be found there holds no pages to put back, so it is only deleted. -/
def takeBack (w : Workspace) (names : List Name) (address : Address) (isBlank : Bool) : Except Fault Workspace :=
  match w.companion? names journalEnding with
  | none => .ok w
  | some journal =>
    if w.seemsReserved names address then .ok w
    else if isBlank then
      .ok (if journal.isFolder || !canReserve address then w else w.remove (beside names journalEnding))
    else if journal.isFolder then .error .unreadable
    else if journal.startsWithNul then .ok w
    else if address.access = .readOnly then .error .brokenChange
    else .ok (w.remove (beside names journalEnding))

/-- How changes to an open catalog are kept. -/
structure ChangeLog where
  /-- Whether the log takes changes. -/
  takesChanges : Bool
  /-- The files that go when the catalog is closed. -/
  passing : List (List Name)

/-- Go on with the log of changes beside a catalog, if there is one. What else may be found there holds no changes.
A log needs an index that all programs share, in a file of its own or, for one program alone, in memory. -/
def joinLog (w : Workspace) (names : List Name) (address : Address) (isBlank : Bool) :
    Except Fault (Option ChangeLog × Workspace) :=
  let log := beside names logEnding
  let index := beside names indexEnding
  match w.companion? names logEnding with
  | none => .ok (none, w)
  | some entry =>
    if isBlank then if entry.isFolder then .error .undeletable else .ok (none, w.remove log)
    else if entry.isFolder || !address.locks || !(address.system = .plain || address.system = .exclusive) then
      .error .noCompanion
    else if address.system = .exclusive ∧ address.access ≠ .readOnly then .ok (some ⟨true, [log]⟩, w)
    else
      let unchanged := if entry.holdsLogHead then .error .noIndex else .ok (some ⟨false, []⟩, w)
      match w.entry? index with
      | some .folder => unchanged
      | some _ =>
        if address.fixedIndex then unchanged else .ok (shared address log index, w.set index .bytes)
      | none =>
        if address.fixedIndex then .error .noCompanion else .ok (shared address log index, w.set index .bytes)
where
  /-- A log whose index is a file; the last program that may write deletes both. -/
  shared (address : Address) (log index : List Name) : Option ChangeLog :=
    if address.access = .readOnly then some ⟨false, []⟩ else some ⟨true, [log, index]⟩

def removeAll (w : Workspace) (files : List (List Name)) : Workspace := files.foldl remove w

def readCatalog (w : Workspace) (names : List Name) (address : Address) (entry : Entry) :
    Except Fault CatalogFile × Workspace :=
  let openFile (log : Option ChangeLog) (database : Database) : CatalogFile :=
    { path := absolutePath names
      isWritable := address.writable && log.all ChangeLog.takesChanges
      hasLog := log.isSome
      passing := (log.map ChangeLog.passing).getD [] |>.map absolutePath
      database := database }
  if address.immutable then (entry.catalog?.map (openFile none), w)
  else
    match w.checkLock names address with
    | .error fault => (.error fault, w)
    | .ok () =>
      match w.takeBack names address entry.isEmpty with
      | .error fault => (.error fault, w)
      | .ok w =>
        match w.joinLog names address entry.isEmpty with
        | .error fault => (.error fault, w)
        | .ok (log, w) =>
          match entry.catalog? with
          | .ok database => (.ok (openFile log database), w)
          | .error fault => (.error fault, w.removeAll ((log.map ChangeLog.passing).getD []))

/-- Open the catalog in a file. A missing file is created empty if the address allows it. -/
def openCatalog (w : Workspace) (path : List UInt8) (address : Address) :
    Except CatalogFault CatalogFile × Workspace :=
  let unopened := .error (.opening (.unopened address.text))
  match w.catalogNames? path with
  | none => (unopened, w)
  | some names =>
    if address.permissionsOf.any (!w.holds ·) then (.error (.opening .noPermissions), w)
    else
      let read (entry : Entry) (w : Workspace) :=
        let (outcome, w) := w.readCatalog names address entry
        (outcome.mapError .using, w)
      match w.entry? names with
      | some .folder =>
        (if address.access = .readOnly then .error (.opening .unreadable) else unopened, w)
      | some entry => read entry w
      | none =>
        match address.access, w.entry? names.dropLast with
        | .create, some .folder => read (.text "") (w.set names (.text ""))
        | _, _ => (unopened, w)

/-- Replace the catalog in an open file. Without a log a change needs a journal beside the file while it lasts. -/
def writeCatalog (w : Workspace) (file : CatalogFile) (database : Database) : Except Fault Unit × Workspace :=
  let names := steps file.path
  let changed := w.set names (.catalog database)
  if !file.isWritable then (.error .readOnly, w)
  else if file.hasLog then (.ok (), changed)
  else
    match w.lookUp (beside names journalEnding) with
    | .error _ | .ok (some .folder) => (.error .noCompanion, w)
    | .ok _ => (.ok (), changed.remove (beside names journalEnding))

/-- Close a catalog: the files that only an open catalog needs go. -/
def closeCatalog (w : Workspace) (file : CatalogFile) : Workspace := w.removeAll (file.passing.map steps)

end Workspace
end TagSearch

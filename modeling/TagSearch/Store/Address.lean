import TagSearch.Store.Change
import TagSearch.Text.Bytes
import TagSearch.Text.Decimal
import TagSearch.Text.Hex
import TagSearch.Text.Letter
import TagSearch.Text.Pieces

/-!
Addresses of catalogs. An address is a path, or `file:` and a path in which `%41` stands for the letter A, with
parameters after a question mark: `file:catalog.db?mode=ro`. What follows a number sign does not count.
-/
namespace TagSearch

inductive Access
  | readOnly
  /-- The file must exist. -/
  | existing
  | create
deriving Repr, DecidableEq

/-- A higher rank allows more. -/
def Access.rank : Access → Nat
  | readOnly => 0
  | existing => 1
  | create => 2

/-- The systems of files that hold catalogs. They differ in how they keep programs from working on one catalog at
the same time. -/
inductive FileSystem
  /-- Locks lie on the file. -/
  | plain
  /-- Locks lie on the file, and nobody else may read it. -/
  | exclusive
  /-- A folder beside the file stands for the lock. -/
  | lockFolder
  /-- There are no locks. -/
  | lockFree
  | memory
deriving Repr, DecidableEq

def FileSystem.ofName? (name : String) : Option FileSystem :=
  if name = "unix" then some plain
  else if name = "unix-excl" then some exclusive
  else if name = "unix-dotfile" then some lockFolder
  else if name = "unix-none" then some lockFree
  else if name = "memdb" then some memory
  else none

structure Address where
  text : String
  /-- The path of the file, which need not be text; none for a catalog that lives as long as it is open. -/
  file : Option (List UInt8)
  access : Access
  /-- Nobody changes the file while it is open. -/
  immutable : Bool
  system : FileSystem
  /-- Whether locks are asked for, if the system has some. -/
  locks : Bool
  /-- The index of a change log must be there already, and stays as it is. -/
  fixedIndex : Bool
  /-- The file whose permissions a new file gets. -/
  permissionsOf : Option (List UInt8)
deriving Repr, DecidableEq

namespace Address
open Sql (Fault)

/-- A byte of an address. An escaped byte is no mark. -/
structure Octet where
  value : UInt8
  escaped : Bool
deriving Repr, DecidableEq

/-- The bytes that an address stands for. -/
def octets : List UInt8 → List Octet
  | [] => []
  | [a] => [⟨a, false⟩]
  | [a, b] => [⟨a, false⟩, ⟨b, false⟩]
  | a :: b :: c :: rest =>
    match Text.hexValue? (Char.ofNat b.toNat), Text.hexValue? (Char.ofNat c.toNat) with
    | some high, some low =>
      if a = '%'.toUInt8 then ⟨UInt8.ofNat (16 * high + low), true⟩ :: octets rest
      else ⟨a, false⟩ :: octets (b :: c :: rest)
    | _, _ => ⟨a, false⟩ :: octets (b :: c :: rest)

def isMark (c : Char) (o : Octet) : Bool := !o.escaped && o.value == c.toUInt8

/-- The bytes before the first NUL. -/
def beforeNul (bytes : List Octet) : List UInt8 := (bytes.map Octet.value).takeWhile (· ≠ 0)

/-- The name and the value of a parameter, if it has a name. -/
def parameter? (bytes : List Octet) : Option (String × List UInt8) :=
  let name := beforeNul (bytes.takeWhile (!isMark '=' ·))
  if name.isEmpty then none
  else some (Text.ofBytes name, beforeNul ((bytes.dropWhile (!isMark '=' ·)).drop 1))

/-- The path and the parameters of an address without its head. -/
def split (text : List UInt8) : List UInt8 × List (String × List UInt8) :=
  let bytes := octets (text.takeWhile (· ≠ '#'.toUInt8))
  let path := bytes.takeWhile (!isMark '?' ·)
  let rest := (bytes.dropWhile (!isMark '?' ·)).drop 1
  (beforeNul path, (Text.pieces (isMark '&') rest).filterMap parameter?)

/-- What follows the host of an address; only this machine can be named. -/
def afterHost (text : List UInt8) : Except Fault (List UInt8) :=
  let slash := '/'.toUInt8
  match text with
  | a :: b :: rest =>
    if a = slash ∧ b = slash then
      let host := rest.takeWhile (· ≠ slash)
      if host = [] ∨ host = Text.bytes "localhost" then .ok (rest.dropWhile (· ≠ slash))
      else .error (.foreignHost (Text.ofBytes host))
    else .ok text
  | _ => .ok text

inductive Mode
  | file (access : Access)
  | memory
deriving Repr, DecidableEq

def Mode.ofName? (name : String) : Option Mode :=
  if name = "ro" then some (.file .readOnly)
  else if name = "rw" then some (.file .existing)
  else if name = "rwc" then some (.file .create)
  else if name = "memory" then some .memory
  else none

/-- Whether one mode may take the place of another: it must not allow more. Memory allows everything. -/
def Mode.yieldsTo : Mode → Mode → Bool
  | file old, file new => new.rank ≤ old.rank
  | _, _ => true

/-- The mode after a parameter. -/
def Mode.next (mode : Mode) (parameter : String × List UInt8) : Except Fault Mode :=
  let (name, value) := (parameter.1, Text.ofBytes parameter.2)
  if name = "mode" then
    match ofName? value with
    | none => .error (.noSuchMode "access" value)
    | some new => if mode.yieldsTo new then .ok new else .error (.refusedMode "access" value)
  else if name = "cache" then
    if value = "shared" ∨ value = "private" then .ok mode else .error (.noSuchMode "cache" value)
  else .ok mode

/-- The number that a value begins with: `0x` and digits of base 16, or decimal digits. -/
def number? (value : List Char) : Option Nat :=
  let decimal := Text.natural? (value.takeWhile Text.isDigit)
  match value with
  | '0' :: x :: rest =>
    if x = 'x' ∨ x = 'X' then
      let digits := rest.takeWhile fun c => (Text.hexValue? c).isSome
      if digits.isEmpty then decimal else some (Text.ofHex digits)
    else decimal
  | _ => decimal

/-- Whether the value of a parameter switches something on: a number of 31 bits that is no multiple of 256, or a
word. -/
def isOn (value : String) : Bool :=
  match number? value.toList with
  | some n => n < 1 <<< 31 && n % 256 ≠ 0
  | none => ["on", "yes", "true"].contains (Text.lowerAsciiText value)

def memoryPath : String := ":memory:"

/-- The address of a path and parameters. -/
def ofParts (text : String) (path : List UInt8) (parameters : List (String × List UInt8)) :
    Except Fault Address := do
  let mode ← parameters.foldlM Mode.next (.file .create)
  let system ← match (parameters.filter (·.1 = "vfs")).getLast? with
    | none => pure .plain
    | some (_, name) =>
      match FileSystem.ofName? (Text.ofBytes name) with
      | some system => pure system
      | none => throw (.noSuchSystem (Text.ofBytes name))
  let first (name : String) : Option (List UInt8) := (parameters.find? (·.1 = name)).map Prod.snd
  let sets (name : String) : Bool := (first name).any fun value => isOn (Text.ofBytes value)
  let named := mode ≠ .memory ∧ path ≠ [] ∧ path ≠ Text.bytes memoryPath
  return {
    text := text
    file := if named ∧ system ≠ .memory then some path else none
    access := match mode with
      | .file access => access
      | .memory => .create
    immutable := named ∧ sets "immutable"
    system := system
    locks := !sets "nolock"
    fixedIndex := sets "readonly_shm"
    permissionsOf := first "modeof" }

def writable (address : Address) : Bool := address.access ≠ .readOnly && !address.immutable

/-- What an address of files begins with. -/
def scheme : List UInt8 := Text.bytes "file:"

/-- Read an address. A NUL is nowhere allowed. -/
def parse (text : String) : Except Fault Address := do
  let bytes := Text.bytes text
  if bytes.contains 0 then throw (.nulByte (bytes.takeWhile (· ≠ 0)).length)
  if bytes.take scheme.length = scheme then
    let (path, parameters) := split (← afterHost (bytes.drop scheme.length))
    ofParts text path parameters
  else ofParts text bytes []

end Address
end TagSearch

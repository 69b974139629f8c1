import TagSearch.Store.Change
import TagSearch.Text.Bytes

/-!
Files that begin like catalogs. The first hundred bytes of a catalog are its header; then its first page goes on
with a tree of tables. A file without tables is a blank catalog; of a file that holds something else this only tells
what is wrong with it.
-/
namespace TagSearch.Header
open Sql (Fault)

/-- What a catalog begins with. -/
def signature : List UInt8 := Text.bytes "SQLite format 3" ++ [0]

/-- The number in some bytes, the highest first; what the file does not hold counts as 0. -/
def number (file : List UInt8) (start size : Nat) : Nat :=
  (List.range size).foldl (fun n i => 256 * n + (file[start + i]?.getD 0).toNat) 0

/-- The size of a page. One size does not fit in two bytes, and is written as 1. -/
def pageSize (file : List UInt8) : Nat :=
  let size := number file 16 2
  if size = 1 then 65536 else size

/-- The bytes of a page that the engine uses. -/
def usableSize (file : List UInt8) : Nat := pageSize file - number file 20 1

def isPresent (file : List UInt8) : Bool :=
  signature.isPrefixOf file && number file 19 1 ≤ 2 && number file 21 3 == 0x402020 &&
    ((List.range 8).map fun k => 512 <<< k).contains (pageSize file) && 480 ≤ usableSize file

/-- The number of pages that a header tells of, if it was written with the last change. -/
def pages (file : List UInt8) : Nat :=
  if number file 24 4 = number file 92 4 then number file 28 4 else 0

/-- Whether the tree of tables is a single page without rows. -/
def hasNoTables (file : List UInt8) : Bool :=
  number file 100 5 == 0x0D00000000 && 108 ≤ number file 105 2 &&
    number file 105 2 + number file 107 1 ≤ usableSize file

/-- The catalog in a file that this program has not written. -/
def read (file : List UInt8) : Except Fault Database :=
  if file.isEmpty then .ok .blank
  else if !isPresent file then .error .notCatalog
  else if (file.length + pageSize file - 1) / pageSize file < pages file then .error .malformed
  else if 4 < number file 44 4 then .error .newerFormat
  else if hasNoTables file then .ok .blank
  else .error .malformed

end TagSearch.Header

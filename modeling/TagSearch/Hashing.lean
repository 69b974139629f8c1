import TagSearch.Picture.Gradient
import TagSearch.Store.Answer

/-! Hashing passes: every image without hashes is read, and its hashes are stored. -/
namespace TagSearch

/-- How many images a pass has hashed, and how many it could not read. -/
structure HashReport where
  hashed : Nat
  failed : Nat
deriving Repr, DecidableEq

namespace Database

/-- Store the hashes that were found, in order; an image without any counts as failed. -/
def storeHashes (database : Database) (report : HashReport) :
    List (UInt64 × Option HashPair) → Except StoreError (Database × HashReport)
  | [] => .ok (database, report)
  | (_, none) :: rest => database.storeHashes { report with failed := report.failed + 1 } rest
  | (image, some pair) :: rest => do
    let (database, _) ← database.apply (.setImageHashes image pair)
    database.storeHashes { report with hashed := report.hashed + 1 } rest

/-- Store the pairs of the images that have no hashes yet; `picture` reads the picture at a location, if there is a
readable one, and `pairOf` gives the pair of a picture. -/
def hashMissingBy (pairOf : Picture → HashPair) (database : Database) (picture : String → Option Picture) :
    Except StoreError (Database × HashReport) := do
  let pending ← database.imagesWithoutHashes
  database.storeHashes ⟨0, 0⟩
    (pending.map fun (image, location) => (image, (picture location).map pairOf))

/-- A pass with the perceptual hashes. -/
def hashMissing (database : Database) (picture : String → Option Picture) :
    Except StoreError (Database × HashReport) :=
  database.hashMissingBy HashPair.ofPicture picture

end Database
end TagSearch

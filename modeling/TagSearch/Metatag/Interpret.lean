import TagSearch.Metatag.Registry
import TagSearch.Predicate
import TagSearch.Source

/-! The predicate of a metatag token. -/
namespace TagSearch.Metatag

/-- The hashes to compare with: written out, or those of a stored image. -/
def readSimilarity (name value : String) : Inquiry HashPair :=
  match splitPoint? value.toList with
  | some (h, v) =>
    match hashPair? h v with
    | some pair => pure pair
    | none => Inquiry.fail (.invalidValue name value .notTwoHashes)
  | none =>
    match Text.word? value.toList with
    | none => Inquiry.fail (.invalidValue name value .notAnImageId)
    | some image => do
      match ← Inquiry.imageHashes image with
      | some pair => pure pair
      | none => Inquiry.fail (.invalidValue name value .noStoredHash)

/-- A written value that reads as a value, or fails for the given reason. -/
def orFault (name value : String) (fault : ValueFault) : Option Value → Inquiry Value
  | some v => pure v
  | none => Inquiry.fail (.invalidValue name value fault)

def readValue (name : String) (kind : ValueKind) (value : String) : Inquiry Value :=
  match kind with
  | .userName => do orFault name value .noSuchUser ((← Inquiry.userIdByName value).map .user)
  | .text => orFault name value .emptyText (if value.isEmpty then none else some (.text value))
  | .integer => orFault name value .notAnInteger ((Text.integer? value.toList).map .integer)
  | .flag => orFault name value .notAFlag ((flag? value).map .flag)
  | .similarity => return .hashes (← readSimilarity name value)
  | .pattern => orFault name value .shortPattern ((containsPattern? value).map .pattern)

/-- A metatag that is excluded has the inverse comparator; one that only orders cannot be excluded. -/
def signedComparator (d : Descriptor) (name : String) (comparator : Comparator) (excluded : Bool) :
    Except SearchError Comparator :=
  if excluded then
    if d.negatable then .ok comparator.inverse else .error (.inversionUnsupported name comparator)
  else .ok comparator

def interpret (name : String) (written : Comparator) (value : String) (excluded : Bool) (kind : Kind) :
    Inquiry Predicate :=
  match lookup? name kind with
  | none => Inquiry.fail (.metatagUnrecognized name)
  | some d => do
    let v ← readValue name d.value value
    let comparator ← Inquiry.ofExcept (signedComparator d name (d.chooseComparator written) excluded)
    return .ofCondition ⟨d.name, v, comparator⟩ excluded

end TagSearch.Metatag

import TagSearch.Comparator
import TagSearch.Metatag.Value
import TagSearch.Store.Fault

/-! Why a search has no answer. -/
namespace TagSearch

inductive SearchError
  | metatagUnrecognized (name : String)
  | inversionUnsupported (name : String) (comparator : Comparator)
  | invalidValue (name value : String) (fault : Metatag.ValueFault)
  | invalidPivot
  | invalidPageWindow (offset stride max : UInt64)
  | noResults
  | store (error : StoreError)
deriving Repr, DecidableEq

def SearchError.message : SearchError → String
  | metatagUnrecognized name => "metatag '" ++ name ++ "' is not recognized here"
  | inversionUnsupported name comparator =>
    "cannot negate metatag '" ++ name ++ "' (comparator " ++ comparator.sql ++ ")"
  | invalidValue name value fault =>
    "invalid value '" ++ value ++ "' for metatag '" ++ name ++ "': " ++ fault.message
  | invalidPivot => "pivot id must be non-zero"
  | invalidPageWindow offset stride max =>
    "invalid page window: offset " ++ toString offset ++ ", stride " ++ toString stride ++ ", max " ++ toString max
  | noResults => "no images match the query"
  | store error => error.message

end TagSearch

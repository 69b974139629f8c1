import TagSearch.Export.Csv
import TagSearch.Export.Format
import TagSearch.Export.Json
import TagSearch.Search

/-! Exports: all matches of a search in one of the formats. -/
namespace TagSearch.Export

def Format.render : Format → List Record → String
  | json => Json.render
  | csv => Csv.render

/-- The records of all matches, in the order of the search. -/
def records (predicates : List Predicate) : Kind → Inquiry (List Record)
  | .image => return (← Search.images predicates 0 0).items.map imageRecord
  | .collection => return (← Search.collections predicates 0 0).items.map collectionRecord

end TagSearch.Export

import TagSearch.FirstOfKey
import TagSearch.Predicate

/-! Merging a query with a stored user filter. -/
namespace TagSearch.Query

/-- The predicates of the query, then those of the filter; the first predicate of a name counts. -/
def merge (query filter : List Predicate) : List Predicate :=
  firstOfKey (fun p : Predicate => p.name) (query ++ filter.map Predicate.asUserFilter)

end TagSearch.Query

/-! The two kinds of entity that can be searched. -/
namespace TagSearch

inductive Kind
  | image | collection
deriving Repr, DecidableEq

end TagSearch

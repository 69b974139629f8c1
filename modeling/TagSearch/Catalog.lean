import TagSearch.Timestamp

/-! What the catalog tells about tags, images and collections. -/
namespace TagSearch

structure Tag where
  id : UInt64
  name : String
  description : String
  uploader : UInt64
  uploaded : Option Timestamp
  /-- The tag an alias stands for, 0 for none. -/
  aliased : UInt64
  isAlias : Bool
deriving Repr, DecidableEq

structure ImageSummary where
  id : UInt64
  name : String
  location : String
  uploader : UInt64
  rating : String
  averageScore : Int64
deriving Repr, DecidableEq

structure CollectionSummary where
  id : UInt64
  name : String
  /-- The location of the first member, none for a collection without members. -/
  preview : Option String
  members : UInt64
deriving Repr, DecidableEq

end TagSearch

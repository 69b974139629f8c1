import TagSearch.Catalog

/-! The records that an export writes: the columns of a result with their names. -/
namespace TagSearch.Export

inductive Cell
  | null
  | number (n : Int)
  | text (s : String)
deriving Repr, DecidableEq

/-- The cells of a row with the names of their columns. -/
abbrev Record := List (String × Cell)

def imageRecord (i : ImageSummary) : Record :=
  [("id", .number i.id.toNat), ("name", .text i.name), ("location", .text i.location),
   ("uploader_id", .number i.uploader.toNat), ("rating", .text i.rating),
   ("score_average", .number i.averageScore.toInt)]

def collectionRecord (c : CollectionSummary) : Record :=
  [("id", .number c.id.toNat), ("name", .text c.name),
   ("preview_location", match c.preview with | some location => .text location | none => .null),
   ("members", .number c.members.toNat)]

end TagSearch.Export

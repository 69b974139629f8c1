import TagSearch.Catalog
import TagSearch.Ordered
import TagSearch.Similarity

/-!
The tables of a catalog. Users, tags, images and collections get their ids in the order of their creation; the
tables that link them are ordered by their primary keys.
-/
namespace TagSearch

structure User where
  id : UInt64
  name : String
  filter : String
deriving Repr, DecidableEq

structure Image where
  id : UInt64
  name : String
  location : String
  uploader : UInt64
  rating : String
  averageScore : Int64
  totalScore : Int64
  scoreVoters : Int64
deriving Repr, DecidableEq

def Image.withScores (average total voters : Int64) (i : Image) : Image :=
  { i with averageScore := average, totalScore := total, scoreVoters := voters }

structure Collection where
  id : UInt64
  name : String
  description : String
  uploader : UInt64
deriving Repr, DecidableEq

/-- An image carries a tag. -/
structure TagLink where
  image : UInt64
  tag : UInt64
deriving Repr, DecidableEq

/-- An image belongs to a collection; members of lower weight come first. -/
structure Member where
  collection : UInt64
  image : UInt64
  weight : Int64
deriving Repr, DecidableEq

/-- The perceptual hashes of an image. -/
structure StoredHash where
  image : UInt64
  pair : HashPair
deriving Repr, DecidableEq

/-- Two ids as one number, ordered by the first id and then by the second. -/
def pairKey (a b : UInt64) : Nat := a.toNat * UInt64.size + b.toNat

def TagLink.key (l : TagLink) : Nat := pairKey l.image l.tag

def Member.key (m : Member) : Nat := pairKey m.collection m.image

def StoredHash.key (h : StoredHash) : Nat := h.image.toNat

structure Store where
  users : List User
  tags : List Tag
  images : List Image
  links : List TagLink
  collections : List Collection
  members : List Member
  hashes : List StoredHash
deriving Repr, DecidableEq

namespace Store

def empty : Store := ⟨[], [], [], [], [], [], []⟩

def hasImage (s : Store) (image : UInt64) : Bool := s.images.any fun i => i.id = image

def hasTag (s : Store) (tag : UInt64) : Bool := s.tags.any fun t => t.id = tag

def hasCollection (s : Store) (collection : UInt64) : Bool := s.collections.any fun c => c.id = collection

theorem pairKey_inj {a b c d : UInt64} : pairKey a b = pairKey c d ↔ a = c ∧ b = d := by
  have ha := a.toNat_lt
  have hb := b.toNat_lt
  have hc := c.toNat_lt
  have hd := d.toNat_lt
  rw [pairKey, pairKey, UInt64.size, ← UInt64.toNat_inj, ← UInt64.toNat_inj]
  omega

end Store
end TagSearch

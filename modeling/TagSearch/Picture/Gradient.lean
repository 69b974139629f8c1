import TagSearch.Picture.Resample
import TagSearch.Picture.Thumbnail
import TagSearch.Similarity

/-!
Perceptual hashes: 64 comparisons of neighbouring grey values of a picture made small, along its rows and along its
columns.
-/
namespace TagSearch

/-- The brightness of a color, rounded down. -/
def Color.luma (c : Color) : UInt8 :=
  ((0.2126 : Float32) * c.red.toFloat32 + (0.7152 : Float32) * c.green.toFloat32 +
    (0.0722 : Float32) * c.blue.toFloat32).toUInt8

def Picture.plane (p : Picture) : Plane := ⟨p.width, p.height, p.cells.map Color.luma⟩

/-- 64 bits: eight to a byte from the lowest on, the first byte in the highest place. -/
def packBits (bit : Nat → Bool) : UInt64 :=
  UInt64.ofNat ((List.range 64).foldl
    (fun sum i => if bit i then sum + 1 <<< (8 * (7 - i / 8) + i % 8) else sum) 0)

/-- Row by row, whether a value is brighter than the one to its left. -/
def Plane.rowGradient (p : Plane) : UInt64 :=
  let small := p.resample 9 8
  packBits fun i => small.get 0 (i % 8) (i / 8) < small.get 0 (i % 8 + 1) (i / 8)

/-- Column by column, whether a value is brighter than the one above it. -/
def Plane.columnGradient (p : Plane) : UInt64 :=
  let small := p.resample 8 9
  packBits fun i => small.get 0 (i / 8) (i % 8) < small.get 0 (i / 8) (i % 8 + 1)

def HashPair.ofPicture (p : Picture) : HashPair :=
  let plane := p.thumbnail.plane
  ⟨plane.rowGradient, plane.columnGradient⟩

end TagSearch

import TagSearch.Picture.Grid

/-! Thumbnails: a picture made to fit a square. Each pixel is the average of a block, or lies between pixels where the
picture is enlarged. -/
namespace TagSearch.Picture

def thumbnailSize : Nat := 64

/-- The sides of a thumbnail. They have the proportion of the picture's, and none is empty. -/
def thumbnailSides (width height : Nat) : Nat × Nat :=
  let size := Float.ofNat thumbnailSize
  let across := size / Float.ofNat width
  let down := size / Float.ofNat height
  let ratio := if across < down then across else down
  let side (length : Nat) : Nat := max ((Float.ofNat length * ratio).round.toUInt64.toNat) 1
  (side width, side height)

/-- The part of a side that a place of a thumbnail stands for: the places from `first` on before `stop`. Where there are
none, the place lies between two places of the picture, and `share` is how much the one at `stop` counts. -/
structure Span where
  first : Nat
  stop : Nat
  share : Float32

def Span.places (span : Span) : List Nat := (List.range (span.stop - span.first)).map (span.first + ·)

def fraction (x : Float32) : Float32 := x - x.floor

/-- The part of a side of length `size` that the place `index` of `count` stands for. -/
def spanAt (size count index : Nat) : Span :=
  let ratio := Float32.ofNat size / Float32.ofNat count
  let start := Float32.ofNat index * ratio
  let stop := start + ratio
  let first := min start.ceil.toUInt64.toNat (size - 1)
  ⟨first, max first (min stop.ceil.toUInt64.toNat size), (fraction start + fraction stop) / 2⟩

/-- The quotient of a sum, rounded to the nearest. -/
def average (sum count : Nat) : UInt8 := UInt8.ofNat ((sum + count / 2) / count)

/-- The mean of two sums of `count` values each, rounded down; `share` is how much the second one counts. -/
def mix (share : Float32) (count left right : Nat) : UInt8 :=
  let size := Float32.ofNat count
  ((1 - share) / size * Float32.ofNat left + share / size * Float32.ofNat right).toUInt8

/-- A channel of the pixel that stands for some columns and rows. Between four pixels, the column counts by the share of
the row and the row by the share of the column. -/
def sample (p : Picture) (columns rows : Span) (channel : Color → UInt8) : UInt8 :=
  let value (column row : Nat) : Nat := (channel (p.get .black column row)).toNat
  let sum (across down : List Nat) : Nat := (down.flatMap fun row => across.map (value · row)).foldl (· + ·) 0
  let across := columns.places
  let down := rows.places
  if across.isEmpty && down.isEmpty then
    let weighted (weight : Float32) (column row : Nat) : Float32 := weight * Float32.ofNat (value column row)
    let right := rows.share
    let below := columns.share
    (weighted ((1 - below) * right) columns.stop (rows.stop - 1) + weighted (below * right) columns.stop rows.stop +
      weighted ((1 - below) * (1 - right)) (columns.stop - 1) (rows.stop - 1) +
      weighted (below * (1 - right)) (columns.stop - 1) rows.stop).toUInt8
  else if across.isEmpty then mix columns.share down.length (sum [columns.stop - 1] down) (sum [columns.stop] down)
  else if down.isEmpty then mix rows.share across.length (sum across [rows.stop - 1]) (sum across [rows.stop])
  else average (sum across down) (across.length * down.length)

/-- The picture on at most 64 times 64 pixels. -/
def thumbnail (p : Picture) : Picture :=
  let (width, height) := thumbnailSides p.width p.height
  Grid.ofFn width height fun column row =>
    let channel := sample p (spanAt p.width width column) (spanAt p.height height row)
    ⟨channel Color.red, channel Color.green, channel Color.blue⟩

end TagSearch.Picture

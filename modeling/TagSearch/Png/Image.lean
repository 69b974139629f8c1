import TagSearch.Path
import TagSearch.Picture.Grid
import TagSearch.Png.Inflate
import TagSearch.Text.Letter

/-! PNG files: pictures in compressed rows of samples. Transparency does not count. -/
namespace TagSearch.Png

def isName (path : String) : Bool :=
  match (Path.extension? path).map Text.lowerAsciiText with
  | some extension => extension == "png" || extension == "apng"
  | none => false

/-- A number of four bytes, the highest first. -/
def number? (data : ByteArray) (start : Nat) : Option Nat := do
  let a ← data[start]?
  let b ← data[start + 1]?
  let c ← data[start + 2]?
  let d ← data[start + 3]?
  return ((a.toNat * 256 + b.toNat) * 256 + c.toNat) * 256 + d.toNat

structure Chunk where
  /-- The four letters of the kind, as a number. -/
  kind : Nat
  data : ByteArray

/-- Eight steps of a cyclic redundancy check. -/
def checkByte (remainder : UInt32) (byte : UInt8) : UInt32 :=
  (List.range 8).foldl (fun r _ => if r % 2 = 1 then (r >>> 1) ^^^ 0xedb88320 else r >>> 1)
    (remainder ^^^ byte.toUInt32)

def checksum (data : ByteArray) : UInt32 := (data.foldl checkByte 0xffffffff) ^^^ 0xffffffff

def headerKind : Nat := 0x49484452
def paletteKind : Nat := 0x504c5445
def dataKind : Nat := 0x49444154
def endKind : Nat := 0x49454e44

/-- The chunks up to the closing one. -/
def chunks? (data : ByteArray) : Nat → Nat → Option (List Chunk)
  | 0, _ => none
  | fuel + 1, start => do
    let length ← number? data start
    let kind ← number? data (start + 4)
    let check ← number? data (start + 8 + length)
    if (checksum (data.extract (start + 4) (start + 8 + length))).toNat ≠ check then none
    else if kind = endKind then return []
    else return ⟨kind, data.extract (start + 8) (start + 8 + length)⟩ :: (← chunks? data fuel (start + 12 + length))

structure Header where
  width : Nat
  height : Nat
  depth : Nat
  colorType : Nat
  interlaced : Bool
deriving Repr, DecidableEq

/-- The samples of a pixel. -/
def Header.channels (h : Header) : Nat :=
  match h.colorType with
  | 2 => 3
  | 4 => 2
  | 6 => 4
  | _ => 1

/-- The combinations of color type and depth that exist. -/
def Header.isValid (h : Header) : Bool :=
  0 < h.width && 0 < h.height &&
    match h.colorType with
    | 0 => [1, 2, 4, 8, 16].contains h.depth
    | 3 => [1, 2, 4, 8].contains h.depth
    | 2 | 4 | 6 => [8, 16].contains h.depth
    | _ => false

def header? (chunk : Chunk) : Option Header := do
  let width ← number? chunk.data 0
  let height ← number? chunk.data 4
  let depth ← chunk.data[8]?
  let colorType ← chunk.data[9]?
  let compression ← chunk.data[10]?
  let filter ← chunk.data[11]?
  let interlace ← chunk.data[12]?
  let h : Header := ⟨width, height, depth.toNat, colorType.toNat, interlace = 1⟩
  if chunk.kind = headerKind ∧ h.isValid ∧ compression = 0 ∧ filter = 0 ∧ interlace ≤ 1 then some h else none

/-- The neighbour that lies nearest to left + above - corner. -/
def paeth (left above corner : Nat) : Nat :=
  let guess : Int := left + above - corner
  let far (n : Nat) : Nat := (guess - n).natAbs
  if far left ≤ far above ∧ far left ≤ far corner then left
  else if far above ≤ far corner then above
  else corner

/-- What a filter predicts from the bytes to the left, above and above to the left. -/
def prediction? (filter left above corner : Nat) : Option Nat :=
  match filter with
  | 0 => some 0
  | 1 => some left
  | 2 => some above
  | 3 => some ((left + above) / 2)
  | 4 => some (paeth left above corner)
  | _ => none

/-- A row without its filter; `step` bytes hold a pixel. -/
def unfilter? (filter step : Nat) (above raw : ByteArray) : Option ByteArray :=
  (List.range raw.size).foldlM (fun row i => do
    let back (bytes : ByteArray) : Nat := if i < step then 0 else (bytes[i - step]?.getD 0).toNat
    let guess ← prediction? filter (back row) (above[i]?.getD 0).toNat (back above)
    return row.push (UInt8.ofNat ((raw[i]?.getD 0).toNat + guess))) ByteArray.empty

/-- Rows of the given length, each behind a byte that tells its filter, and what follows them. -/
def rows? (step length : Nat) : Nat → ByteArray → Nat → ByteArray → Option (List ByteArray × Nat)
  | 0, _, start, _ => some ([], start)
  | count + 1, data, start, above => do
    let filter ← data[start]?
    if data.size < start + 1 + length then none
    else
      let row ← unfilter? filter.toNat step above (data.extract (start + 1) (start + 1 + length))
      let (rest, stop) ← rows? step length count data (start + 1 + length) row
      return (row :: rest, stop)

/-- A sample of a row. -/
def sample (depth : Nat) (row : ByteArray) (index : Nat) : Nat :=
  let byte (i : Nat) : Nat := (row[i]?.getD 0).toNat
  if depth = 16 then 256 * byte (2 * index) + byte (2 * index + 1)
  else byte (index * depth / 8) >>> (8 - depth - index * depth % 8) % 1 <<< depth

def scaled (depth n : Nat) : UInt8 :=
  if depth = 16 then UInt8.ofNat ((n + 128) / 257) else UInt8.ofNat (n * 255 / (1 <<< depth - 1))

/-- The color of a pixel; none if it lies outside the palette. -/
def Header.color? (h : Header) (palette : ByteArray) (row : ByteArray) (column : Nat) : Option Color :=
  let channel (i : Nat) : UInt8 := scaled h.depth (sample h.depth row (column * h.channels + i))
  match h.colorType with
  | 3 => do
    let entry := 3 * sample h.depth row column
    return ⟨← palette[entry]?, ← palette[entry + 1]?, ← palette[entry + 2]?⟩
  | 2 | 6 => some ⟨channel 0, channel 1, channel 2⟩
  | _ => some ⟨channel 0, channel 0, channel 0⟩

/-- Pixels that are written together: the first column and row, and the steps between columns and rows. -/
structure Pass where
  column : Nat
  row : Nat
  across : Nat
  down : Nat
deriving Repr, DecidableEq

/-- All pixels at once, or the seven passes of an interlaced picture. -/
def Header.passes (h : Header) : List Pass :=
  if h.interlaced then
    [⟨0, 0, 8, 8⟩, ⟨4, 0, 8, 8⟩, ⟨0, 4, 4, 8⟩, ⟨2, 0, 4, 4⟩, ⟨0, 2, 2, 4⟩, ⟨1, 0, 2, 2⟩, ⟨0, 1, 1, 2⟩]
  else [⟨0, 0, 1, 1⟩]

/-- How many places a pass has on a side. -/
def places (size first step : Nat) : Nat := (size - first + step - 1) / step

/-- The colors with those of one pass put in. -/
def Header.readPass (h : Header) (palette data : ByteArray) (start : Nat) (cells : Array Color) (pass : Pass) :
    Option (Array Color × Nat) := do
  let width := places h.width pass.column pass.across
  let height := places h.height pass.row pass.down
  if width = 0 ∨ height = 0 then return (cells, start)
  else
    let bits := h.channels * h.depth
    let (rows, stop) ← rows? (max 1 (bits / 8)) ((width * bits + 7) / 8) height data start ByteArray.empty
    let cells ← rows.zipIdx.foldlM (fun cells (row, j) =>
      (List.range width).foldlM (fun cells i => do
        let color ← h.color? palette row i
        return cells.setIfInBounds ((pass.row + j * pass.down) * h.width + pass.column + i * pass.across) color)
        cells) cells
    return (cells, stop)

def read? (file : ByteArray) : Option Picture := do
  if (file.extract 0 8).toList ≠ [0x89, 0x50, 0x4e, 0x47, 0x0d, 0x0a, 0x1a, 0x0a] then none
  else
    let chunks ← chunks? file (file.size + 1) 8
    let h ← header? (← chunks.head?)
    let ofKind (kind : Nat) : ByteArray :=
      (chunks.filter fun c => c.kind = kind).foldl (fun data c => data ++ c.data) ByteArray.empty
    let data ← inflate? (ofKind dataKind)
    let blank := Array.replicate (h.width * h.height) Color.black
    let (cells, _) ← h.passes.foldlM (fun (cells, start) pass =>
      h.readPass (ofKind paletteKind) data start cells pass) (blank, 0)
    return ⟨h.width, h.height, cells⟩

end TagSearch.Png

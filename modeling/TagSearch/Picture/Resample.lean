import TagSearch.Picture.Grid

/-!
Resampling of grey planes with the Lanczos kernel of three lobes, first along the columns and then along the rows;
values are rounded to bytes after each.
-/
namespace TagSearch.Plane

def pi : Float32 := 3.14159265358979323846

def sinc (t : Float32) : Float32 :=
  if t == 0 then 1 else (t * pi).sin / (t * pi)

/-- How far the kernel reaches. -/
def reach : Float32 := 3

def lanczos (x : Float32) : Float32 :=
  if x.abs < reach then sinc x * sinc (x / reach) else 0

/-- The first of the places that a place of the new side looks at, and the weights of all of them. -/
def weights (size newSize place : Nat) : Nat × List Float32 :=
  let ratio := Float32.ofNat size / Float32.ofNat newSize
  let scale := if ratio < 1 then 1 else ratio
  let center := (Float32.ofNat place + 0.5) * ratio
  let first := (max 0 (min (center - reach * scale).floor.toInt64.toInt (size - 1))).toNat
  let stop := (max (first + 1 : Int) (min (center + reach * scale).ceil.toInt64.toInt size)).toNat
  (first, (List.range (stop - first)).map fun i => lanczos ((Float32.ofNat (first + i) - (center - 0.5)) / scale))

def nearestByte (x : Float32) : UInt8 :=
  (if x < 0 then 0 else if 255 < x then 255 else x).round.toUInt8

def mean (weights : List Float32) (value : Nat → UInt8) : UInt8 :=
  let total := weights.foldl (· + ·) 0
  let sum := weights.zipIdx.foldl (fun sum (w, i) => sum + (value i).toFloat32 * w) 0
  nearestByte (sum / total)

/-- The plane with rows of the same width and a new height. -/
def resampleColumns (p : Plane) (height : Nat) : Plane :=
  let windows := (Array.range height).map (weights p.height height)
  Grid.ofFn p.width height fun column row =>
    match windows[row]? with
    | some (first, ws) => mean ws fun i => p.get 0 column (first + i)
    | none => 0

/-- The plane with columns of the same height and a new width. -/
def resampleRows (p : Plane) (width : Nat) : Plane :=
  let windows := (Array.range width).map (weights p.width width)
  Grid.ofFn width p.height fun column row =>
    match windows[column]? with
    | some (first, ws) => mean ws fun i => p.get 0 (first + i) row
    | none => 0

/-- The plane in a new size; a plane that has the size already stays. -/
def resample (p : Plane) (width height : Nat) : Plane :=
  if p.width = width ∧ p.height = height then p
  else resampleRows (resampleColumns p height) width

end TagSearch.Plane

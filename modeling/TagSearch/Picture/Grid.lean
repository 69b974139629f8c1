/-! Rectangular grids: pictures and the grey planes that are made of them. -/
namespace TagSearch

/-- The cells of a grid, row by row from the top. -/
structure Grid (α : Type) where
  width : Nat
  height : Nat
  cells : Array α
deriving Repr, DecidableEq

namespace Grid

variable {α : Type}

def ofFn (width height : Nat) (f : Nat → Nat → α) : Grid α where
  width := width
  height := height
  cells := Array.ofFn fun i : Fin (width * height) => f (i.val % width) (i.val / width)

def get (g : Grid α) (fallback : α) (column row : Nat) : α := g.cells[row * g.width + column]?.getD fallback

end Grid

structure Color where
  red : UInt8
  green : UInt8
  blue : UInt8
deriving Repr, DecidableEq

def Color.black : Color := ⟨0, 0, 0⟩

/-- A picture without transparency. -/
abbrev Picture := Grid Color

abbrev Plane := Grid UInt8

end TagSearch

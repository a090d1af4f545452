import Delve.Grid.Position
/-!
# The extent of a grid

A grid has `width` columns and `height` rows, and its cells are stored row by row. Coordinates
are signed words, so a side counts as the signed number of the same word: a side of `2^31` or
more leaves no cell inside.
-/

namespace Delve

structure Extent where
  width : UInt32
  height : UInt32
deriving DecidableEq, Repr, Inhabited

namespace Extent

def contains (e : Extent) (p : Position) : Bool :=
  0 ≤ p.x && 0 ≤ p.y && p.x < e.width.toInt32 && p.y < e.height.toInt32

def area (e : Extent) : Nat := e.width.toNat * e.height.toNat

def index? (e : Extent) (p : Position) : Option Nat :=
  if e.contains p then some (p.y.toNatClampNeg * e.width.toNat + p.x.toNatClampNeg) else none

/-- The coordinates along a side: none for a side that counts as negative. -/
def span (side : UInt32) : List Int32 :=
  (List.range side.toInt32.toNatClampNeg).map fun n => .ofNat n

def rows (e : Extent) : List (List Position) :=
  (span e.height).map fun y => (span e.width).map fun x => ⟨x, y⟩

def cells (e : Extent) : List Position := e.rows.flatten

end Extent

end Delve

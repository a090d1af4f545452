import Std.Data.ExtTreeMap
import Delve.Clamp
/-!
# Cells of the grid

Positions with the two distances that the rules measure by, the steps to neighbouring cells in
the order in which every search and every random choice looks at them, and maps keyed by cell.
-/

namespace Delve

/-- A cell of the grid. `x` grows to the right, `y` downwards. -/
structure Position where
  x : Int32
  y : Int32
deriving DecidableEq, Repr, Inhabited

namespace Position

/-- Cells are ordered as they are read: row by row, from left to right. -/
instance : Ord Position where
  compare := compareLex (compareOn Position.y) (compareOn Position.x)

instance : Std.TransOrd Position :=
  inferInstanceAs (Std.TransCmp (compareLex (compareOn Position.y) (compareOn Position.x)))

instance : Std.LawfulEqOrd Position where
  eq_of_compare {a b} h := by
    have h' : (compare a.y b.y).then (compare a.x b.x) = .eq := h
    rw [Ordering.then_eq_eq] at h'
    obtain ⟨hy, hx⟩ := h'
    have hy := Std.LawfulEqOrd.eq_of_compare hy
    have hx := Std.LawfulEqOrd.eq_of_compare hx
    cases a; cases b; simp_all

def offset (p : Position) (dx dy : Int32) : Position := ⟨p.x + dx, p.y + dy⟩

/-- The number of straight steps between two cells. -/
def blockDistance (p q : Position) : UInt32 := p.x.gap q.x + p.y.gap q.y

/-- The number of king's moves between two cells. -/
def kingDistance (p q : Position) : UInt32 := max (p.x.gap q.x) (p.y.gap q.y)

def isNeighbor (p q : Position) : Bool := p != q && p.kingDistance q == 1

def isOrthogonalNeighbor (p q : Position) : Bool := p.blockDistance q == 1

def inRange (p q : Position) (range : UInt32) : Bool := p.kingDistance q ≤ range

end Position

/-- The straight steps, in the order in which they are tried. -/
def orthogonalSteps : List (Int32 × Int32) := [(-1, 0), (0, -1), (0, 1), (1, 0)]

def kingSteps : List (Int32 × Int32) :=
  [(-1, -1), (-1, 0), (-1, 1), (0, -1), (0, 1), (1, -1), (1, 0), (1, 1)]

namespace Position

def orthogonalNeighbors (p : Position) : List Position :=
  orthogonalSteps.map fun (dx, dy) => p.offset dx dy

def neighbors (p : Position) : List Position :=
  kingSteps.map fun (dx, dy) => p.offset dx dy

theorem blockDistance_comm (p q : Position) : p.blockDistance q = q.blockDistance p := by
  simp only [blockDistance, Int32.gap_comm]

theorem kingDistance_comm (p q : Position) : p.kingDistance q = q.kingDistance p := by
  simp only [kingDistance, Int32.gap_comm]

end Position

/-- A finite map keyed by cell. Two maps with the same entries are equal. -/
abbrev CellMap (α : Type) := Std.ExtTreeMap Position α

end Delve

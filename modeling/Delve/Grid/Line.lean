import Delve.Grid.Position
/-!
# Straight lines of cells

The cells that a line of sight passes, found with integers alone. The walk keeps an error term
that tells how far it has strayed from the true line, and at every cell decides from twice that
error whether to step along either axis.
-/

namespace Delve

structure LineWalk where
  cell : Position
  /-- How far the walk has strayed from the line. -/
  error : Int32
deriving DecidableEq, Repr

namespace LineWalk

/-- One more cell. `run` is the distance along the columns, `rise` the negated distance along the
rows, and `dx`, `dy` the steps that lead towards the end. -/
def step (run rise dx dy : Int32) (w : LineWalk) : LineWalk :=
  let doubled := 2 * w.error
  let along : LineWalk :=
    if rise ≤ doubled then ⟨w.cell.offset dx 0, w.error + rise⟩ else w
  if doubled ≤ run then ⟨along.cell.offset 0 dy, along.error + run⟩ else along

/-- The cells of a walk up to `goal`, of which at most `limit` are taken before the last. -/
def cellsTo (run rise dx dy : Int32) (goal : Position) : Nat → LineWalk → List Position
  | 0, w => [w.cell]
  | limit + 1, w =>
    if w.cell = goal then [w.cell]
    else w.cell :: cellsTo run rise dx dy goal limit (w.step run rise dx dy)

end LineWalk

/-- The cells on the line between two cells, both included. Every step of the walk advances along
the longer axis, so the number of steps is the king's distance. -/
def line (start goal : Position) : List Position :=
  let run := (goal.x - start.x).abs
  let rise := -(goal.y - start.y).abs
  let dx := if start.x < goal.x then 1 else -1
  let dy := if start.y < goal.y then 1 else -1
  LineWalk.cellsTo run rise dx dy goal (start.kingDistance goal).toNat ⟨start, run + rise⟩

end Delve

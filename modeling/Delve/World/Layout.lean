import Delve.World.Basic
/-!
# Layouts

A level drawn with characters: `#` is a wall, `.` floor, `*` rock and `0` a boulder. All rows have
the width of the first. Rows are read from the top, and a row's width is checked before its
characters.
-/

namespace Delve

inductive Glyph where
  | floor
  | wall
  | rock
  | boulder
deriving DecidableEq, Repr

namespace Glyph

def ofChar? : Char → Option Glyph
  | '.' => some floor
  | '#' => some wall
  | '*' => some rock
  | '0' => some boulder
  | _ => none

def toChar : Glyph → Char
  | floor => '.'
  | wall => '#'
  | rock => '*'
  | boulder => '0'

theorem ofChar?_toChar (g : Glyph) : ofChar? g.toChar = some g := by cases g <;> rfl

def draw (g : Glyph) (p : Position) (w : World) : Except WorldError World :=
  match g with
  | floor => .ok w
  | wall => w.setTerrain p .wall
  | rock => w.placeFeature p .rock
  | boulder => w.placeFeature p .boulder

end Glyph

namespace World

/-- Draws the rest of a row, from column `x` on. -/
def drawRow (y : Int32) : Nat → List Char → World → Except WorldError World
  | _, [], w => .ok w
  | x, c :: cs, w =>
    let p : Position := ⟨.ofNat x, y⟩
    match Glyph.ofChar? c with
    | none => .error (.malformedLayout (.unknownGlyph c p))
    | some g => do drawRow y (x + 1) cs (← g.draw p w)

def drawRows (width : Nat) : Nat → List (List Char) → World → Except WorldError World
  | _, [], w => .ok w
  | y, row :: rows, w =>
    if row.length = width then do drawRows width (y + 1) rows (← drawRow (.ofNat y) 0 row w)
    else .error (.malformedLayout (.ragged y row.length width))

def ofRows (rows : List String) : Except WorldError World :=
  let rows := rows.map (·.toList)
  match rows with
  | [] | [] :: _ => .error (.malformedLayout .empty)
  | first :: _ =>
    let width := first.length
    drawRows width 0 rows (.ofExtent ⟨.ofNat width, .ofNat rows.length⟩)

end World

end Delve

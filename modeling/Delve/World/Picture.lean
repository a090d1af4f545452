import Delve.Text.Lines
import Delve.World.Actors
import Delve.World.Ground
/-!
# Pictures of the world

One character per cell: who stands there, else whether something lies there, else what the cell
is.
-/

namespace Delve.World

/-- The character of an actor: `@` for the player, the first of the name for a monster. -/
def actorGlyph (a : Actor) : Char :=
  if a.id.isPlayer then '@' else a.name.toList.headD 'm'

def groundGlyph (w : World) (p : Position) : Char :=
  match w.featureAt? p with
  | some .rock => '*'
  | some .boulder => '0'
  | some .rubble => ','
  | none => if w.terrainAt? p = some .wall then '#' else '.'

def glyphAt (w : World) (p : Position) : Char :=
  match (w.occupantAt? p).bind w.actor? with
  | some a => actorGlyph a
  | none => if (w.itemsAt p).isEmpty then w.groundGlyph p else '$'

def picture (w : World) : List String :=
  w.extent.rows.map fun row => .ofList (row.map w.glyphAt)

def render (w : World) : String := Text.unlines w.picture

end Delve.World

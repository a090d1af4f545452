import Delve.Brain.Scene
/-!
# Digging
-/

namespace Delve

/-- Digs a cell out, notes it and ends the turn. -/
def dig (cell : Position) (s : Scene) : Status × Scene :=
  match s.world.mine cell with
  | .error _ => (.failure, s)
  | .ok world => (.success, ({ s with world }.rememberPosition .lastMined cell).finishTurn)

/-- Digs a rock on one of the four sides, drawn at random. -/
def mineBlock (s : Scene) : Status × Scene :=
  match s.position? with
  | none => (.failure, s)
  | some own =>
    match s.choose (own.orthogonalNeighbors.filter s.world.isMineable) with
    | (none, s) => (.failure, s)
    | (some cell, s) => dig cell s

/-- Extends a dead end. Where three sides are blocked, the rock across from the open side is dug
out. -/
def mineTunnel (s : Scene) : Status × Scene :=
  match s.position? with
  | none => (.failure, s)
  | some own =>
    if s.world.countObstacles own < 3 then (.failure, s)
    else
      match own.orthogonalNeighbors.find? (!s.world.isObstacle ·) with
      | none => (.failure, s)
      | some way =>
        let facing := own.offset (own.x - way.x) (own.y - way.y)
        if s.world.isMineable facing then dig facing s else (.failure, s)

end Delve

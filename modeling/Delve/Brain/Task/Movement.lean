import Delve.Brain.Scene
/-!
# Waiting and moving without a goal
-/

namespace Delve

/-- Waits the turn out. An actor that is not ready has nothing to wait with, and goes on waiting. -/
def idle (s : Scene) : Status × Scene :=
  if s.isReady then (.success, s.finishTurn) else (.running, s)

def wander (s : Scene) : Status × Scene :=
  match s.position? with
  | none => (.failure, s)
  | some own =>
    let choice := s.choose (s.world.walkableNeighbors own)
    choice.2.walkTo choice.1

/-- The first of the cells that lies farther from `threat` than every cell before it and than
`distance`. -/
def farthest? (threat : Position) (distance : UInt32) (cells : List Position) : Option Position :=
  (cells.foldl
    (fun (distance, best) cell =>
      if distance < cell.blockDistance threat then (cell.blockDistance threat, some cell)
      else (distance, best))
    (distance, (none : Option Position))).2

/-- Steps onto the free neighbouring cell that is farthest from the player. It fails where no such
cell is farther than the actor's own, so that nobody shuffles in a corner. -/
def retreat (s : Scene) : Status × Scene :=
  match s.position?, s.targetPosition? with
  | some own, some threat =>
    s.walkTo (farthest? threat (own.blockDistance threat) (s.world.walkableNeighbors own))
  | _, _ => (.failure, s)

end Delve

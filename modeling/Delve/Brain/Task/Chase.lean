import Delve.Brain.Scene
/-!
# Chasing

Following the player along a route that is kept from turn to turn. A new one is looked for when
there is none, when the player has moved since, or when its next cell is no longer beside the
actor. Where nobody can be reached, and beside the player, the chase fails and the route is
dropped.
-/

namespace Delve

/-- A route that is being followed. -/
structure Trail where
  /-- Where the player stood when the route was found. -/
  target : Position
  steps : List Position
deriving DecidableEq, Repr

structure Chase where
  trail : Option Trail := none
  /-- How often a route has been looked for. -/
  searches : UInt32 := 0
deriving DecidableEq, Repr, Inhabited

namespace Trail

def isFresh (t : Trail) (own target : Position) : Bool :=
  t.target == target && t.steps.head?.any own.isNeighbor

end Trail

namespace Chase

def lose (c : Chase) : Chase := { c with trail := none }

/-- The chase with a route that leads from `own` to `target`, if there is one. -/
def aim (c : Chase) (s : Scene) (own target : Position) : Chase :=
  if c.trail.any (·.isFresh own target) then c
  else
    let route := s.route own target
    { trail := if route.isEmpty then none else some ⟨target, route.waypoints.drop 1⟩
      searches := c.searches + 1 }

def follow (c : Chase) (s : Scene) (target : Position) : Status × Chase × Scene :=
  match c.trail with
  | some ⟨goal, next :: rest⟩ =>
    -- the last cell of the route is the player's own: there is nothing left to walk
    if next = target then (.failure, c.lose, s)
    else
      match s.stepTo next with
      | .ok s => (.success, { c with trail := some ⟨goal, rest⟩ }, s.finishTurn)
      | .error _ => (.failure, c.lose, s)
  | _ => (.failure, c.lose, s)

def tick (c : Chase) (s : Scene) : Status × Chase × Scene :=
  match s.position?, s.targetPosition? with
  | none, _ => (.failure, c, s)
  | some _, none => (.failure, c.lose, s)
  | some own, some target => (c.aim s own target).follow s target

end Chase

end Delve

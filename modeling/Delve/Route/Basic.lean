import Delve.Grid.Position
/-!
# Routes

A route is the list of cells from a start to a goal, both included, with the cost of its steps. A
straight step costs 10 and a diagonal one 20, so a diagonal is never a shortcut, only a step less.
-/

namespace Delve

structure RouteOptions where
  diagonals : Bool := false
  budget : Option Nat := none
  /-- Whether cells with actors on them count as free. -/
  throughActors : Bool := false
deriving DecidableEq, Repr, Inhabited

/-- The steps that a route may take, in the order in which they are tried. -/
def RouteOptions.steps (o : RouteOptions) : List (Int32 × Int32) :=
  if o.diagonals then kingSteps else orthogonalSteps

def stepCost (dx dy : Int32) : UInt32 := if dx = 0 ∨ dy = 0 then 10 else 20

/-- The cells from a start to a goal, and what the steps cost. -/
structure Route where
  waypoints : List Position
  cost : UInt32
deriving DecidableEq, Repr, Inhabited

namespace Route

def unreachable : Route := ⟨[], 0⟩

/-- The route of an actor that is there already. -/
def here (p : Position) : Route := ⟨[p], 0⟩

def size (r : Route) : Nat := r.waypoints.length

def isEmpty (r : Route) : Bool := r.waypoints.isEmpty

/-- The first cell to step onto, if the route leads anywhere. -/
def next? (r : Route) : Option Position := r.waypoints[1]?

end Route

end Delve

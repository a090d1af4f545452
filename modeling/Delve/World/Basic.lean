import Delve.Grid.Extent
import Delve.World.Error
import Delve.World.Terrain
/-!
# The world

A level in play: its ground, the features on it, the items that lie about, and the actors. Where
actors stand is kept twice, in the actors and in the table of occupied cells, and every operation
changes both together. An operation that is refused answers with the cause and no world, so a
refusal cannot leave a trace.
-/

namespace Delve

structure World where
  extent : Extent
  /-- The ground, row by row. -/
  terrain : Array Terrain
  features : CellMap Feature
  occupants : CellMap ActorId
  /-- The items on the ground, in each pile the last dropped last. -/
  piles : CellMap (List Item)
  actors : ActorMap Actor
  playerId : Option ActorId
  nextId : UInt32
deriving DecidableEq

namespace World

/-- A world of open floor with nothing in it. -/
def ofExtent (extent : Extent) : World where
  extent
  terrain := Array.replicate extent.area .floor
  features := ∅
  occupants := ∅
  piles := ∅
  actors := ∅
  playerId := none
  nextId := 1

instance : Inhabited World := ⟨ofExtent ⟨0, 0⟩⟩

def inBounds (w : World) (p : Position) : Bool := w.extent.contains p

/-! ## Ground and features -/

def terrainAt? (w : World) (p : Position) : Option Terrain :=
  (w.extent.index? p).bind (w.terrain[·]?)

def setTerrain (w : World) (p : Position) (t : Terrain) : Except WorldError World :=
  match w.extent.index? p with
  | none => .error (.outOfBounds p)
  | some i => .ok { w with terrain := w.terrain.setIfInBounds i t }

def featureAt? (w : World) (p : Position) : Option Feature := w.features[p]?

/-- Puts a feature on a cell, in the place of one that stands there. -/
def placeFeature (w : World) (p : Position) (f : Feature) : Except WorldError World :=
  if w.inBounds p then .ok { w with features := w.features.insert p f }
  else .error (.outOfBounds p)

def removeFeature (w : World) (p : Position) : World :=
  { w with features := w.features.erase p }

def isMineable (w : World) (p : Position) : Bool := (w.featureAt? p).any (·.isMineable)

def mine (w : World) (p : Position) : Except WorldError World :=
  if w.isMineable p then .ok { w with features := w.features.insert p .rubble }
  else .error (.notMineable p)

/-! ## Obstacles and free cells -/

/-- Whether the ground or a feature keeps every actor out. What is outside is an obstacle. -/
def isObstacle (w : World) (p : Position) : Bool :=
  match w.terrainAt? p with
  | none => true
  | some t => !t.isPassable || (w.featureAt? p).any (·.isBlocking)

def occupantAt? (w : World) (p : Position) : Option ActorId := w.occupants[p]?

def canEnter (w : World) (p : Position) : Bool :=
  !w.isObstacle p && (w.occupantAt? p).isNone

/-- The cells around a cell that an actor could step onto, in the order of the steps. -/
def walkableNeighbors (w : World) (p : Position) : List Position :=
  p.neighbors.filter w.canEnter

def countObstacles (w : World) (p : Position) : Nat :=
  p.orthogonalNeighbors.countP w.isObstacle

end World

end Delve

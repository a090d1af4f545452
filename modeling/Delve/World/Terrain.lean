/-!
# What a cell is made of

The ground of a cell, and the things that stand on it for good.
-/

namespace Delve

inductive Terrain where
  | floor
  | wall
deriving DecidableEq, Repr, Inhabited

def Terrain.isPassable : Terrain → Bool
  | .floor => true
  | .wall => false

inductive Feature where
  /-- Rock that can be dug away. -/
  | rock
  /-- Rock that cannot. -/
  | boulder
  /-- What digging leaves; it is no obstacle. -/
  | rubble
deriving DecidableEq, Repr, Inhabited

namespace Feature

def isBlocking : Feature → Bool
  | rock | boulder => true
  | rubble => false

def isMineable : Feature → Bool
  | rock => true
  | boulder | rubble => false

def all : List Feature := [rock, boulder, rubble]

def name : Feature → String
  | rock => "Rock"
  | boulder => "Boulder"
  | rubble => "Rubble"

def ofName? (s : String) : Option Feature := all.find? (·.name == s)

end Feature

end Delve

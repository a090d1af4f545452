import Delve.Level.Error
import Delve.World.Actors
import Delve.World.Ground
/-!
# Scenarios

Who and what is in a level at its start. A scenario is put into a world in the order in which it
is written: the player, the monsters, the items. The first that has no place ends this, and
what has been placed by then stays.
-/

namespace Delve

structure ActorSpec where
  name : String
  position : Position
  stats : Stats := {}
  hp : UInt32
  mp : UInt32 := 0
  items : List Item := []
  money : UInt32 := 0
deriving DecidableEq, Repr

/-- A monster as a scenario lists it, with the name of its temper. -/
structure MonsterSpec where
  actor : ActorSpec
  temper : String
deriving DecidableEq, Repr

structure ItemSpec where
  position : Position
  item : Item
deriving DecidableEq, Repr

structure Scenario where
  player : Option ActorSpec := none
  monsters : List MonsterSpec := []
  items : List ItemSpec := []
deriving DecidableEq, Repr, Inhabited

namespace ActorSpec

def inventory? (items : List Item) : Option Inventory :=
  items.foldlM Inventory.add? (.empty Inventory.defaultCapacity)

/-- The actor, in full health and with full magic. -/
def build (spec : ActorSpec) : Except LoadError Actor :=
  match inventory? spec.items with
  | none => .error (.overloaded spec.name)
  | some inventory =>
    .ok
      { name := spec.name
        position := spec.position
        stats := spec.stats
        hp := .full spec.hp
        mp := .full spec.mp
        inventory
        money := spec.money }

def placePlayer (spec : ActorSpec) (w : World) : Except LoadError World := do
  match w.spawnPlayer (← spec.build) with
  | .ok (_, w) => return w
  | .error e => throw (.misplacedPlayer spec.name e)

def placeMonster (spec : ActorSpec) (w : World) : Except LoadError (ActorId × World) := do
  match w.spawnActor (← spec.build) with
  | .ok placed => return placed
  | .error e => throw (.misplacedMonster spec.name e)

end ActorSpec

namespace Scenario

def placePlayer (player : Option ActorSpec) (w : World) : Except LoadError World :=
  match player with
  | none => .ok w
  | some spec => spec.placePlayer w

/-- Puts monsters into a world. The answer has the handle of each with the name of its temper. -/
def placeMonsters :
    List MonsterSpec → World → Except LoadError (List (ActorId × String)) × World
  | [], w => (.ok [], w)
  | spec :: specs, w =>
    match spec.actor.placeMonster w with
    | .error e => (.error e, w)
    | .ok (id, w) =>
      let (placed, w) := placeMonsters specs w
      (placed.map ((id, spec.temper) :: ·), w)

def placeItems : List ItemSpec → World → Except LoadError Unit × World
  | [], w => (.ok (), w)
  | spec :: specs, w =>
    match w.dropItem spec.position spec.item with
    | .error e => (.error (.misplacedItem e), w)
    | .ok w => placeItems specs w

def populate (s : Scenario) (w : World) :
    Except LoadError (List (ActorId × String)) × World :=
  match placePlayer s.player w with
  | .error e => (.error e, w)
  | .ok w =>
    match placeMonsters s.monsters w with
    -- monsters before the one that has no place stay where they are
    | (.error e, w) => (.error e, w)
    | (.ok placed, w) =>
      let (result, w) := placeItems s.items w
      (result.map fun _ => placed, w)

end Scenario

end Delve

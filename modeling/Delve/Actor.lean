import Delve.Grid.Position
import Delve.Meter
import Delve.Item.Inventory
/-!
# Actors

The living things of a level: their numbers, and the energy that decides when they may act. An
actor gains energy every round and spends it by the turn.
-/

namespace Delve

/-- The handle of an actor. Handles are never given twice while a world lasts. -/
structure ActorId where
  number : UInt32
deriving DecidableEq, Repr, Inhabited

namespace ActorId

instance : Ord ActorId := ⟨compareOn ActorId.number⟩

instance : Std.TransOrd ActorId := inferInstanceAs (Std.TransCmp (compareOn ActorId.number))

instance : Std.LawfulEqOrd ActorId where
  eq_of_compare {a b} h := by
    have h : compare a.number b.number = .eq := h
    have h := Std.LawfulEqOrd.eq_of_compare h
    cases a; cases b; simp_all

/-- The handle kept for the player. -/
def player : ActorId := ⟨0⟩

def isPlayer (id : ActorId) : Bool := id == player

def text (id : ActorId) : String := "#" ++ toString id.number.toNat

end ActorId

/-- A finite map keyed by actor. Two maps with the same entries are equal. -/
abbrev ActorMap (α : Type) := Std.ExtTreeMap ActorId α

structure Stats where
  level : UInt32 := 1
  skill : Int32 := 1
  strength : Int32 := 1
  defense : Int32 := 0
  /-- Each point above zero adds a round's worth of energy to every gain, each point below zero
  makes the actor miss one round between two gains. -/
  speed : Int32 := 0
deriving DecidableEq, Repr, Inhabited

structure Actor where
  id : ActorId := .player
  name : String
  position : Position
  stats : Stats := {}
  hp : Meter := .full 10
  mp : Meter := .empty
  /-- What has been saved up towards the next turn. -/
  energy : UInt32 := 0
  inventory : Inventory := .empty Inventory.defaultCapacity
  money : UInt32 := 0
  /-- The rounds missed since the last gain. -/
  missed : UInt32 := 0
deriving DecidableEq, Repr, Inhabited

namespace Actor

def isAlive (a : Actor) : Bool := !a.hp.isEmpty

def canAct (a : Actor) (ready : UInt32) : Bool := a.isAlive && ready ≤ a.energy

/-- A round's gain at a rate of `tick`. -/
def gainEnergy (a : Actor) (tick : UInt32) : Actor :=
  let speed := a.stats.speed
  if speed < 0 ∧ a.missed < speed.magnitude then { a with missed := a.missed + 1 }
  else
    let rate := (max (speed + 1) 1).toUInt32
    { a with missed := 0, energy := a.energy.addClamp (rate.mulClamp tick) }

def finishTurn (a : Actor) (ready : UInt32) : Actor :=
  { a with energy := a.energy.subClamp ready }

/-- Takes damage, and tells how much was taken. -/
def receiveDamage (a : Actor) (amount : UInt32) : UInt32 × Actor :=
  let (taken, hp) := a.hp.drain amount
  (taken, { a with hp })

end Actor

end Delve

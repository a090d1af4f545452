import Delve.Brain.Sense
import Delve.Brain.Task.Attack
import Delve.Brain.Task.Chase
import Delve.Brain.Task.Mining
import Delve.Brain.Task.Movement
import Delve.Brain.Task.Pickup
import Delve.Brain.Task.Potion
import Delve.Brain.Task.Recall
import Delve.Tree.Run
/-!
# Tasks of a brain

The leaves that a brain is built from. A task either changes the world completely or leaves it as
it is. Tasks that act end the turn; noting a cell and arriving at one take no turn.
-/

namespace Delve

/-- A task, with what it keeps from turn to turn. -/
inductive Task where
  | idle
  | wander
  | retreat
  | chase (state : Chase)
  | attack (last : Option Blow)
  | remember
  | goTo (topic : Topic)
  | drink (thirst : Thirst)
  /-- Picking up items of the given kinds, or of any kind if none is given. -/
  | pickUp (kinds : List ItemKind)
  | mineBlock
  | mineTunnel
deriving DecidableEq, Repr, Inhabited

namespace Task

def name : Task → String
  | idle => "Idle"
  | wander => "RandomMove"
  | retreat => "MoveAway"
  | chase _ => "ChaseTarget"
  | attack _ => "AttackBasic"
  | remember => "RememberTarget"
  | goTo .lastTarget => "GotoLastTargetPos"
  | goTo .lastMined => "GotoLastMinedPos"
  | drink _ => "DrinkPotion"
  | pickUp _ => "PickItems"
  | mineBlock => "MineBlock"
  | mineTunnel => "MineTunnel"

def stateless (t : Task) : Status × Scene → Step Task Scene
  | (status, s) => ⟨status, t, s⟩

def tick (t : Task) (s : Scene) : Except Fault (Step Task Scene) :=
  match t with
  | idle => .ok (t.stateless (Delve.idle s))
  | wander => .ok (t.stateless (Delve.wander s))
  | retreat => .ok (t.stateless (Delve.retreat s))
  | chase c =>
    let (status, c, s) := c.tick s
    .ok ⟨status, chase c, s⟩
  | attack _ => do
    match ← Delve.attack s with
    | (none, s) => return ⟨.failure, t, s⟩
    | (some blow, s) => return ⟨.success, attack (some blow), s⟩
  | remember => .ok (t.stateless (Delve.remember s))
  | goTo topic => .ok (t.stateless (goToRemembered topic s))
  | drink thirst => .ok (t.stateless (Delve.drink thirst s))
  | pickUp kinds => .ok (t.stateless (Delve.pickUp kinds s))
  | mineBlock => .ok (t.stateless (Delve.mineBlock s))
  | mineTunnel => .ok (t.stateless (Delve.mineTunnel s))

/-- The task at the start of an activation: a chase drops its route. What is only a record of
the past is kept. -/
def rewind : Task → Task
  | chase c => chase c.lose
  | t => t

end Task

def brainRepertoire : Repertoire Task Sense Scene Fault where
  setup t s := (t, s)
  tick := Task.tick
  rewind := Task.rewind
  test sense s := .ok (sense.test s)
  name := Task.name

end Delve

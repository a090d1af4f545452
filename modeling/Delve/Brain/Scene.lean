import Delve.Combat
import Delve.Dice
import Delve.Memory
import Delve.Tree.Status
import Delve.World.Actors
import Delve.World.Route
/-!
# The scene of a brain

Everything that a brain can look at and change: the world, the memories, the dice and the rules,
with the actor whose brain is at work in focus. Brains are run one at a time and share one scene.
-/

namespace Delve

/-- What a brain works on. -/
structure Scene where
  /-- The actor whose brain is at work. -/
  focus : ActorId
  world : World
  memory : Memory
  dice : Dice
  rules : Rules
deriving DecidableEq, Inhabited

namespace Scene

def ofWorld (world : World) (rules : Rules) : Scene where
  focus := .player
  world
  memory := .empty
  dice := { seed := rules.seed }
  rules

def focusOn (s : Scene) (id : ActorId) : Scene := { s with focus := id }

def actor? (s : Scene) : Option Actor := s.world.actor? s.focus

def position? (s : Scene) : Option Position := s.actor?.map (·.position)

/-- Whom the actor in focus hunts: the player, while it lives, unless that is the actor itself. -/
def target? (s : Scene) : Option Actor :=
  s.world.player?.filter fun player => player.isAlive && player.id != s.focus

def targetPosition? (s : Scene) : Option Position := s.target?.map (·.position)

def isReady (s : Scene) : Bool := s.actor?.any (·.canAct s.rules.turnReady)

def modifyActor (s : Scene) (change : Actor → Actor) : Scene :=
  { s with world := s.world.modifyActor s.focus change }

def finishTurn (s : Scene) : Scene := s.modifyActor (·.finishTurn s.rules.turnReady)

def stepTo (s : Scene) (p : Position) : Except WorldError Scene :=
  (s.world.moveActor s.focus p).map fun world => { s with world }

def routeOptions (s : Scene) : RouteOptions where
  diagonals := s.rules.chaseDiagonals
  budget := s.rules.searchBudget

def route (s : Scene) (start goal : Position) : Route := s.world.route start goal s.routeOptions

def d100 (s : Scene) : UInt32 × Scene :=
  let (n, dice) := s.dice.d100 s.focus.number
  (n, { s with dice })

def choose {α : Type} (s : Scene) (xs : List α) : Option α × Scene :=
  let (x, dice) := s.dice.choose s.focus.number xs
  (x, { s with dice })

def rememberPosition (s : Scene) (topic : Topic) (p : Position) : Scene :=
  { s with memory := s.memory.setPosition s.focus topic p }

def forget (s : Scene) (topic : Topic) : Scene :=
  { s with memory := s.memory.forget s.focus topic }

/-- Takes a step as a turn: it succeeds and is paid for, or fails and changes nothing. -/
def walk (s : Scene) (p : Position) : Status × Scene :=
  match s.stepTo p with
  | .ok s => (.success, s.finishTurn)
  | .error _ => (.failure, s)

def walkTo (s : Scene) : Option Position → Status × Scene
  | none => (.failure, s)
  | some p => s.walk p

end Scene

end Delve

import Delve.Brain.Error
import Delve.Brain.Temper
/-!
# The game

The turn order. A game is a scene with a brain for every actor that is to be driven. In a round
all of them gain energy, and then each acts, by ascending handle, for as long as its energy lasts.
An actor that has died by the time it would act leaves the game, with its brain and its memory.
-/

namespace Delve

structure Game where
  scene : Scene
  brains : ActorMap Brain
  rounds : Nat

structure Outcome where
  actor : ActorId
  status : Status
deriving DecidableEq, Repr

namespace Game

def ofScene (scene : Scene) : Game := ⟨scene, ∅, 0⟩

def start (world : Option World) (rules : Rules) (memory : Memory) : Except BrainError Game :=
  match world with
  | none => .error .missingWorld
  | some world => .ok (.ofScene { Scene.ofWorld world rules with memory })

def brain? (g : Game) (id : ActorId) : Option Brain := g.brains[id]?

def brainIds (g : Game) : List ActorId := g.brains.keys

/-! ## Giving brains -/

/-- Gives an actor a brain, in the place of one that it has. -/
def attachBrain (g : Game) (id : ActorId) (brain : Brain) : Except BrainError Game :=
  if (g.scene.world.actor? id).isSome then .ok { g with brains := g.brains.insert id brain }
  else .error (.unknownActor id)

def attach (g : Game) (id : ActorId) (temper : Temper) : Except BrainError Game :=
  g.attachBrain id (temper.brain g.scene.rules)

def attachNamed (g : Game) (id : ActorId) (name : String) : Except BrainError Game :=
  match Temper.ofName? name with
  | none => .error (.unknownTemper name)
  | some temper => g.attach id temper

def detach (g : Game) (id : ActorId) : Game := { g with brains := g.brains.erase id }

/-- Takes an actor out of the game: its brain, its memory and its body. -/
def removeActor (g : Game) (id : ActorId) : Option Actor × Game :=
  let removed := g.scene.world.removeActor? id
  let world := removed.elim g.scene.world (·.2)
  (removed.map (·.1),
    { g with
      brains := g.brains.erase id
      scene := { g.scene with world, memory := g.scene.memory.forgetActor id } })

/-! ## Turns -/

def update (g : Game) (id : ActorId) :
    Except BrainError (Except Fault (Option Status × Game)) :=
  match g.brain? id with
  | none => .error (.unknownActor id)
  | some brain =>
    .ok do
      let (status, brain, scene) ← brain.update id g.scene
      return (status, { g with scene, brains := g.brains.insert id brain })

def gainEnergy (g : Game) : Game :=
  let gain (w : World) (id : ActorId) : World :=
    w.modifyActor id (·.gainEnergy g.scene.rules.turnTick)
  { g with scene := { g.scene with world := g.brainIds.foldl gain g.scene.world } }

/-- Lets one actor act while its energy lasts, or leave the game if it is dead. -/
def actFor (g : Game) (id : ActorId) : Except Fault (List Outcome × Game) :=
  if (g.scene.world.actor? id).any (·.isAlive) then
    match g.brain? id with
    | none => return ([], g)
    | some brain => do
      let (statuses, brain, scene) ← brain.takeTurns id g.scene
      return (statuses.map (⟨id, ·⟩), { g with scene, brains := g.brains.insert id brain })
  else return ([], (g.removeActor id).2)

def actInOrder (g : Game) : List ActorId → Except Fault (List Outcome × Game)
  | [] => return ([], g)
  | id :: ids => do
    let (first, g) ← g.actFor id
    let (later, g) ← g.actInOrder ids
    return (first ++ later, g)

def round (g : Game) : Except Fault (List Outcome × Game) :=
  { g with rounds := g.rounds + 1 }.gainEnergy.actInOrder g.brainIds

end Game

end Delve

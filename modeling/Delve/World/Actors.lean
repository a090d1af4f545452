import Delve.World.Basic
/-!
# Actors in the world

How actors enter, step and leave. Each change of place is a change of the table of occupied cells
as well.
-/

namespace Delve.World

def actor? (w : World) (id : ActorId) : Option Actor := w.actors[id]?

def actorIds (w : World) : List ActorId := w.actors.keys

def actorList (w : World) : List Actor := w.actors.values

def player? (w : World) : Option Actor := w.playerId.bind w.actor?

/-- Changes what an actor is, not where it is. An unknown handle changes nothing. -/
def modifyActor (w : World) (id : ActorId) (change : Actor → Actor) : World :=
  match w.actor? id with
  | none => w
  | some a => { w with actors := w.actors.insert id (change a) }

def spawnError? (w : World) (p : Position) : Option WorldError :=
  if !w.inBounds p then some (.outOfBounds p)
  else if w.isObstacle p then some (.blocked p)
  else if (w.occupantAt? p).isSome then some (.occupied p)
  else none

/-- Puts an actor onto its cell under a handle. -/
def settle (w : World) (id : ActorId) (a : Actor) : World :=
  { w with
    occupants := w.occupants.insert a.position id
    actors := w.actors.insert id { a with id } }

def spawnActor (w : World) (a : Actor) : Except WorldError (ActorId × World) :=
  match w.spawnError? a.position with
  | some e => .error e
  | none =>
    let id : ActorId := ⟨w.nextId⟩
    .ok (id, { w.settle id a with nextId := w.nextId + 1 })

/-- Adds the player, of whom there is one at most. -/
def spawnPlayer (w : World) (a : Actor) : Except WorldError (ActorId × World) :=
  if (w.actor? .player).isSome then .error (.occupied a.position)
  else
    match w.spawnError? a.position with
    | some e => .error e
    | none => .ok (.player, { w.settle .player a with playerId := some .player })

def removeActor? (w : World) (id : ActorId) : Option (Actor × World) :=
  (w.actor? id).map fun a =>
    (a, { w with
      actors := w.actors.erase id
      -- the cell is freed only if the table agrees that the actor stands there
      occupants :=
        if w.occupantAt? a.position = some id then w.occupants.erase a.position else w.occupants
      playerId := if w.playerId = some id then none else w.playerId })

def moveActor (w : World) (id : ActorId) (goal : Position) : Except WorldError World :=
  match w.actor? id with
  | none => .error (.unknownActor id)
  | some a =>
    if !w.inBounds goal then .error (.outOfBounds goal)
    else if !a.position.isNeighbor goal then .error (.notAdjacent a.position goal)
    else if w.isObstacle goal then .error (.blocked goal)
    else if (w.occupantAt? goal).isSome then .error (.occupied goal)
    else
      -- the old cell is freed first, so that the two changes cannot collide
      .ok { w with
        occupants := (w.occupants.erase a.position).insert goal id
        actors := w.actors.insert id { a with position := goal } }

end Delve.World

import Delve.Brain.Scene
/-!
# Remembering places and going there
-/

namespace Delve

/-- Notes where the player stands. This takes no turn. -/
def remember (s : Scene) : Status × Scene :=
  match s.targetPosition? with
  | none => (.failure, s)
  | some target => (.success, s.rememberPosition .lastTarget target)

/-- Walks one step towards the remembered cell. Arriving uses the memory up and takes no turn. A
cell that cannot be reached is forgotten, so that nobody tries for ever. -/
def goToRemembered (topic : Topic) (s : Scene) : Status × Scene :=
  match s.memory.position? s.focus topic, s.position? with
  | some goal, some own =>
    if own = goal then (.success, s.forget topic)
    else
      match (s.route own goal).next? with
      | none => (.failure, s.forget topic)
      | some next =>
        match s.stepTo next with
        | .ok s => (.success, s.finishTurn)
        | .error _ => (.failure, s.forget topic)
  | _, _ => (.failure, s)

end Delve

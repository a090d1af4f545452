import Delve.Brain.Scene
import Delve.Tree.Node
import Delve.World.Sight
/-!
# Senses

The questions that a brain can ask about its actor's situation.
-/

namespace Delve

/-- A question about the situation of the actor in focus. -/
inductive Sense where
  /-- Is the hunted player within `range` king's moves? -/
  | playerInRange (range : UInt32)
  | playerVisible
  | hpLow (percent : UInt32)
  /-- Does a hundred-sided die land at or below `percent`? -/
  | chance (percent : UInt32)
  | remembers (topic : Topic)
deriving DecidableEq, Repr

namespace Sense

/-- Asks about where the actor and the hunted player stand. Without either the answer is no. -/
def betweenPositions (s : Scene) (holds : Position → Position → Bool) : Bool :=
  match s.position?, s.targetPosition? with
  | some own, some target => holds own target
  | _, _ => false

/-- The answer, and the scene after it: only rolling a die leaves a trace. -/
def ask : Sense → Scene → Bool × Scene
  | playerInRange range, s => (betweenPositions s fun own target => own.inRange target range, s)
  | playerVisible, s => (betweenPositions s s.world.canSee, s)
  | hpLow percent, s => (s.actor?.any (·.hp.percent < percent), s)
  | chance percent, s =>
    let (roll, s) := s.d100
    (roll ≤ percent, s)
  | remembers topic, s => (s.memory.contains s.focus topic, s)

def test (sense : Sense) (s : Scene) : Step Sense Scene :=
  let (holds, s) := sense.ask s
  ⟨.ofBool holds, sense, s⟩

end Sense

end Delve

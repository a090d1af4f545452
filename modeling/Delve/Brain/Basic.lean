import Delve.Brain.Task
import Delve.Tree.Outline
/-!
# Brains

A brain is a behavior tree over tasks and senses. Its owner's turn is one evaluation of the tree.
-/

namespace Delve

abbrev BrainNode := Node Task Sense

/-- A behavior tree that can drive an actor. -/
abbrev Brain := Tree Task Sense

namespace Brain

def of (body : BrainNode) : Brain := ⟨some body⟩

def describe (b : Brain) : String := Tree.describe Task.name b

def energy? (s : Scene) (id : ActorId) : Option UInt32 := (s.world.actor? id).map (·.energy)

/-- Evaluates a brain once for the actor in focus. A failure resets the brain. If nothing in the
brain has used energy up, the turn is paid for here. -/
def act (b : Brain) (s : Scene) : Except Fault (Step Brain Scene) := do
  let before := energy? s s.focus
  let r ← b.run brainRepertoire s
  let brain := if r.status = .failure then r.state.reset brainRepertoire else r.state
  -- an actor that has left the world has nothing to pay with
  let spent := r.context.actor?.all fun a => some a.energy != before
  return ⟨r.status, brain, if spent then r.context else r.context.finishTurn⟩

/-- Gives an actor its turn if it is ready for one. The answer is `none` if it is not, and the
outcome of the evaluation otherwise; the actor comes into focus in any case. -/
def update (id : ActorId) (b : Brain) (s : Scene) :
    Except Fault (Option Status × Brain × Scene) :=
  let s := s.focusOn id
  if s.isReady then do
    let r ← b.act s
    return (some r.status, r.state, r.context)
  else return (none, b, s)

/-- Gives an actor turn after turn. It goes on as long as turns are to be had and each of them
costs energy, which is why it comes to an end. -/
def takeTurns (id : ActorId) (b : Brain) (s : Scene) :
    Except Fault (List Status × Brain × Scene) :=
  match update id b s with
  | .error e => .error e
  | .ok (none, b, s) => .ok ([], b, s)
  | .ok (some status, b, after) =>
    if (energy? after id).elim 0 (·.toNat) < (energy? s id).elim 0 (·.toNat) then
      match takeTurns id b after with
      | .error e => .error e
      | .ok (later, b, s) => .ok (status :: later, b, s)
    else .ok ([status], b, after)
termination_by (energy? s id).elim 0 (·.toNat)

end Brain

end Delve

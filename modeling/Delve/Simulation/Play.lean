import Delve.Game
/-!
# Playing on its own

A game is played for a number of rounds, or until its player has fallen.
-/

namespace Delve

structure Report where
  rounds : Nat
  turns : Nat
  playerAlive : Bool
  survivors : List String
deriving DecidableEq, Repr

namespace Game

def playerAlive (g : Game) : Bool := g.scene.world.player?.any (·.isAlive)

/-- The names of those who live, by ascending handle. -/
def survivors (g : Game) : List String :=
  (g.scene.world.actorList.filter (·.isAlive)).map (·.name)

def report (g : Game) (turns : Nat) : Report := ⟨g.rounds, turns, g.playerAlive, g.survivors⟩

/-- Plays at most `n` rounds, and with `guarded` none after the first that leaves no living player.
The answer has the number of turns taken. -/
def playRounds (guarded : Bool) : Nat → Game → Except Fault (Nat × Game)
  | 0, g => return (0, g)
  | n + 1, g => do
    let (outcomes, g) ← g.round
    -- the round in which the player falls is played to its end
    if guarded && !g.playerAlive then return (outcomes.length, g)
    let (turns, g) ← playRounds guarded n g
    return (outcomes.length + turns, g)

/-- Plays at most `n` rounds. A game that has a player ends with the player's fall. -/
def play (n : Nat) (g : Game) : Except Fault (Report × Game) := do
  let (turns, g) ← playRounds g.scene.world.playerId.isSome n g
  return (g.report turns, g)

end Game

end Delve

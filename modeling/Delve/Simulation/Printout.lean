import Delve.Simulation.Play
import Delve.Simulation.Settings
import Delve.Simulation.Setup
import Delve.World.Picture
/-!
# The printed simulation

What a simulation prints: the level before the first round, the level after the last, and a
summary.
-/

namespace Delve

def Report.text (r : Report) : String :=
  Text.unlines
    ["rounds: " ++ toString r.rounds ++ "  turns: " ++ toString r.turns ++ "  player alive: " ++
        (if r.playerAlive then "true" else "false"),
      "survivors: " ++ ", ".intercalate r.survivors]

namespace Simulation

structure Printout where
  /-- The exit code: 0 for a simulation to the end, 1 where there is no level, and 101 where the
  game cannot go on. -/
  code : UInt8
  text : String
  complaint : String := ""
deriving DecidableEq, Repr

def printGame (turns : Nat) (g : Game) : Printout :=
  let before := g.scene.world.render
  match g.play turns with
  | .ok (report, g) => { code := 0, text := before ++ "\n" ++ g.scene.world.render ++ report.text }
  | .error _ => { code := 101, text := before, complaint := "the game cannot go on" }

def print (settings : Settings) (sources : Sources) : Printout :=
  match setup sources settings.playerWanders with
  | .ok g => printGame settings.turns.toNat g
  | .error e => { code := 1, text := "", complaint := e.message }

end Simulation

end Delve

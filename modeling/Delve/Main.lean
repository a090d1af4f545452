import Delve.Simulation.Printout
/-!
# The simulation as a program

Takes the settings from the environment and prints the simulation.
-/

namespace Delve.Simulation

/-- The variables of the environment that hold settings. -/
def variableNames : List String :=
  ["DUNGEON_CONFIG", "DUNGEON_MAP", "DUNGEON_SCENARIO", "DUNGEON_TURNS", "DUNGEON_PLAYER_WANDERS"]

def readSource (path : String) : IO SourceFile := do
  try return ⟨path, .ok (← IO.FS.readFile path)⟩
  catch
    | .noFileOrDirectory .. => return .missing path
    | e => return ⟨path, .error (toString e)⟩

def runProgram : IO UInt32 := do
  let values ← variableNames.mapM fun name => return (name, ← IO.getEnv name)
  let settings := Settings.ofVariables fun name => (values.lookup name).join
  let printout := print settings
    { rules := ← settings.rulesPath.mapM readSource
      map := ← settings.mapPath.mapM readSource
      scenario := ← settings.scenarioPath.mapM readSource }
  IO.print printout.text
  unless printout.complaint.isEmpty do IO.eprintln ("Error: " ++ printout.complaint)
  return printout.code.toUInt32

end Delve.Simulation

def main : IO UInt32 := Delve.Simulation.runProgram

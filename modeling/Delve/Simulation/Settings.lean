import Delve.Text.Integer
/-!
# Settings of a simulation

Where a level comes from, how long it is played, and whether its player moves. All of it is named
by variables of the environment.
-/

namespace Delve.Simulation

structure Settings where
  /-- The file of the rules; the usual rules where there is none. -/
  rulesPath : Option String := none
  /-- The file of the map; the demonstration map where there is none. -/
  mapPath : Option String := none
  /-- The file of the scenario; the demonstration scenario where there is none. -/
  scenarioPath : Option String := none
  turns : UInt32 := 50
  /-- Whether the player wanders, so that the monsters have something to hunt. -/
  playerWanders : Bool := true
deriving DecidableEq, Repr, Inhabited

namespace Settings

def truth? (s : String) : Option Bool :=
  let s := s.toLower
  if ["1", "true", "yes", "on"].contains s then some true
  else if ["0", "false", "no", "off"].contains s then some false
  else none

/-- The settings that variables make, where `lookUp` looks a variable up. A number or a word
that cannot be read counts as none. -/
def ofVariables (lookUp : String → Option String) : Settings :=
  let usual : Settings := {}
  let turns := (lookUp "DUNGEON_TURNS").bind fun s => (Text.readUInt32 s.toList).toOption
  let wanders := (lookUp "DUNGEON_PLAYER_WANDERS").bind truth?
  { rulesPath := lookUp "DUNGEON_CONFIG"
    mapPath := lookUp "DUNGEON_MAP"
    scenarioPath := lookUp "DUNGEON_SCENARIO"
    turns := turns.getD usual.turns
    playerWanders := wanders.getD usual.playerWanders }

end Settings

end Delve.Simulation

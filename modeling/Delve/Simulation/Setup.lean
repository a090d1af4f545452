import Delve.Game
import Delve.Level.Content
import Delve.Simulation.Demo
/-!
# Setting a game up

From the files of a level to a game: rules, map and scenario are read in this order, the scenario
is put into the map, and every monster is given the brain of its temper.
-/

namespace Delve.Simulation

/-- A file that was to be read: its text, or why there is none. -/
structure SourceFile where
  path : String
  content : Except String String

/-- The files of a level. What has no file is built in. -/
structure Sources where
  rules : Option SourceFile := none
  map : Option SourceFile := none
  scenario : Option SourceFile := none

namespace SourceFile

def missing (path : String) : SourceFile :=
  ⟨path, .error "No such file or directory (os error 2)"⟩

def text (file : SourceFile) : Except LoadError String :=
  match file.content with
  | .ok text => .ok text
  | .error reason => .error (.unreadable file.path reason)

def readMap (file : SourceFile) : Except LoadError World := do
  (World.read (← file.text)).mapError (.mapFile file.path)

end SourceFile

namespace Sources

def readRules (s : Sources) : Except LoadError Rules :=
  match s.rules with
  | none => .ok {}
  | some file => do Rules.read (← file.text)

def readMap (s : Sources) : Except LoadError World :=
  match s.map with
  | none => (World.ofRows Demo.rows).mapError .layout
  | some file => file.readMap

def readScenario (s : Sources) : Except LoadError Scenario :=
  match s.scenario with
  | none => .ok Demo.scenario
  | some file => do Scenario.read (← file.text)

end Sources

def giveBrains : List (ActorId × String) → Game → Except LoadError Game
  | [], g => .ok g
  | (id, temper) :: rest, g => do
    giveBrains rest (← (g.attachNamed id temper).mapError (.mindless id))

def letWander (g : Game) : Except LoadError Game :=
  match g.scene.world.playerId with
  | none => .ok g
  | some id => (g.attachBrain id .wanderer).mapError (.mindless id)

def setup (sources : Sources) (playerWanders : Bool) : Except LoadError Game := do
  let rules ← sources.readRules
  let world ← sources.readMap
  let scenario ← sources.readScenario
  let (placed, world) := scenario.populate world
  let g ← giveBrains (← placed) (.ofScene (Scene.ofWorld world rules))
  if playerWanders then letWander g else return g

end Delve.Simulation

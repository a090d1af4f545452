import Delve.Level.Scenario
/-!
# The demonstration level

The level that is played when none is given: a chamber, some rocks, and one monster of every
temper.
-/

namespace Delve.Simulation.Demo

def rows : List String :=
  ["####################",
    "#..................#",
    "#..***.....#####...#",
    "#..*.......#...#...#",
    "#..***.........#...#",
    "#..........#####...#",
    "#.....0............#",
    "#..................#",
    "####################"]

def hero : ActorSpec :=
  { name := "hero", position := ⟨13, 3⟩, stats := ⟨3, 3, 3, 1, 0⟩, hp := 30 }

def goblin : ActorSpec := { name := "goblin", position := ⟨2, 7⟩, hp := 6 }

def orc : ActorSpec := { name := "orc", position := ⟨17, 1⟩, stats := ⟨2, 2, 2, 1, 0⟩, hp := 12 }

def kobold : ActorSpec :=
  { name := "kobold", position := ⟨8, 6⟩, hp := 8, items := [.healingPotion 5] }

def dwarf : ActorSpec :=
  { name := "dwarf", position := ⟨4, 3⟩, stats := ⟨2, 2, 2, 2, -1⟩, hp := 14 }

def sentry : ActorSpec := { name := "sentry", position := ⟨10, 4⟩, hp := 10 }

def scenario : Scenario where
  player := some hero
  monsters :=
    [⟨goblin, "basic"⟩, ⟨orc, "smart"⟩, ⟨kobold, "coward"⟩, ⟨dwarf, "miner"⟩, ⟨sentry, "guard"⟩]
  items := [⟨⟨6, 3⟩, .coins 25⟩, ⟨⟨7, 7⟩, .single .gem 50⟩]

end Delve.Simulation.Demo

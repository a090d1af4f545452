/-!
# Rules of play

The numbers that a level can be tuned by.
-/

namespace Delve

/-- The numbers that a level can be tuned by, each with its usual value. -/
structure Rules where
  /-- The energy that a turn costs. -/
  turnReady : UInt32 := 100
  /-- The energy that a round gives at speed 0. -/
  turnTick : UInt32 := 100
  minHitChance : UInt32 := 5
  maxHitChance : UInt32 := 95
  baseHitChance : UInt32 := 50
  hitChancePerSkill : UInt32 := 2
  aggroRange : UInt32 := 8
  /-- Below how many hundredths of its health an actor counts as hurt. -/
  hpLowPercent : UInt32 := 30
  /-- How many cells a search may expand; 0 sets no limit. -/
  pathSearchBudget : UInt64 := 0
  chaseDiagonals : Bool := true
  seed : UInt64 := 0
deriving DecidableEq, Repr, Inhabited

def Rules.searchBudget (r : Rules) : Option Nat :=
  if 0 < r.pathSearchBudget then some r.pathSearchBudget.toNat else none

end Delve

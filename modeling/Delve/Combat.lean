import Delve.Actor
import Delve.Fault
import Delve.Rules
/-!
# Combat

The chance of a blow to land, and the harm it does.
-/

namespace Delve.Combat

/-- The chance in hundredths that a blow lands: the base chance, moved by the difference of the
skills and held between the two limits, all as signed words. -/
def hitChance (attacker defender : Int32) (rules : Rules) : Except Fault UInt32 :=
  let low := rules.minHitChance.toInt32
  let high := rules.maxHitChance.toInt32
  if high < low then .error .crossedHitChances
  else
    let edge := (attacker.subClamp defender).mulClamp rules.hitChancePerSkill.toInt32
    let chance := rules.baseHitChance.toInt32.addClamp edge
    .ok (if chance < low then low else if high < chance then high else chance).toUInt32

def hits (chance roll : UInt32) : Bool := roll ≤ chance

/-- The harm of a blow that lands: strength against defense, and 1 at the least. -/
def damage (attacker defender : Stats) : UInt32 :=
  (max (attacker.strength.subClamp defender.defense) 1).toUInt32

end Delve.Combat

import Delve.Brain.Scene
/-!
# Attacking

A blow at the player on a neighbouring cell. The swing is the action: it succeeds and costs the
turn whether it lands or not.
-/

namespace Delve

structure Blow where
  hit : Bool
  /-- The chance that the roll was held against. -/
  chance : UInt32
  damage : UInt32
  targetAlive : Bool
deriving DecidableEq, Repr

def strike (s : Scene) (attacker defender : Actor) (chance : UInt32) : Blow × Scene :=
  let (roll, s) := s.d100
  let hit := Combat.hits chance roll
  let damage := if hit then Combat.damage attacker.stats defender.stats else 0
  let world := s.world.modifyActor defender.id fun a => (a.receiveDamage damage).2
  let targetAlive := (world.actor? defender.id).all (·.isAlive)
  (⟨hit, chance, damage, targetAlive⟩, { s with world })

/-- Attacks the player if it stands on a neighbouring cell. -/
def attack (s : Scene) : Except Fault (Option Blow × Scene) :=
  match s.actor?, s.target? with
  | some attacker, some defender =>
    if attacker.position.isNeighbor defender.position then do
      let chance ← Combat.hitChance attacker.stats.skill defender.stats.skill s.rules
      let (blow, s) := strike s attacker defender chance
      return (some blow, s.finishTurn)
    else return (none, s)
  | _, _ => return (none, s)

end Delve

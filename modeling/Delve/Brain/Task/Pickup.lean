import Delve.Brain.Scene
import Delve.World.Ground
/-!
# Picking items up
-/

namespace Delve

/-- The place of the item that is picked from a pile: the top, or where kinds are given the first
item of one of them. -/
def pickPlace? (kinds : List ItemKind) (pile : List Item) : Option Nat :=
  if kinds.isEmpty then if pile.isEmpty then none else some (pile.length - 1)
  else pile.findIdx? fun item => kinds.contains item.kind

/-- The actor with one item more. Coins are money and take no slot. -/
def Actor.receive? (a : Actor) (item : Item) : Option Actor :=
  if item.kind = .coins then some { a with money := a.money.addClamp item.amount }
  else (a.inventory.add? item).map fun inventory => { a with inventory }

/-- Picks one item up from the actor's cell. An actor without a free slot does not even take
coins. -/
def pickUp (kinds : List ItemKind) (s : Scene) : Status × Scene :=
  match s.actor? with
  | none => (.failure, s)
  | some actor =>
    -- the free slot is asked for before the item is known, so coins need one too
    if actor.inventory.isFull then (.failure, s)
    else
      let cell := actor.position
      match (pickPlace? kinds (s.world.itemsAt cell)).bind (s.world.takeItem? cell) with
      | none => (.failure, s)
      | some (item, world) =>
        match actor.receive? item with
        | some richer => (.success, ({ s with world }.modifyActor fun _ => richer).finishTurn)
        | none =>
          -- an item that is refused goes back to the ground, on top of its pile
          match world.dropItem cell item with
          | .ok world => (.failure, { s with world })
          | .error _ => (.failure, { s with world })

end Delve

import Delve.Brain.Scene
/-!
# Drinking potions
-/

namespace Delve

inductive Thirst where
  /-- The first identified healing potion. -/
  | hp
  | mp
  /-- Any potion, drawn at random, identified or not. -/
  | any
deriving DecidableEq, Repr, Inhabited

def Thirst.ofWord? (s : String) : Option Thirst :=
  match s.toUpper with
  | "HP" => some .hp
  | "MP" => some .mp
  | "ANY" => some .any
  | _ => none

def Inventory.findIdentified? (inv : Inventory) (kind : ItemKind) : Option Nat :=
  inv.find? fun item => item.kind == kind && item.identified

def Inventory.potionSlots (inv : Inventory) : List Nat :=
  (List.range inv.size).filter fun slot => inv.items[slot]?.any (·.kind.isPotion)

def Thirst.pick (thirst : Thirst) (inv : Inventory) (s : Scene) : Option Nat × Scene :=
  match thirst with
  | .hp => (inv.findIdentified? .healingPotion, s)
  | .mp => (inv.findIdentified? .manaPotion, s)
  | .any => s.choose inv.potionSlots

def Actor.quaff (a : Actor) (potion : Item) : Actor :=
  match potion.kind with
  | .healingPotion => { a with hp := (a.hp.restore potion.potency).2 }
  | .manaPotion => { a with mp := (a.mp.restore potion.potency).2 }
  | .unknownPotion | .gem | .coins | .junk => a

def drink (thirst : Thirst) (s : Scene) : Status × Scene :=
  match s.actor? with
  | none => (.failure, s)
  | some actor =>
    match thirst.pick actor.inventory s with
    | (none, s) => (.failure, s)
    | (some slot, s) =>
      match actor.inventory.takeOne? slot with
      | none => (.failure, s)
      | some (potion, inventory) =>
        (.success, (s.modifyActor fun a => { a with inventory }.quaff potion).finishTurn)

end Delve

import Delve.Brain.Task.Pickup
import Delve.Proofs.Gather
import Delve.Proofs.Inventory
import Delve.Proofs.World.Operation
/-!
# Goods

The items of a world lie in piles or are carried, and money is in the purses of actors. For every
change that is made to piles, inventories and purses, what it does to all the items together and to
all the money.
-/

namespace Delve

/-- What an actor can gain and lose without being changed itself. -/
def Actor.belongings (a : Actor) : Inventory × UInt32 := (a.inventory, a.money)

namespace World

variable {w w' w'' : World} {id : ActorId} {a : Actor} {p : Position}

/-! ## 1. All items and all money -/

/-- The items on the ground. -/
def litter (w : World) : Multiset Item := gather (fun pile : List Item ↦ (pile : Multiset Item)) w.piles

/-- The items that are carried. -/
def luggage (w : World) : Multiset Item :=
  gather (fun a : Actor ↦ (a.inventory.items : Multiset Item)) w.actors

/-- All items of a world. -/
def hoard (w : World) : Multiset Item := w.litter + w.luggage

/-- All money that actors have. -/
def purses (w : World) : Nat := gather (fun a : Actor ↦ a.money.toNat) w.actors

/-- The units of some kinds among all items. -/
def unitsOf (w : World) (kinds : ItemKind → Bool) : Nat := (w.hoard.map (·.unitsOf kinds)).sum

/-- All coins and all money. -/
def wealth (w : World) : Nat := w.unitsOf (· == .coins) + w.purses

theorem unitsOf_of_eq (h : w'.hoard = w.hoard) (kinds : ItemKind → Bool) :
    w'.unitsOf kinds = w.unitsOf kinds := by
  rw [unitsOf, h, unitsOf]

theorem unitsOf_of_cons {i : Item} {rest : Multiset Item} (h : w.hoard = i ::ₘ rest)
    (kinds : ItemKind → Bool) :
    w.unitsOf kinds = i.unitsOf kinds + (rest.map (·.unitsOf kinds)).sum := by
  rw [unitsOf, h, Multiset.map_cons, Multiset.sum_cons]

theorem unitsOf_of_add {items rest : Multiset Item} (h : w.hoard = items + rest)
    (kinds : ItemKind → Bool) :
    w.unitsOf kinds = (items.map (·.unitsOf kinds)).sum + (rest.map (·.unitsOf kinds)).sum := by
  rw [unitsOf, h, Multiset.map_add, Multiset.sum_add]

/-- The items of a pile are apart from all others, whatever becomes of the pile. One that becomes
empty is taken away, which makes no difference to what there is. -/
theorem exists_rest_of_pile (w : World) (p : Position) :
    ∃ rest : Multiset Item, w.hoard = w.itemsAt p + rest ∧
      ∀ pile, (w.withPile p pile).hoard = pile + rest := by
  refine ⟨gather (fun pile : List Item ↦ (pile : Multiset Item)) (w.piles.erase p) + w.luggage,
    ?_, fun pile ↦ ?_⟩
  · rw [hoard, litter, gather_eq _ _ p, ← add_assoc, itemsAt]
    cases w.piles[p]? <;> rfl
  · rw [← add_assoc]
    refine congrArg (· + w.luggage) ?_
    cases pile with
    | nil => exact (zero_add _).symm
    | cons i pile => exact gather_insert _ _ _ _

/-- What an actor carries is apart from all other items, whatever becomes of the actor. -/
theorem exists_rest_of_actor (ha : w.actor? id = some a) :
    ∃ rest : Multiset Item, w.hoard = a.inventory.items + rest ∧
      ∀ change, (w.modifyActor id change).hoard = (change a).inventory.items + rest := by
  have ha : w.actors[id]? = some a := ha
  refine ⟨w.litter +
    gather (fun a : Actor ↦ (a.inventory.items : Multiset Item)) (w.actors.erase id),
    ?_, fun change ↦ ?_⟩
  · rw [hoard, luggage, gather_eq _ _ id, ha, Option.elim_some, add_left_comm]
  · rw [modifyActor_of_some ha, add_left_comm]
    exact congrArg (w.litter + ·) (gather_insert _ _ _ _)

/-- An item that is taken from a pile is apart from what an actor carries and from all the rest,
whatever becomes of the actor. -/
theorem exists_rest_of_taken (ha : w.actor? id = some a) {place : Nat} {item : Item}
    (hitem : (w.itemsAt p)[place]? = some item) :
    ∃ rest : Multiset Item, w.hoard = item ::ₘ (a.inventory.items + rest) ∧
      ∀ change, ((w.withPile p ((w.itemsAt p).eraseIdx place)).modifyActor id change).hoard =
        (change a).inventory.items + rest := by
  obtain ⟨ground, hground, hlifted⟩ := w.exists_rest_of_pile p
  -- the actor is the same in the world without the item
  have hstill : (w.withPile p ((w.itemsAt p).eraseIdx place)).actor? id = some a := ha
  obtain ⟨rest, hcarried, hafter⟩ := exists_rest_of_actor hstill
  refine ⟨rest, ?_, hafter⟩
  rw [hground, coe_eq_cons_eraseIdx hitem, Multiset.cons_add, ← hlifted, hcarried]

theorem purses_modifyActor (ha : w.actor? id = some a) (change : Actor → Actor) :
    (w.modifyActor id change).purses + a.money.toNat = w.purses + (change a).money.toNat := by
  have ha : w.actors[id]? = some a := ha
  rw [modifyActor_of_some ha]
  exact gather_replace (fun a : Actor ↦ a.money.toNat) ha (change a)

theorem money_le_purses (ha : w.actor? id = some a) : a.money.toNat ≤ w.purses := by
  have ha : w.actors[id]? = some a := ha
  rw [purses, gather_eq _ _ id, ha]
  exact Nat.le_add_right _ _

/-! ## 2. The same goods -/

/-- What lies about and what actors have has not changed hands. -/
structure SameGoods (w w' : World) : Prop where
  piles_eq : w'.piles = w.piles
  belongings_eq : ∀ i, (w'.actor? i).map Actor.belongings = (w.actor? i).map Actor.belongings

theorem SameGoods.refl (w : World) : w.SameGoods w := ⟨rfl, fun _ ↦ rfl⟩

theorem SameGoods.trans (h : w.SameGoods w') (h' : w'.SameGoods w'') : w.SameGoods w'' :=
  ⟨h'.piles_eq.trans h.piles_eq, fun i ↦ (h'.belongings_eq i).trans (h.belongings_eq i)⟩

theorem SameGoods.hoard_eq (h : w.SameGoods w') : w'.hoard = w.hoard := by
  rw [hoard, hoard, litter, litter, h.piles_eq]
  refine congrArg _ (gather_congr fun i ↦ ?_)
  have hsame := congrArg (Option.map fun b ↦ (b.1.items : Multiset Item)) (h.belongings_eq i)
  rw [Option.map_map, Option.map_map] at hsame
  exact hsame

theorem SameGoods.purses_eq (h : w.SameGoods w') : w'.purses = w.purses := by
  refine gather_congr fun i ↦ ?_
  have hsame := congrArg (Option.map fun b ↦ b.2.toNat) (h.belongings_eq i)
  rw [Option.map_map, Option.map_map] at hsame
  exact hsame

theorem sameGoods_modifyActor (w : World) (id : ActorId) {change : Actor → Actor}
    (h : ∀ a, (change a).belongings = a.belongings) : w.SameGoods (w.modifyActor id change) where
  piles_eq := by
    unfold modifyActor
    split <;> rfl
  belongings_eq i := by
    rw [actor_modifyActor]
    split
    · rw [Option.map_map]
      exact congrArg (Option.map · _) (funext h)
    · rfl

theorem sameGoods_relocate (ha : w.actor? id = some a) (goal : Position) :
    w.SameGoods (w.relocate id a goal) where
  piles_eq := rfl
  belongings_eq i := by
    show ((w.actors.insert id { a with position := goal })[i]?).map _ = _
    rw [getElem?_insert_eq_ite]
    split
    · rename_i hi
      rw [← hi, ha]
      rfl
    · rfl

end World

end Delve

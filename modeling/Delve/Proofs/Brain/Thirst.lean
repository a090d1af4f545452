import Delve.Proofs.Brain.Promise
import Delve.Proofs.World.Goods
/-!
# Drinking first

A hurt coward comes to a potion on every way through its tree: beside the player before it fights,
away from it before it runs, and out of its sight before it wanders. What comes before that are
questions, and a question leaves no trace. So as long as it has a potion that is known to heal, its
turn is a draught, wherever the player may be.
-/

namespace Delve

open Node

variable {s s' : Scene} {a : Actor} {rules : Rules} {slot : Nat} {potion : Item}

/-! ## 1. A draught -/

/-- A potion that is known to heal. -/
def Item.IsRemedy (item : Item) : Prop := item.kind = .healingPotion ∧ item.identified = true

/-- The first potion of an inventory that is known to heal, and its slot. -/
structure Inventory.FirstRemedy (inv : Inventory) (slot : Nat) (potion : Item) : Prop where
  held : inv.items[slot]? = some potion
  remedy : potion.IsRemedy
  first : ∀ i item, i < slot → inv.items[i]? = some item → ¬ item.IsRemedy

namespace Inventory

theorem exists_firstRemedy {inv : Inventory} (h : ∃ item ∈ inv.items, item.IsRemedy) :
    ∃ slot potion, inv.FirstRemedy slot potion ∧
      inv.findIdentified? .healingPotion = some slot := by
  have htest : ∀ item : Item, (item.kind == .healingPotion && item.identified) = true ↔
      item.IsRemedy := by
    intro item
    rw [Bool.and_eq_true, beq_iff_eq, Item.IsRemedy]
  cases hfind : inv.findIdentified? .healingPotion with
  | none =>
    obtain ⟨item, hmem, hitem⟩ := h
    exact absurd ((htest item).mpr hitem)
      (Bool.eq_false_iff.mp (List.findIdx?_eq_none_iff.mp hfind item hmem))
  | some slot =>
    obtain ⟨hlt, hfound, hfirst⟩ := List.findIdx?_eq_some_iff_getElem.mp hfind
    refine ⟨slot, _, ⟨List.getElem?_eq_getElem hlt, (htest _).mp hfound, ?_⟩, rfl⟩
    intro i item hi hitem
    rw [List.getElem?_eq_getElem (hi.trans hlt), Option.some.injEq] at hitem
    rw [← hitem, ← htest]
    exact hfirst i hi

end Inventory

/-- The actor without one unit of a potion, healed by it. -/
def Actor.refreshed (a : Actor) (slot : Nat) (potion : Item) : Actor :=
  { a with
    inventory := { a.inventory with items := a.inventory.itemsLess slot potion }
    hp := (a.hp.restore potion.potency).2 }

/-- The scene after a turn of drinking: nobody is another but the actor in focus. -/
def Scene.refreshed (s : Scene) (a : Actor) (slot : Nat) (potion : Item) : Scene :=
  let drunk := (a.refreshed slot potion).finishTurn s.rules.turnReady
  { s with world := { s.world with actors := s.world.actors.insert s.focus drunk } }

theorem Scene.finishTurn_modifyActor {change : Actor → Actor} (ha : s.actor? = some a) :
    (s.modifyActor change).finishTurn = { s with world := { s.world with
      actors := s.world.actors.insert s.focus ((change a).finishTurn s.rules.turnReady) } } := by
  have ha : s.world.actor? s.focus = some a := ha
  have hchanged : (s.world.modifyActor s.focus change).actor? s.focus = some (change a) := by
    rw [World.actor_modifyActor, if_pos rfl, ha, Option.map_some]
  rw [finishTurn, modifyActor, modifyActor]
  dsimp only
  rw [World.modifyActor_of_some hchanged, World.modifyActor_of_some ha, insert_insert]

theorem drink_refreshes (ha : s.actor? = some a) (hcounted : potion.Counted)
    (hfirst : a.inventory.FirstRemedy slot potion)
    (hfind : a.inventory.findIdentified? .healingPotion = some slot) :
    drink .hp s = (.success, s.refreshed a slot potion) := by
  have htaken := Inventory.takeOne_of_counted hfirst.held hcounted
  have hkind : potion.unit.kind = .healingPotion := hfirst.remedy.1
  rw [drink, ha]
  dsimp only
  rw [Thirst.pick, hfind]
  dsimp only
  rw [htaken]
  dsimp only
  rw [Scene.finishTurn_modifyActor ha, Actor.quaff, hkind]
  rfl

theorem paysOnce_refreshed (ha : s.actor? = some a) (hcounted : potion.Counted)
    (hfirst : a.inventory.FirstRemedy slot potion)
    (hfind : a.inventory.findIdentified? .healingPotion = some slot) :
    s.PaysOnce (s.refreshed a slot potion) := by
  have htick := drink_outcome .hp s
  rw [drink_refreshes ha hcounted hfirst hfind] at htick
  generalize s.refreshed a slot potion = s' at htick ⊢
  cases htick with
  | noted task => cases task
  | arrived task => cases task
  | done _ deed => exact deed.paysOnce

/-! ## 2. A hurt coward -/

namespace Temper

/-- The way through the tree leads past questions to a potion. -/
theorem coward_promises {Q : Status → Scene → Prop} (ha : s.actor? = some a)
    (hhurt : a.hp.percent < rules.hpLowPercent) (hdrink : drinkHealing.Promises s Q)
    (hQ : ∀ s', ¬ Q .failure s') : (coward.body rules).Promises s Q := by
  have hask : (Sense.hpLow rules.hpLowPercent).ask s = (true, s) := by
    rw [Sense.ask, ha, Option.any_some, decide_eq_true hhurt]
  have hhurtDrink : (whenHurt rules drinkHealing).Promises s Q :=
    promises_gate hask (fun _ ↦ hdrink) (absurd · (by decide))
  have hcornered : (sel [whenHurt rules drinkHealing, leaf (.attack none)]).Promises s Q :=
    promises_sel_of_settled hhurtDrink hQ
  have haway : (whenHurt rules (sel [drinkHealing, leaf .retreat])).Promises s Q :=
    promises_gate hask (fun _ ↦ promises_sel_of_settled hdrink hQ) (absurd · (by decide))
  have hbeside : (whenAdjacent _).Promises s (s.RefusedOr Q) :=
    promises_gate_refusedOr rfl (hcornered.refusedOr hQ)
  have hreact : (sel [_, _, leaf .retreat]).Promises s Q :=
    promises_sel_of_refusedOr hbeside (promises_sel_of_settled haway hQ)
  have hseen : (whenVisible _).Promises s (s.RefusedOr Q) :=
    promises_gate_refusedOr rfl (hreact.refusedOr hQ)
  exact promises_sel_of_refusedOr (promises_gate_refusedOr rfl hseen)
    (promises_sel_of_settled hhurtDrink hQ)

end Temper

/-- A hurt coward with a potion that is known to heal drinks, whatever it has kept from earlier
turns, and wherever the player is: it takes one unit of the first such potion, is healed by it as
far as its health goes, and pays for the turn. Nothing else changes, neither in the world nor
outside of it. -/
theorem Temper.coward_drinks (rules : Rules) {b : Brain} (hbrain : (coward.brain rules).Becomes b)
    {id : ActorId} (ha : s.world.actor? id = some a)
    (hready : a.canAct s.rules.turnReady = true) (hhurt : a.hp.percent < rules.hpLowPercent)
    (hcounted : ∀ item ∈ a.inventory.items, item.Counted)
    (hremedy : ∃ item ∈ a.inventory.items, item.IsRemedy) :
    ∃ b' s' slot potion hp energy, b.update id s = .ok (some .success, b', s') ∧
      a.inventory.FirstRemedy slot potion ∧
      s' = { s with
        focus := id
        world := { s.world with
          actors := s.world.actors.insert id { a with
            inventory := { a.inventory with items := a.inventory.itemsLess slot potion }
            hp := ⟨hp, a.hp.maximum⟩
            energy } } } ∧
      hp.toNat = min a.hp.maximum.toNat (a.hp.current.toNat + potion.potency.toNat) ∧
      energy.toNat + s.rules.turnReady.toNat = a.energy.toNat := by
  obtain ⟨slot, potion, hfirst, hfind⟩ := Inventory.exists_firstRemedy hremedy
  have hsingle := hcounted potion (List.mem_of_getElem? hfirst.held)
  have hfocus : (s.focusOn id).actor? = some a := ha
  have hdrink : drinkHealing.Promises (s.focusOn id) fun status s' ↦
      status = .success ∧ s' = (s.focusOn id).refreshed a slot potion := by
    refine promises_leaf_of_tick (by simp) (by simp) rfl ?_
    rw [drink_refreshes hfocus hsingle hfirst hfind]
    exact ⟨rfl, rfl⟩
  obtain ⟨_, b', s', hupdate, rfl, rfl⟩ := Brain.update_of_promises hbrain ha hready
    (coward_promises hfocus hhurt hdrink (by simp)) fun _ _ hdrunk ↦
      hdrunk.2 ▸ paysOnce_refreshed hfocus hsingle hfirst hfind
  refine ⟨b', _, slot, potion, _, _, hupdate, hfirst, rfl, a.hp.toNat_restore _, ?_⟩
  have hprice : s.rules.turnReady.toNat ≤ a.energy.toNat := by
    rw [Actor.canAct, Bool.and_eq_true, decide_eq_true_eq] at hready
    exact UInt32.le_iff_toNat_le.mp hready.2
  show (a.energy.subClamp s.rules.turnReady).toNat + _ = _
  rw [UInt32.toNat_subClamp]
  omega

/-- The rat of the ambush, badly hurt, with a potion for its mana and two for its health. -/
def patient : Actor where
  id := ⟨1⟩
  name := "rat"
  position := ⟨1, 0⟩
  hp := ⟨2, 10⟩
  energy := 150
  inventory := ⟨[.manaPotion 3, (Item.healingPotion 5).stacked 2], 8⟩

def sickbed : Scene :=
  { ambush with world := ambush.world.modifyActor ⟨1⟩ fun _ ↦ patient }

/-- Though the hero stands beside it, the rat drinks. -/
theorem sickbed_drinks :
    sickbed.world.actor? ⟨1⟩ = some patient ∧ patient.hp.percent < 30 ∧
      ∃ b' s' rat, (Temper.coward.brain {}).update ⟨1⟩ sickbed = .ok (some .success, b', s') ∧
        s'.world.actor? ⟨1⟩ = some rat ∧ rat.hp.current.toNat = 7 ∧ rat.energy.toNat = 50 ∧
        rat.inventory.items = [.manaPotion 3, (Item.healingPotion 5).stacked 1] ∧
        s'.world.actor? .player = sickbed.world.actor? .player ∧ s'.dice = sickbed.dice := by
  have hrat : sickbed.world.actor? ⟨1⟩ = some patient := by
    rw [sickbed, World.actor_modifyActor, if_pos rfl, ambush_rat, Option.map_some]
  have hhurt : patient.hp.percent < 30 := by decide
  obtain ⟨b', s', slot, potion, hp, energy, hupdate, hfirst, rfl, hhealed, hpaid⟩ :=
    Temper.coward_drinks {} .refl hrat (by decide) hhurt (by decide)
      ⟨_, List.mem_of_getElem? (i := 1) rfl, rfl, rfl⟩
  have hslot : slot = 1 := by
    rcases slot with _ | _ | slot
    · obtain rfl := Option.some.inj hfirst.held
      exact absurd hfirst.remedy.1 (by decide)
    · rfl
    · exact absurd hfirst.held (by simp [patient])
  subst hslot
  obtain rfl := Option.some.inj hfirst.held
  have hprice : sickbed.rules.turnReady.toNat = 100 := by decide +kernel
  rw [hprice] at hpaid
  refine ⟨hrat, hhurt, b', _, _, hupdate, (getElem?_insert_eq_ite _ _ _ _).trans (if_pos rfl),
    hhealed, Nat.add_right_cancel hpaid, ?_, ?_, rfl⟩
  · show patient.inventory.itemsLess 1 ((Item.healingPotion 5).stacked 2) = _
    decide
  · exact getElem?_insert_of_ne _ (by decide) _

end Delve

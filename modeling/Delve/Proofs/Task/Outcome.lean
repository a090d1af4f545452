import Delve.Brain.Task
import Delve.Proofs.Combat
import Delve.Proofs.Except
import Delve.Proofs.Grid
import Delve.Proofs.World.Invariant
/-!
# What a turn of a task can come to

A task that does something does one of six deeds and pays for the turn. Every other turn leaves
the world and the dice alone: the task fails, or waits, or notes a cell, or finds itself where it
wanted to go. `Task.tick_comesTo` says so of every task at once, for worlds that nobody stands outside
of, and `Task.tick_outcome` that under fair rules the turn comes to its end. Nothing that follows
from them has to look into a task again.
-/

namespace Delve

/-! ## 1. Deeds and outcomes -/

/-- What the actor in focus does in a turn, before it pays for the turn. -/
inductive Deed (s : Scene) : Scene → Prop where
  | wait : Deed s s
  | step {a : Actor} {goal : Position} {dice : Dice} (actor : s.actor? = some a)
      (near : a.position.isNeighbor goal = true) (free : s.world.canEnter goal = true)
      (rolls : dice = s.dice ∨ dice = s.dice.rolled) :
      Deed s { s with world := s.world.relocate s.focus a goal, dice }
  | blow {a defender : Actor} {chance : UInt32} (actor : s.actor? = some a)
      (target : s.target? = some defender)
      (near : a.position.isNeighbor defender.position = true) :
      Deed s (strike s a defender chance).2
  | drink {a : Actor} {slot : Nat} {potion : Item} {inventory : Inventory} {dice : Dice}
      (actor : s.actor? = some a) (taken : a.inventory.takeOne? slot = some (potion, inventory))
      (rolls : dice = s.dice ∨ dice = s.dice.rolled) :
      Deed s ({ s with dice }.modifyActor fun a ↦ { a with inventory }.quaff potion)
  | pick {a richer : Actor} {place : Nat} {item : Item} {world : World}
      (actor : s.actor? = some a)
      (taken : s.world.takeItem? a.position place = some (item, world))
      (received : a.receive? item = some richer) :
      Deed s ({ s with world }.modifyActor fun _ ↦ richer)
  | dig {cell : Position} {dice : Dice} (rock : s.world.isMineable cell = true)
      (rolls : dice = s.dice ∨ dice = s.dice.rolled) :
      Deed s ({ s with
        world := { s.world with features := s.world.features.insert cell .rubble }
        dice }.rememberPosition .lastMined cell)

/-- Whether a task has nothing to do but to note a cell or to arrive at one. -/
def Task.IsFree (t : Task) (s : Scene) : Prop :=
  match t with
  | .remember => True
  | .goTo topic =>
    ∃ own, s.position? = some own ∧ s.memory.position? s.focus topic = some own
  | _ => False

/-- What a turn of a task can come to. -/
inductive Task.Outcome (t : Task) (s : Scene) : Status → Scene → Prop where
  | refused : Task.Outcome t s .failure s
  | givenUp {topic : Topic} (task : t = .goTo topic) : Task.Outcome t s .failure (s.forget topic)
  | waiting (task : t = .idle) (early : s.isReady = false) : Task.Outcome t s .running s
  | noted {target : Position} (task : t = .remember) (seen : s.targetPosition? = some target) :
      Task.Outcome t s .success (s.rememberPosition .lastTarget target)
  | arrived {topic : Topic} (task : t = .goTo topic) (free : t.IsFree s) :
      Task.Outcome t s .success (s.forget topic)
  | done {acted : Scene} (busy : ¬ t.IsFree s) (deed : Deed s acted) :
      Task.Outcome t s .success acted.finishTurn

variable {t : Task} {s : Scene} {a : Actor}

/-! ## 2. Choices and steps -/

theorem Scene.position_of_actor (ha : s.actor? = some a) : s.position? = some a.position := by
  rw [Scene.position?, ha, Option.map_some]

theorem Scene.position_of_absent (ha : s.actor? = none) : s.position? = none := by
  rw [Scene.position?, ha, Option.map_none]

/-- Only from an empty list is nothing drawn, and then no die is rolled. -/
theorem Scene.choose_cases {α : Type} (s : Scene) (xs : List α) :
    s.choose xs = (none, s) ∨
      ∃ x ∈ xs, s.choose xs = (some x, { s with dice := s.dice.rolled }) := by
  unfold Scene.choose
  cases xs with
  | nil => exact Or.inl rfl
  | cons x xs =>
    obtain ⟨y, hy, heq⟩ := s.dice.choose_cons s.focus.number x xs
    rw [heq]
    exact Or.inr ⟨y, hy, rfl⟩

theorem Scene.stepTo_eq_ok {goal : Position} {s' : Scene} (h : s.stepTo goal = .ok s') :
    ∃ a, s.actor? = some a ∧ a.position.isNeighbor goal = true ∧
      s.world.canEnter goal = true ∧
      s' = { s with world := s.world.relocate s.focus a goal } := by
  unfold Scene.stepTo at h
  cases hmove : s.world.moveActor s.focus goal with
  | error e =>
    rw [hmove] at h
    cases h
  | ok w =>
    rw [hmove] at h
    cases h
    obtain ⟨a, ha, hnear, hfree, rfl⟩ := World.moveActor_eq_ok hmove
    exact ⟨a, ha, hnear, hfree, rfl⟩

/-- A step onto a free neighbouring cell goes through. -/
theorem Scene.walk_of_canEnter {goal : Position} (ha : s.actor? = some a)
    (hnear : a.position.isNeighbor goal = true) (hfree : s.world.canEnter goal = true) :
    s.walk goal =
      (.success, { s with world := s.world.relocate s.focus a goal }.finishTurn) := by
  have hmove : s.world.moveActor s.focus goal = .ok (s.world.relocate s.focus a goal) :=
    World.moveActor_of_canEnter ha hnear hfree
  rw [Scene.walk, Scene.stepTo, hmove]
  rfl

/-- The cells that the rules of moving offer are cells that the rules of stepping accept. -/
theorem isNeighbor_of_mem_walkableNeighbors (hworld : s.world.Inside)
    (ha : s.actor? = some a) {goal : Position}
    (hgoal : goal ∈ s.world.walkableNeighbors a.position) :
    a.position.isNeighbor goal = true ∧ s.world.canEnter goal = true := by
  have hinner := Extent.isInner_of_contains (hworld s.focus a ha)
  obtain ⟨hmem, hfree⟩ := List.mem_filter.mp hgoal
  exact ⟨Position.isNeighbor_of_mem_neighbors hinner hmem, hfree⟩

/-! ## 3. The tasks -/

theorem idle_outcome (s : Scene) : Task.Outcome .idle s (idle s).1 (idle s).2 := by
  unfold idle
  split
  · exact .done not_false .wait
  · rename_i h
    exact .waiting rfl (Bool.eq_false_iff.mpr h)

/-- A step onto a cell that was offered is a deed, and none of the reasons to refuse it applies. -/
theorem walk_outcome (hworld : s.world.Inside) (ha : s.actor? = some a) (hbusy : ¬ t.IsFree s)
    {goal : Position} (hgoal : goal ∈ s.world.walkableNeighbors a.position) {dice : Dice}
    (hdice : dice = s.dice ∨ dice = s.dice.rolled) :
    Task.Outcome t s ({ s with dice }.walk goal).1 ({ s with dice }.walk goal).2 := by
  obtain ⟨hnear, hfree⟩ := isNeighbor_of_mem_walkableNeighbors hworld ha hgoal
  rw [Scene.walk_of_canEnter (s := { s with dice }) ha hnear hfree]
  exact .done hbusy (.step ha hnear hfree hdice)

theorem wander_eq (ha : s.actor? = some a) :
    wander s = (s.choose (s.world.walkableNeighbors a.position)).2.walkTo
      (s.choose (s.world.walkableNeighbors a.position)).1 := by
  rw [wander, Scene.position_of_actor ha]

theorem wander_outcome (hworld : s.world.Inside) :
    Task.Outcome .wander s (wander s).1 (wander s).2 := by
  cases ha : s.actor? with
  | none =>
    rw [wander, Scene.position_of_absent ha]
    exact .refused
  | some a =>
    rw [wander_eq ha]
    rcases s.choose_cases (s.world.walkableNeighbors a.position) with
      hnone | ⟨goal, hgoal, hsome⟩
    · rw [hnone]
      exact .refused
    · rw [hsome]
      exact walk_outcome hworld ha id hgoal (Or.inr rfl)

theorem mem_of_farthest {threat : Position} {distance : UInt32} {cells : List Position}
    {goal : Position} (h : farthest? threat distance cells = some goal) : goal ∈ cells := by
  unfold farthest? at h
  revert h
  -- the best cell so far has always been one of the list
  refine List.foldlRecOn
    (motive := fun (best : UInt32 × Option Position) ↦ best.2 = some goal → goal ∈ cells)
    cells _ ?_ ?_
  · intro h
    cases h
  · intro best ih cell hcell h
    dsimp only at h
    split at h
    · cases h
      exact hcell
    · exact ih h

theorem retreat_eq {threat : Position} (ha : s.actor? = some a)
    (hthreat : s.targetPosition? = some threat) :
    retreat s = s.walkTo (farthest? threat (a.position.blockDistance threat)
      (s.world.walkableNeighbors a.position)) := by
  rw [retreat, Scene.position_of_actor ha, hthreat]

theorem retreat_outcome (hworld : s.world.Inside) :
    Task.Outcome .retreat s (retreat s).1 (retreat s).2 := by
  cases ha : s.actor? with
  | none =>
    rw [retreat, Scene.position_of_absent ha]
    exact .refused
  | some a =>
    cases hthreat : s.targetPosition? with
    | none =>
      rw [retreat, Scene.position_of_actor ha, hthreat]
      exact .refused
    | some threat =>
      rw [retreat_eq ha hthreat]
      cases hgoal : farthest? threat (a.position.blockDistance threat)
          (s.world.walkableNeighbors a.position) with
      | none => exact .refused -- every free cell is at least as near to the threat
      | some goal => exact walk_outcome hworld ha id (mem_of_farthest hgoal) (Or.inl rfl)

theorem follow_outcome {c : Chase} {state : Chase} (target : Position) :
    Task.Outcome (.chase state) s (c.follow s target).1 (c.follow s target).2.2 := by
  unfold Chase.follow
  split
  · split
    · exact .refused
    · split
      · rename_i hstep
        obtain ⟨a, ha, hnear, hfree, rfl⟩ := Scene.stepTo_eq_ok hstep
        exact .done not_false (.step ha hnear hfree (Or.inl rfl))
      · exact .refused
  · exact .refused

theorem chase_outcome (c : Chase) (s : Scene) :
    Task.Outcome (.chase c) s (c.tick s).1 (c.tick s).2.2 := by
  unfold Chase.tick
  split
  · exact .refused
  · exact .refused
  · exact follow_outcome _

theorem attack_comesTo (last : Option Blow) (s : Scene) :
    ((Task.attack last).tick s).ComesTo
      (fun r ↦ Task.Outcome (.attack last) s r.status r.context) fun _ ↦ s.rules.Crossed := by
  unfold Task.tick Delve.attack
  dsimp only
  cases ha : s.actor? with
  | none => exact .refused
  | some a =>
    cases htarget : s.target? with
    | none => exact .refused
    | some defender =>
      dsimp only
      by_cases hnear : a.position.isNeighbor defender.position = true
      · rw [if_pos hnear]
        have hchance := hitChance_comesTo a.stats.skill defender.stats.skill s.rules
        cases heq : Combat.hitChance a.stats.skill defender.stats.skill s.rules with
        | error e =>
          rw [heq] at hchance
          exact hchance
        | ok chance => exact .done not_false (.blow ha htarget hnear)
      · rw [if_neg hnear]
        exact .refused

theorem remember_outcome (s : Scene) : Task.Outcome .remember s (remember s).1 (remember s).2 := by
  unfold remember
  split
  · exact .refused
  · rename_i target htarget
    exact .noted rfl htarget

theorem goTo_outcome (topic : Topic) (s : Scene) :
    Task.Outcome (.goTo topic) s (goToRemembered topic s).1 (goToRemembered topic s).2 := by
  unfold goToRemembered
  split
  · rename_i goal own hgoal hown
    split
    · rename_i heq
      subst heq
      exact .arrived rfl ⟨own, hown, hgoal⟩
    · rename_i hne
      -- the actor is not there yet, so the task has a step to take
      have hbusy : ¬ (Task.goTo topic).IsFree s := by
        rintro ⟨p, hp, hremembered⟩
        rw [hown] at hp
        rw [hgoal] at hremembered
        apply hne
        rw [Option.some.inj hp, Option.some.inj hremembered]
      split
      · exact .givenUp rfl
      · split
        · rename_i hstep
          obtain ⟨a, ha, hnear, hfree, rfl⟩ := Scene.stepTo_eq_ok hstep
          exact .done hbusy (.step ha hnear hfree (Or.inl rfl))
        · exact .givenUp rfl
  · exact .refused

theorem exists_takeOne {inv : Inventory} {slot : Nat} {item : Item}
    (h : inv.items[slot]? = some item) : ∃ taken, inv.takeOne? slot = some taken := by
  unfold Inventory.takeOne?
  rw [h, Option.map_some]
  exact ⟨_, rfl⟩

/-- The slot that a thirst picks holds a potion, and a die is rolled only with a slot to show for
it. -/
theorem pick_cases (thirst : Thirst) (inv : Inventory) (s : Scene) :
    thirst.pick inv s = (none, s) ∨
      ∃ slot potion dice, inv.items[slot]? = some potion ∧ potion.kind.isPotion = true ∧
        (dice = s.dice ∨ dice = s.dice.rolled) ∧
        thirst.pick inv s = (some slot, { s with dice }) := by
  have hfind : ∀ kind : ItemKind, kind.isPotion = true →
      (inv.findIdentified? kind, s) = (none, s) ∨
        ∃ slot potion dice, inv.items[slot]? = some potion ∧ potion.kind.isPotion = true ∧
          (dice = s.dice ∨ dice = s.dice.rolled) ∧
          (inv.findIdentified? kind, s) = (some slot, { s with dice }) := by
    intro kind hkind
    cases hslot : inv.findIdentified? kind with
    | none => exact Or.inl rfl
    | some slot =>
      obtain ⟨hlt, hfound, -⟩ := List.findIdx?_eq_some_iff_getElem.mp hslot
      rw [Bool.and_eq_true, beq_iff_eq] at hfound
      exact Or.inr ⟨slot, _, s.dice, List.getElem?_eq_getElem hlt, by rw [hfound.1, hkind],
        Or.inl rfl, rfl⟩
  cases thirst with
  | hp => exact hfind .healingPotion rfl
  | mp => exact hfind .manaPotion rfl
  | any =>
    unfold Thirst.pick
    rcases s.choose_cases inv.potionSlots with hnone | ⟨slot, hslot, hsome⟩
    · exact Or.inl hnone
    · obtain ⟨potion, hpotion, hkind⟩ := (Option.any_eq_true _ _).mp (List.mem_filter.mp hslot).2
      exact Or.inr ⟨slot, potion, s.dice.rolled, hpotion, hkind, Or.inr rfl, hsome⟩

theorem drink_outcome (thirst : Thirst) (s : Scene) :
    Task.Outcome (.drink thirst) s (drink thirst s).1 (drink thirst s).2 := by
  unfold drink
  split
  · exact .refused
  · rename_i a ha
    rcases pick_cases thirst a.inventory s with hnone | ⟨slot, _, dice, hitem, -, hdice, hsome⟩
    · rw [hnone]
      exact .refused
    · obtain ⟨⟨potion, inventory⟩, htaken⟩ := exists_takeOne hitem
      rw [hsome]
      dsimp only
      rw [htaken]
      exact .done not_false (.drink ha htaken hdice)

/-- An actor with a free slot can receive everything. -/
theorem exists_receive (hfull : a.inventory.isFull = false) (item : Item) :
    ∃ richer, a.receive? item = some richer := by
  unfold Actor.receive?
  split
  · exact ⟨_, rfl⟩
  · rw [Inventory.add?, hfull, if_neg Bool.false_ne_true, Option.map_some]
    exact ⟨_, rfl⟩

theorem pickUp_outcome (kinds : List ItemKind) (s : Scene) :
    Task.Outcome (.pickUp kinds) s (pickUp kinds s).1 (pickUp kinds s).2 := by
  unfold pickUp
  split
  · exact .refused
  · rename_i a ha
    split
    · exact .refused
    · rename_i hfull
      dsimp only
      split
      · exact .refused
      · rename_i item world htaken
        obtain ⟨place, -, htaken⟩ := Option.bind_eq_some_iff.mp htaken
        -- the item has been taken, and the free slot that was asked for is still there
        obtain ⟨richer, hricher⟩ := exists_receive (Bool.eq_false_iff.mpr hfull) item
        rw [hricher]
        exact .done not_false (.pick ha htaken hricher)

theorem dig_of_isMineable {cell : Position} (hrock : s.world.isMineable cell = true) :
    dig cell s = (.success, ({ s with
      world := { s.world with features := s.world.features.insert cell .rubble }
      }.rememberPosition .lastMined cell).finishTurn) := by
  rw [dig, World.mine_of_isMineable hrock]

theorem mineBlock_outcome (s : Scene) :
    Task.Outcome .mineBlock s (mineBlock s).1 (mineBlock s).2 := by
  unfold mineBlock
  split
  · exact .refused
  · rename_i own _
    rcases s.choose_cases (own.orthogonalNeighbors.filter s.world.isMineable) with
      hnone | ⟨cell, hcell, hsome⟩
    · rw [hnone]
      exact .refused
    · have hrock := (List.mem_filter.mp hcell).2
      rw [hsome]
      dsimp only
      rw [dig_of_isMineable (s := { s with dice := s.dice.rolled }) hrock]
      exact .done not_false (.dig hrock (Or.inr rfl))

theorem mineTunnel_outcome (s : Scene) :
    Task.Outcome .mineTunnel s (mineTunnel s).1 (mineTunnel s).2 := by
  unfold mineTunnel
  split
  · exact .refused
  · split
    · exact .refused
    · split
      · exact .refused
      · dsimp only
        split
        · rename_i hrock
          rw [dig_of_isMineable hrock]
          exact .done not_false (.dig hrock (Or.inl rfl))
        · exact .refused

/-! ## 4. Every task -/

/-- A tick of any task comes to one of the outcomes, unless it stops because the chances to hit are
crossed. -/
theorem Task.tick_comesTo (t : Task) (hworld : s.world.Inside) :
    (t.tick s).ComesTo (fun r ↦ Task.Outcome t s r.status r.context) fun _ ↦ s.rules.Crossed := by
  cases t with
  | idle => exact idle_outcome s
  | wander => exact wander_outcome hworld
  | retreat => exact retreat_outcome hworld
  | chase c => exact chase_outcome c s
  | attack last => exact attack_comesTo last s
  | remember => exact remember_outcome s
  | goTo topic => exact goTo_outcome topic s
  | drink thirst => exact drink_outcome thirst s
  | pickUp kinds => exact pickUp_outcome kinds s
  | mineBlock => exact mineBlock_outcome s
  | mineTunnel => exact mineTunnel_outcome s

/-- Under fair rules, no calculation in a tick is left without an answer. -/
theorem Task.tick_outcome (t : Task) (hworld : s.world.Seated) (hfair : s.rules.Fair) :
    ∃ r, t.tick s = .ok r ∧ Task.Outcome t s r.status r.context :=
  ((t.tick_comesTo hworld.inBounds).mono (fun _ ↦ id) fun _ ↦ hfair.not_crossed).exists_ok

end Delve

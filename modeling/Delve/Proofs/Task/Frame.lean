import Delve.Proofs.Task.Outcome
import Delve.Proofs.World.Durable
import Delve.Proofs.World.Frame
/-!
# What a turn of a task can touch

The brains of all actors share one scene. Every deed of an actor, every turn of a task and every
question to the senses is an act: it leaves alone what is none of the actor's business, and of the
piles it can reach only the one under the actor's feet.
-/

namespace Delve

/-! ## 1. Acts -/

namespace Scene

/-- A scene later on, after doings of one actor. -/
structure TouchedBy (id : ActorId) (s s' : Scene) : Prop where
  world : s.world.TouchedBy id s'.world
  memory : ∀ i, i ≠ id → s'.memory.slots[i]? = s.memory.slots[i]?
  rules_eq : s'.rules = s.rules
  seed_eq : s'.dice.seed = s.dice.seed

theorem TouchedBy.refl (id : ActorId) (s : Scene) : s.TouchedBy id s :=
  ⟨.refl id s.world, fun _ _ ↦ rfl, rfl, rfl⟩

theorem TouchedBy.trans {id : ActorId} {s s' s'' : Scene} (h : s.TouchedBy id s')
    (h' : s'.TouchedBy id s'') : s.TouchedBy id s'' where
  world := h.world.trans h'.world
  memory i hi := (h'.memory i hi).trans (h.memory i hi)
  rules_eq := h'.rules_eq.trans h.rules_eq
  seed_eq := h'.seed_eq.trans h.seed_eq

/-- Whose brain is at work is no matter. -/
theorem touchedBy_focusOn (id i : ActorId) (s : Scene) : s.TouchedBy id (s.focusOn i) :=
  ⟨.refl id s.world, fun _ _ ↦ rfl, rfl, rfl⟩

/-- What a single leaf may make of a scene. Of the piles it can reach only the one under the
actor's feet. -/
structure Act (s s' : Scene) : Prop where
  focus_eq : s'.focus = s.focus
  touched : s.TouchedBy s.focus s'
  piles : ∀ p, s.position? ≠ some p → s'.world.piles[p]? = s.world.piles[p]?

variable {s s' : Scene}

theorem Act.refl (s : Scene) : s.Act s := ⟨rfl, .refl s.focus s, fun _ _ ↦ rfl⟩

theorem act_of_world_eq (hfocus : s'.focus = s.focus) (hworld : s'.world = s.world)
    (hmemory : ∀ i, i ≠ s.focus → s'.memory.slots[i]? = s.memory.slots[i]?)
    (hrules : s'.rules = s.rules) (hseed : s'.dice.seed = s.dice.seed) : s.Act s' where
  focus_eq := hfocus
  touched := ⟨hworld ▸ .refl s.focus s.world, hmemory, hrules, hseed⟩
  piles p _ := by rw [hworld]

theorem act_rememberPosition (s : Scene) (topic : Topic) (p : Position) :
    s.Act (s.rememberPosition topic p) :=
  act_of_world_eq rfl rfl (fun _ hi ↦ getElem?_insert_of_ne _ (Ne.symm hi) _) rfl rfl

theorem act_forget (s : Scene) (topic : Topic) : s.Act (s.forget topic) := by
  refine act_of_world_eq rfl rfl (fun i hi ↦ ?_) rfl rfl
  show (if _ then s.memory.slots.erase s.focus else s.memory.slots.insert s.focus _)[i]? = _
  split
  · exact getElem?_erase_of_ne _ (Ne.symm hi)
  · exact getElem?_insert_of_ne _ (Ne.symm hi) _

theorem piles_modifyActor (w : World) (id : ActorId) (change : Actor → Actor) :
    (w.modifyActor id change).piles = w.piles := by
  unfold World.modifyActor
  split <;> rfl

theorem Act.finishTurn (h : s.Act s') : s.Act s'.finishTurn where
  focus_eq := h.focus_eq
  touched := by
    have hpaid : s'.world.TouchedBy s'.focus s'.finishTurn.world :=
      World.touchedBy_modifyActor fun a _ ↦ a.remains_finishTurn _
    rw [h.focus_eq] at hpaid
    exact h.touched.trans ⟨hpaid, fun _ _ ↦ rfl, rfl, rfl⟩
  piles p hp := by
    rw [← h.piles p hp, Scene.finishTurn, modifyActor, piles_modifyActor]

end Scene

variable {s s' acted : Scene}

theorem seed_of_rolls {dice : Dice} (h : dice = s.dice ∨ dice = s.dice.rolled) :
    dice.seed = s.dice.seed := by
  rcases h with rfl | rfl <;> rfl

theorem player_of_target {defender : Actor} (hplayer : s.world.KnowsPlayer)
    (h : s.target? = some defender) :
    s.world.playerId = some defender.id ∧ defender.id ≠ s.focus := by
  obtain ⟨hfound, hprey⟩ := Option.filter_eq_some_iff.mp h
  rw [Bool.and_eq_true, bne_iff_ne] at hprey
  exact ⟨hplayer defender hfound, hprey.2⟩

theorem position_quaff (a : Actor) (potion : Item) : (a.quaff potion).position = a.position := by
  unfold Actor.quaff
  split <;> rfl

theorem position_of_receive {a richer : Actor} {item : Item} (h : a.receive? item = some richer) :
    richer.position = a.position := by
  unfold Actor.receive? at h
  split at h
  · cases h
    rfl
  · obtain ⟨inventory, -, rfl⟩ := Option.map_eq_some_iff.mp h
    rfl

section Deeds

variable {a : Actor} {dice : Dice} (ha : s.actor? = some a)
  (rolls : dice = s.dice ∨ dice = s.dice.rolled)

include ha rolls in
theorem act_step (goal : Position) :
    s.Act { s with world := s.world.relocate s.focus a goal, dice } where
  focus_eq := rfl
  touched := by
    have hmoved : a.Remains { a with position := goal } := .of_same rfl rfl rfl rfl rfl rfl rfl
    exact ⟨World.touchedBy_insert ha hmoved _, fun _ _ ↦ rfl, rfl, seed_of_rolls rolls⟩
  piles _ _ := rfl

theorem strike_context (s : Scene) (attacker defender : Actor) (chance : UInt32) :
    ∃ damage, (strike s attacker defender chance).2 = { s with
      world := s.world.modifyActor defender.id fun b ↦ (b.receiveDamage damage).2
      dice := s.dice.rolled } := by
  unfold strike Scene.d100 Dice.d100
  exact ⟨_, rfl⟩

theorem act_strike {attacker defender : Actor} (hplayer : s.world.KnowsPlayer)
    (target : s.target? = some defender) (chance : UInt32) :
    s.Act (strike s attacker defender chance).2 := by
  obtain ⟨hstruck, hother⟩ := player_of_target hplayer target
  obtain ⟨damage, heq⟩ := strike_context s attacker defender chance
  rw [heq]
  refine ⟨rfl, ⟨?_, fun _ _ ↦ rfl, rfl, rfl⟩, ?_⟩
  · exact World.touchedBy_wound hother hstruck fun b ↦ b.wounded_receiveDamage damage
  · intro p _
    rw [Scene.piles_modifyActor]

include ha rolls in
theorem act_drink {slot : Nat} {potion : Item} {inventory : Inventory}
    (taken : a.inventory.takeOne? slot = some (potion, inventory)) :
    s.Act ({ s with dice }.modifyActor fun b ↦ { b with inventory }.quaff potion) where
  focus_eq := rfl
  touched := by
    refine ⟨World.touchedBy_modifyActor fun b hb ↦ ?_, fun _ _ ↦ rfl, rfl, seed_of_rolls rolls⟩
    have hb : s.actor? = some b := hb
    rw [ha] at hb
    cases hb
    have hlighter : a.Remains { a with inventory } :=
      .of_same rfl rfl rfl rfl rfl rfl (Actor.capacity_of_takeOne taken)
    exact hlighter.trans (Actor.remains_quaff _ potion)
  piles p _ := by rw [Scene.modifyActor, Scene.piles_modifyActor]

include ha in
theorem act_pick {richer : Actor} {place : Nat} {item : Item} {world : World}
    (taken : s.world.takeItem? a.position place = some (item, world))
    (received : a.receive? item = some richer) :
    s.Act ({ s with world }.modifyActor fun _ ↦ richer) := by
  obtain ⟨-, rfl⟩ := World.takeItem_eq_some taken
  -- the actor is replaced, but by what it has become with the item
  have hsame : ∀ b, s.world.actor? s.focus = some b → b = a := by
    intro b hb
    have hb : s.actor? = some b := hb
    rw [ha] at hb
    exact (Option.some.inj hb).symm
  refine ⟨rfl, ⟨?_, fun _ _ ↦ rfl, rfl, rfl⟩, ?_⟩
  · refine (World.touchedBy_of_actors_eq s.focus s.world.occupants _).trans
      (World.touchedBy_modifyActor fun b hb ↦ ?_)
    rw [hsame b hb]
    exact Actor.remains_of_receive received
  · intro p hp
    have hne : a.position ≠ p := by
      intro heq
      apply hp
      rw [Scene.position_of_actor ha, heq]
    rw [Scene.modifyActor, Scene.piles_modifyActor]
    show (if _ then s.world.piles.erase a.position else s.world.piles.insert a.position _)[p]? = _
    split
    · exact getElem?_erase_of_ne _ hne
    · exact getElem?_insert_of_ne _ hne _

include rolls in
theorem act_dig {cell : Position} (rock : s.world.isMineable cell = true) :
    s.Act ({ s with
      world := { s.world with features := s.world.features.insert cell .rubble }
      dice }.rememberPosition .lastMined cell) where
  focus_eq := rfl
  touched := ⟨World.touchedBy_dig s.focus rock,
    fun _ hi ↦ getElem?_insert_of_ne _ (Ne.symm hi) _, rfl, seed_of_rolls rolls⟩
  piles _ _ := rfl

end Deeds

theorem Deed.act (hplayer : s.world.KnowsPlayer) (h : Deed s acted) : s.Act acted := by
  cases h with
  | wait => exact .refl s
  | step actor _ _ rolls => exact act_step actor rolls _
  | blow _ target _ => exact act_strike hplayer target _
  | drink actor taken rolls => exact act_drink actor rolls taken
  | pick actor taken received => exact act_pick actor taken received
  | dig rock rolls => exact act_dig rolls rock

/-- A turn of a task is an act of the actor in focus. -/
theorem Task.Outcome.act {t : Task} {status : Status} (hplayer : s.world.KnowsPlayer)
    (h : Task.Outcome t s status s') : s.Act s' := by
  cases h with
  | refused => exact .refl s
  | givenUp _ => exact s.act_forget _
  | waiting _ _ => exact .refl s
  | noted _ _ => exact s.act_rememberPosition _ _
  | arrived _ _ => exact s.act_forget _
  | done _ deed => exact (deed.act hplayer).finishTurn

/-- Of the senses, only the one that rolls a die leaves a trace. -/
theorem Sense.act_test (sense : Sense) (s : Scene) : s.Act (sense.test s).context := by
  cases sense with
  | chance percent => exact Scene.act_of_world_eq rfl rfl (fun _ _ ↦ rfl) rfl rfl
  | playerInRange range => exact .refl s
  | playerVisible => exact .refl s
  | hpLow percent => exact .refl s
  | remembers topic => exact .refl s

/-! ## 2. The tables after an act -/

theorem Scene.seated_finishTurn (h : s.world.Seated) : s.finishTurn.world.Seated :=
  h.modifyActor fun _ _ ↦ rfl

/-- Whatever an actor does, what is durable lasts. -/
theorem Deed.durable {P : World → Prop} (hP : World.Durable P) (h : Deed s acted)
    (hworld : P s.world) : P acted.world := by
  cases h with
  | wait => exact hworld
  | step actor _ free _ => exact hP.relocate hworld actor free
  | @blow attacker defender chance =>
    obtain ⟨damage, heq⟩ := strike_context s attacker defender chance
    rw [heq]
    exact hP.modifyActor hworld fun _ _ ↦ rfl
  | drink => exact hP.modifyActor hworld fun _ _ ↦ position_quaff _ _
  | @pick a richer place item world actor taken received =>
    obtain ⟨-, rfl⟩ := World.takeItem_eq_some taken
    have hground : P (s.world.withPile a.position ((s.world.itemsAt a.position).eraseIdx place)) :=
      hP.ground s.world.features _ hworld
    refine hP.modifyActor hground fun b hb ↦ ?_
    have hb : s.actor? = some b := hb
    rw [actor] at hb
    cases hb
    exact position_of_receive received
  | dig => exact hP.ground _ s.world.piles hworld

theorem Task.Outcome.durable {P : World → Prop} (hP : World.Durable P) {t : Task} {status : Status}
    (h : Task.Outcome t s status s') (hworld : P s.world) : P s'.world := by
  cases h with
  | done _ deed => exact hP.modifyActor (deed.durable hP hworld) fun _ _ ↦ rfl
  | refused | givenUp _ | waiting _ _ | noted _ _ | arrived _ _ => exact hworld

theorem Task.Outcome.seated {t : Task} {status : Status} (h : Task.Outcome t s status s')
    (hworld : s.world.Seated) : s'.world.Seated :=
  h.durable World.seated_durable hworld

theorem Sense.world_test (sense : Sense) (s : Scene) : (sense.test s).context.world = s.world := by
  cases sense <;> rfl

end Delve

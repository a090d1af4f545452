import Delve.Proofs.Game.Lasting
/-!
# What actors leave behind

Nothing: brains and memories belong to actors in the world, from the start of a game on and whatever
happens in it, for an actor that goes takes its belongings along. So memories do not pile up.
-/

namespace Delve.Game

variable {g g' : Game} {id : ActorId} {a : Actor} {s' : Scene}

/-! ## 1. Brains and memories -/

/-- Every brain and every memory belongs to an actor in the world. -/
structure Tidy (g : Game) : Prop where
  brain_mem : ∀ id ∈ g.brains, id ∈ g.scene.world.actors
  memory_mem : ∀ id ∈ g.scene.memory.slots, id ∈ g.scene.world.actors

theorem mem_slots_of_touched {s : Scene} (h : s.TouchedBy id s') {i : ActorId} (hi : i ≠ id)
    (hmem : i ∈ s'.memory.slots) : i ∈ s.memory.slots := by
  rw [Std.ExtTreeMap.mem_iff_isSome_getElem?, h.memory i hi] at hmem
  rwa [Std.ExtTreeMap.mem_iff_isSome_getElem?]

/-- An actor remembers in its own name only, and whoever is given a brain is there. -/
theorem tidy_lasting : Lasting Tidy where
  attach b hg hid := by
    refine ⟨fun i hi ↦ ?_, hg.memory_mem⟩
    rcases (mem_insert_iff _ _ _ _).mp hi with rfl | hi
    · exact hid
    · exact hg.brain_mem i hi
  detach id hg := ⟨fun i hi ↦ hg.brain_mem i ((mem_erase_iff _ id _).mp hi).2, hg.memory_mem⟩
  focusOn _ hg := ⟨hg.brain_mem, hg.memory_mem⟩
  opened hg := ⟨fun i hi ↦ mem_actors_opened.mpr (hg.brain_mem i hi),
    fun i hi ↦ mem_actors_opened.mpr (hg.memory_mem i hi)⟩
  turns {g id s'} b hg hlives hled := by
    have hid := mem_actors_of_lives hlives
    -- nobody comes or goes, and only the actor itself may have something that it had not before
    refine ⟨fun i hi ↦ ?_, fun i hi ↦ ?_⟩
    · refine (hled.touched.world.mem_iff i).mpr ?_
      rcases (mem_insert_iff _ _ _ _).mp hi with rfl | hi
      · exact hid
      · exact hg.brain_mem i hi
    · refine (hled.touched.world.mem_iff i).mpr ?_
      by_cases hown : i = id
      · exact hown ▸ hid
      · exact hg.memory_mem i (mem_slots_of_touched hled.touched hown hi)
  removeActor id hg := by
    refine ⟨fun i hi ↦ ?_, fun i hi ↦ ?_⟩
    · obtain ⟨hne, hi⟩ := (mem_erase_iff _ id i).mp hi
      exact mem_actors_removeActor.mpr ⟨hne.symm, hg.brain_mem i hi⟩
    · obtain ⟨hne, hi⟩ := (mem_erase_iff _ id i).mp hi
      exact mem_actors_removeActor.mpr ⟨hne.symm, hg.memory_mem i hi⟩

/-! ## 2. Whatever happens -/

/-- What can happen to a game: a command, or somebody who comes in. -/
inductive Event where
  | command (c : Command)
  | spawnActor (a : Actor)
  | spawnPlayer (a : Actor)

/-- The game after somebody has asked to come in. A refusal leaves it as it is. -/
def letIn (g : Game) : Except WorldError (ActorId × World) → Game
  | .error _ => g
  | .ok (_, world) => { g with scene := { g.scene with world } }

def undergo (g : Game) : Event → Except Fault Game
  | .command c => g.perform c
  | .spawnActor a => .ok (g.letIn (g.scene.world.spawnActor a))
  | .spawnPlayer a => .ok (g.letIn (g.scene.world.spawnPlayer a))

def undergoAll (g : Game) : List Event → Except Fault Game
  | [] => .ok g
  | e :: es => do
    let g ← g.undergo e
    g.undergoAll es

/-- Somebody more in the world is no harm, also in the place of somebody else. -/
theorem Tidy.letIn (hg : g.Tidy) {x : Except WorldError (ActorId × World)}
    (hmem : ∀ {id w}, x = .ok (id, w) → ∀ i ∈ g.scene.world.actors, i ∈ w.actors) :
    (g.letIn x).Tidy := by
  cases x with
  | error e => exact hg
  | ok entry =>
    exact ⟨fun i hi ↦ hmem rfl i (hg.brain_mem i hi), fun i hi ↦ hmem rfl i (hg.memory_mem i hi)⟩

theorem InOrder.letIn (hg : g.InOrder) {x : Except WorldError (ActorId × World)}
    (hhoused : ∀ {id w}, x = .ok (id, w) → w.Housed)
    (hplayer : ∀ {id w}, x = .ok (id, w) → w.KnowsPlayer) : (g.letIn x).InOrder := by
  cases x with
  | error e => exact hg
  | ok entry => exact ⟨hhoused rfl, hplayer rfl, hg.fair⟩

theorem Tidy.undergo (horder : g.InOrder) (hg : g.Tidy) (e : Event) :
    (g.undergo e).ComesTo (fun g' ↦ g'.InOrder ∧ g'.Tidy) fun _ ↦ False := by
  cases e with
  | command c => exact tidy_lasting.perform horder hg c
  | spawnActor a =>
    refine ⟨horder.letIn (fun hspawn ↦ ?_) fun hspawn ↦ ?_, hg.letIn fun hspawn i hi ↦ ?_⟩
    all_goals obtain ⟨hcell, -, rfl⟩ := World.spawnActor_eq_ok hspawn
    · have hsettled := horder.housed.settle ⟨g.scene.world.nextId⟩ hcell
      exact ⟨hsettled.occupants_eq, hsettled.inside⟩
    · exact horder.knowsPlayer.settle
    · exact (mem_insert_iff _ _ _ _).mpr (Or.inr hi)
  | spawnPlayer a =>
    refine ⟨horder.letIn (fun hspawn ↦ ?_) fun hspawn ↦ ?_, hg.letIn fun hspawn i hi ↦ ?_⟩
    all_goals obtain ⟨hcell, -, -, rfl⟩ := World.spawnPlayer_eq_ok hspawn
    · have hsettled := horder.housed.settle .player hcell
      exact ⟨hsettled.occupants_eq, hsettled.inside⟩
    · exact World.knowsPlayer_settle_player g.scene.world a
    · exact (mem_insert_iff _ _ _ _).mpr (Or.inr hi)

/-- By induction on the events. -/
theorem Tidy.undergoAll (horder : g.InOrder) (hg : g.Tidy) (es : List Event) :
    (g.undergoAll es).ComesTo (fun g' ↦ g'.InOrder ∧ g'.Tidy) fun _ ↦ False := by
  induction es generalizing g with
  | nil => exact ⟨horder, hg⟩
  | cons e es ih => exact (hg.undergo horder e).bind fun _ hnext ↦ ih hnext.1 hnext.2

/-! ## 3. What is left -/

/-- The error of a calculation that stops at one. -/
def errorOf {α : Type} : Except BrainError α → Option BrainError
  | .error e => some e
  | .ok _ => none

/-- What a command is refused with, if it is. -/
def refusal? (g : Game) : Command → Option BrainError
  | .attach id temper => errorOf (g.attach id temper)
  | .attachNamed id name => errorOf (g.attachNamed id name)
  | .attachBrain id brain => errorOf (g.attachBrain id brain)
  | .update id => errorOf (g.update id)
  | .detach _ | .round | .removeActor _ => none

theorem perform_of_refusal {c : Command} {e : BrainError} (h : g.refusal? c = some e) :
    g.perform c = .ok g := by
  have herror : ∀ {α : Type} {x : Except BrainError α}, errorOf x = some e → x = .error e := by
    intro α x hx
    cases x with
    | error e' => exact congrArg _ (Option.some.inj hx)
    | ok _ => cases hx
  cases c with
  | attach id temper =>
    rw [Game.perform, herror h]
    rfl
  | attachNamed id name =>
    rw [Game.perform, herror h]
    rfl
  | attachBrain id brain =>
    rw [Game.perform, herror h]
    rfl
  | update id => rw [Game.perform, herror h]
  | detach id => cases h
  | round => cases h
  | removeActor id => cases h

/-- Neither brain nor memory nor body is left of the actor. -/
structure Gone (id : ActorId) (g : Game) : Prop where
  brain : g.brain? id = none
  memory : g.scene.memory.slots[id]? = none
  body : id ∉ g.scene.world.actors

/-- The game without one actor, which has left nothing behind. -/
structure Without (id : ActorId) (g g' : Game) : Prop extends Gone id g' where
  cell : ∀ a, g.scene.world.actor? id = some a → g'.scene.world.occupants[a.position]? = none
  other_brains : ∀ i, i ≠ id → g'.brain? i = g.brain? i
  other_memories : ∀ i, i ≠ id → g'.scene.memory.slots[i]? = g.scene.memory.slots[i]?
  other_actors : ∀ i, i ≠ id → g'.scene.world.actor? i = g.scene.world.actor? i

theorem without_removeActor (hworld : g.scene.world.Housed) (id : ActorId) :
    g.Without id (g.removeActor id).2 where
  brain := by
    show (g.brains.erase id)[id]? = none
    rw [getElem?_erase_eq_ite, if_pos rfl]
  memory := by
    show (g.scene.memory.slots.erase id)[id]? = none
    rw [getElem?_erase_eq_ite, if_pos rfl]
  body hid := (mem_actors_removeActor.mp hid).1 rfl
  cell a ha := by
    rw [removeActor_world, ha]
    show (g.scene.world.vacate id a).occupants[a.position]? = none
    rw [hworld.occupants_vacate ha, getElem?_erase_eq_ite, if_pos rfl]
  other_brains i hi := getElem?_erase_of_ne g.brains (Ne.symm hi)
  other_memories i hi := getElem?_erase_of_ne g.scene.memory.slots (Ne.symm hi)
  other_actors i hi := by rw [actor_removeActor, if_neg hi]

/-- From the start of a game on and whatever happens in it, also when the handles have run out and
are given again: every brain and every memory belongs to an actor in the world, so there are never
more memories than actors; what is refused has no effect; and an actor that is taken out of the game
leaves nothing behind, and leaves the others alone. -/
theorem start_leaves_nothing {w : World} {rules : Rules} {memory : Memory} (hworld : w.Seated)
    (hplayer : w.KnowsPlayer) (hfair : rules.Fair) (hmemory : ∀ id ∈ memory.slots, id ∈ w.actors)
    (es : List Event) :
    ∃ g₀ g, Game.start (some w) rules memory = .ok g₀ ∧ g₀.undergoAll es = .ok g ∧
      (∀ id ∈ g.brains, id ∈ g.scene.world.actors) ∧
      (∀ id ∈ g.scene.memory.slots, id ∈ g.scene.world.actors) ∧
      g.scene.memory.actorCount ≤ g.scene.world.actors.size ∧
      (∀ c e, g.refusal? c = some e → g.perform c = .ok g) ∧
      ∀ id, g.Without id (g.removeActor id).2 := by
  have hstart : (Game.ofScene { Scene.ofWorld w rules with memory }).Tidy :=
    ⟨fun _ h ↦ absurd h Std.ExtTreeMap.not_mem_empty, hmemory⟩
  obtain ⟨g, hg, horder, htidy⟩ :=
    (hstart.undergoAll ⟨hworld.housed, hplayer, hfair⟩ es).exists_ok
  exact ⟨_, g, rfl, hg, htidy.brain_mem, htidy.memory_mem, size_le_of_subset htidy.memory_mem,
    fun _ _ ↦ perform_of_refusal, without_removeActor horder.housed⟩

/-- A rat comes in, hunts the hero and is taken out again with its memory. The ogre that comes after
it gets another handle, so the brain that is meant for the rat is refused. -/
def visits : List Event :=
  [.spawnPlayer { name := "hero", position := ⟨0, 0⟩ },
    .spawnActor { name := "rat", position := ⟨1, 0⟩ },
    .command (.attach ⟨1⟩ .smart),
    .command .round,
    .command (.removeActor ⟨1⟩),
    .spawnActor { name := "ogre", position := ⟨1, 0⟩ },
    .command (.attach ⟨1⟩ .basic)]

theorem visits_leave_nothing :
    (World.ofExtent ⟨2, 1⟩).Seated ∧ (World.ofExtent ⟨2, 1⟩).KnowsPlayer ∧ ({} : Rules).Fair ∧
      ∃ g₀ g, Game.start (some (World.ofExtent ⟨2, 1⟩)) {} .empty = .ok g₀ ∧
        g₀.undergoAll visits = .ok g ∧ g.brainIds = [] ∧ g.scene.memory.actorCount = 0 ∧
        g.scene.world.actorIds = [.player, ⟨2⟩] ∧ g.Without ⟨2⟩ (g.removeActor ⟨2⟩).2 := by
  have hworld := World.ofExtent_consistent ⟨2, 1⟩
  have hfair : ({} : Rules).Fair := ⟨by decide, by decide⟩
  obtain ⟨g₀, g, hstart, hg, -, -, -, -, hremoval⟩ := start_leaves_nothing hworld.toSeated
    hworld.knowsPlayer hfair (fun _ h ↦ absurd h Std.ExtTreeMap.not_mem_empty) visits
  have hleft : (g₀.undergoAll visits).map (fun g ↦
      (g.brainIds, g.scene.memory.actorCount, g.scene.world.actorIds)) =
        .ok ([], 0, [.player, ⟨2⟩]) := by
    cases hstart
    decide +kernel
  rw [hg] at hleft
  have hleft := Except.ok.inj hleft
  exact ⟨hworld.toSeated, hworld.knowsPlayer, hfair, g₀, g, hstart, hg, congrArg (·.1) hleft,
    congrArg (·.2.1) hleft, congrArg (·.2.2) hleft, hremoval ⟨2⟩⟩

end Delve.Game

import Delve.Proofs.Task.Frame
import Delve.Proofs.Tree.Invariant
/-!
# What an actor can learn of others

Of everybody but itself and the player, an actor can learn who they are and where they stand, and
of their memories nothing. Two scenes that differ in the rest are alike for the actor: it gets the
same answer to every question in both, and whatever it does in both, they stay alike.
-/

namespace Delve

/-! ## 1. Worlds that are alike -/

/-- What others can learn of an actor: who it is and where it stands. -/
def Actor.outline (a : Actor) : ActorId × Position := (a.id, a.position)

namespace World

/-- Two worlds that differ at most in the private affairs of others than the actor `id` and the
player. -/
structure AlikeFor (id : ActorId) (w v : World) : Prop where
  rest_eq : v = { w with actors := v.actors }
  own_eq : v.actor? id = w.actor? id
  player_eq : ∀ i, w.playerId = some i → v.actor? i = w.actor? i
  outline_eq : ∀ i, (v.actor? i).map Actor.outline = (w.actor? i).map Actor.outline

variable {w v : World} {id i : ActorId} {a b : Actor}

/-- A question that is not about actors has one answer. -/
theorem AlikeFor.ask_eq (h : w.AlikeFor id v) {α : Type} (f : World → α)
    (hf : ∀ (w : World) (actors : ActorMap Actor), f { w with actors } = f w) : f v = f w := by
  rw [h.rest_eq, hf]

theorem AlikeFor.playerId_eq (h : w.AlikeFor id v) : v.playerId = w.playerId :=
  h.ask_eq (·.playerId) fun _ _ ↦ rfl

theorem AlikeFor.found_eq (h : w.AlikeFor id v) : v.player? = w.player? := by
  rw [player?, player?, h.playerId_eq]
  cases hplayer : w.playerId with
  | none => rfl
  | some i => exact h.player_eq i hplayer

/-- Private affairs of others are what may differ. -/
theorem alikeFor_modifyActor (hi : i ≠ id) (hplayer : w.playerId ≠ some i) {change : Actor → Actor}
    (hchange : ∀ a, (change a).outline = a.outline) : w.AlikeFor id (w.modifyActor i change) where
  rest_eq := by
    unfold modifyActor
    split <;> rfl
  own_eq := by rw [actor_modifyActor, if_neg hi]
  player_eq j hj := by
    rw [actor_modifyActor, if_neg]
    rintro rfl
    exact hplayer hj
  outline_eq j := by
    rw [actor_modifyActor]
    split
    · rw [Option.map_map]
      congr 1
      funext a
      exact hchange a
    · rfl

/-- The worlds stay alike if the same becomes of an actor in both. -/
theorem AlikeFor.insert (h : w.AlikeFor id v) (i : ActorId) (b : Actor) :
    { w with actors := w.actors.insert i b }.AlikeFor id
      { v with actors := v.actors.insert i b } where
  rest_eq := by
    have hrest := h.rest_eq
    rw [hrest]
  own_eq := by
    show (v.actors.insert i b)[id]? = (w.actors.insert i b)[id]?
    rw [getElem?_insert_eq_ite, getElem?_insert_eq_ite]
    split
    · rfl
    · exact h.own_eq
  player_eq j hj := by
    show (v.actors.insert i b)[j]? = (w.actors.insert i b)[j]?
    rw [getElem?_insert_eq_ite, getElem?_insert_eq_ite]
    split
    · rfl
    · exact h.player_eq j hj
  outline_eq j := by
    show (v.actors.insert i b)[j]?.map _ = (w.actors.insert i b)[j]?.map _
    rw [getElem?_insert_eq_ite, getElem?_insert_eq_ite]
    split
    · rfl
    · exact h.outline_eq j

/-- They stay alike under a change that neither is about actors nor depends on them. -/
theorem AlikeFor.change (h : w.AlikeFor id v) {f : World → World}
    (hactors : ∀ (w : World) (actors : ActorMap Actor),
      f { w with actors } = { f w with actors })
    (hplayer : ∀ w, (f w).playerId = w.playerId) : (f w).AlikeFor id (f v) := by
  have hsame : ∀ w : World, (f w).actors = w.actors := by
    intro w
    have heq := congrArg World.actors (hactors w w.actors)
    exact heq
  have hkept : ∀ (w : World) i, (f w).actor? i = w.actor? i := by
    intro w i
    rw [actor?, hsame, actor?]
  refine ⟨?_, ?_, fun i hi ↦ ?_, fun i ↦ ?_⟩
  · rw [hsame, ← hactors, ← h.rest_eq]
  · rw [hkept, hkept, h.own_eq]
  · rw [hplayer] at hi
    rw [hkept, hkept, h.player_eq i hi]
  · rw [hkept, hkept, h.outline_eq]

/-- They stay alike if the actor itself or the player changes in the same way. -/
theorem AlikeFor.modifyActor (h : w.AlikeFor id v) (hi : i = id ∨ w.playerId = some i)
    (change : Actor → Actor) : (w.modifyActor i change).AlikeFor id (v.modifyActor i change) := by
  have hsame : v.actor? i = w.actor? i := by
    rcases hi with rfl | hi
    · exact h.own_eq
    · exact h.player_eq i hi
  cases ha : w.actor? i with
  | none =>
    rw [modifyActor_of_none ha, modifyActor_of_none (hsame.trans ha)]
    exact h
  | some a =>
    rw [modifyActor_of_some ha, modifyActor_of_some (hsame.trans ha)]
    exact h.insert i (change a)

theorem AlikeFor.relocate (h : w.AlikeFor id v) (a : Actor) (goal : Position) :
    (w.relocate id a goal).AlikeFor id (v.relocate id a goal) :=
  (h.insert id { a with position := goal }).change
    (f := fun w ↦ { w with occupants := (w.occupants.erase a.position).insert goal id })
    (fun _ _ ↦ rfl) fun _ ↦ rfl

theorem AlikeFor.moveActor (h : w.AlikeFor id v) (goal : Position) :
    (w.moveActor id goal).Agree (AlikeFor id) (v.moveActor id goal) := by
  unfold World.moveActor
  -- whether somebody is in the way is told by the table of occupied cells
  rw [h.own_eq, h.ask_eq (·.inBounds goal) fun _ _ ↦ rfl,
    h.ask_eq (·.isObstacle goal) fun _ _ ↦ rfl, h.ask_eq (·.occupantAt? goal) fun _ _ ↦ rfl]
  cases w.actor? id with
  | none => rfl
  | some a =>
    dsimp only
    split
    · rfl
    · split
      · rfl
      · split
        · rfl
        · split
          · rfl
          · exact h.relocate a goal

/-- Where actors stand is no secret. -/
theorem AlikeFor.exists_iff (h : w.AlikeFor id v) (i : ActorId) (p : Position) :
    (∃ a, v.actors[i]? = some a ∧ a.position = p) ↔
      ∃ a, w.actors[i]? = some a ∧ a.position = p := by
  have houtline := congrArg (Option.map Prod.snd) (h.outline_eq i)
  rw [Option.map_map, Option.map_map] at houtline
  have hcell : (v.actor? i).map (·.position) = some p ↔ (w.actor? i).map (·.position) = some p := by
    rw [show (v.actor? i).map (·.position) = _ from houtline]
    rfl
  rw [Option.map_eq_some_iff, Option.map_eq_some_iff] at hcell
  exact hcell

theorem AlikeFor.seated (h : w.AlikeFor id v) (hworld : w.Seated) : v.Seated where
  occupants_iff p i := by
    rw [h.ask_eq (·.occupants) fun _ _ ↦ rfl, hworld.occupants_iff, h.exists_iff]
  inBounds i a ha := by
    obtain ⟨b, hb, hcell⟩ := (h.exists_iff i a.position).mp ⟨a, ha, rfl⟩
    rw [h.ask_eq (·.inBounds a.position) fun _ _ ↦ rfl, ← hcell]
    exact hworld.inBounds i b hb

theorem AlikeFor.knowsPlayer (h : w.AlikeFor id v) (hplayer : w.KnowsPlayer) : v.KnowsPlayer := by
  intro a ha
  rw [h.playerId_eq]
  exact hplayer a (h.found_eq.symm.trans ha)

end World

/-! ## 2. Scenes that are alike -/

namespace Scene

/-- Two scenes that differ at most in the private affairs of others than the actor `id` and the
player, and in the memories of others than `id`. -/
structure AlikeFor (id : ActorId) (s t : Scene) : Prop where
  world : s.world.AlikeFor id t.world
  memory_eq : t.memory.slots[id]? = s.memory.slots[id]?
  focus_eq : t.focus = s.focus
  dice_eq : t.dice = s.dice
  rules_eq : t.rules = s.rules

/-- Two scenes that are alike for the actor in focus. -/
abbrev Alike (s t : Scene) : Prop := s.AlikeFor s.focus t

variable {s t : Scene} (h : s.Alike t)

include h

theorem Alike.actor_eq : t.actor? = s.actor? := by
  rw [actor?, h.focus_eq, h.world.own_eq, actor?]

theorem Alike.position_eq : t.position? = s.position? := by rw [position?, h.actor_eq, position?]

theorem Alike.target_eq : t.target? = s.target? := by
  rw [target?, h.world.found_eq, h.focus_eq, target?]

theorem Alike.targetPosition_eq : t.targetPosition? = s.targetPosition? := by
  rw [targetPosition?, h.target_eq, targetPosition?]

theorem Alike.isReady_eq : t.isReady = s.isReady := by
  rw [isReady, h.actor_eq, h.rules_eq, isReady]

theorem Alike.topics_eq : t.memory.topics s.focus = s.memory.topics s.focus := by
  rw [Memory.topics, h.memory_eq, Memory.topics]

theorem Alike.route_eq (start goal : Position) : t.route start goal = s.route start goal := by
  have hoptions : t.routeOptions = s.routeOptions := by
    rw [routeOptions, h.rules_eq, routeOptions]
  rw [route, hoptions]
  exact h.world.ask_eq (·.route start goal s.routeOptions) fun _ _ ↦ rfl

/-! Whatever is done in both scenes, they stay alike. -/

theorem Alike.withWorld {w v : World} (hworld : w.AlikeFor s.focus v) :
    { s with world := w }.Alike { t with world := v } :=
  ⟨hworld, h.memory_eq, h.focus_eq, h.dice_eq, h.rules_eq⟩

theorem Alike.withDice (dice : Dice) : { s with dice }.Alike { t with dice } :=
  ⟨h.world, h.memory_eq, h.focus_eq, rfl, h.rules_eq⟩

theorem Alike.modifyActor (change : Actor → Actor) :
    (s.modifyActor change).Alike (t.modifyActor change) := by
  rw [Scene.modifyActor, Scene.modifyActor]
  apply h.withWorld
  rw [h.focus_eq]
  exact h.world.modifyActor (Or.inl rfl) change

theorem Alike.finishTurn : s.finishTurn.Alike t.finishTurn := by
  rw [Scene.finishTurn, Scene.finishTurn, h.rules_eq]
  exact h.modifyActor _

theorem Alike.withMemory {m n : Memory} (hmemory : n.slots[s.focus]? = m.slots[s.focus]?) :
    { s with memory := m }.Alike { t with memory := n } :=
  ⟨h.world, hmemory, h.focus_eq, h.dice_eq, h.rules_eq⟩

theorem Alike.rememberPosition (topic : Topic) (p : Position) :
    (s.rememberPosition topic p).Alike (t.rememberPosition topic p) := by
  rw [Scene.rememberPosition, Scene.rememberPosition]
  apply h.withMemory
  rw [h.focus_eq]
  show (t.memory.slots.insert s.focus _)[s.focus]? = (s.memory.slots.insert s.focus _)[s.focus]?
  rw [h.topics_eq, getElem?_insert_eq_ite, getElem?_insert_eq_ite, if_pos rfl, if_pos rfl]

theorem Alike.forget (topic : Topic) : (s.forget topic).Alike (t.forget topic) := by
  rw [Scene.forget, Scene.forget]
  apply h.withMemory
  rw [h.focus_eq, Memory.forget, Memory.forget, h.topics_eq]
  dsimp only
  split
  · rw [getElem?_erase_eq_ite, getElem?_erase_eq_ite, if_pos rfl, if_pos rfl]
  · rw [getElem?_insert_eq_ite, getElem?_insert_eq_ite, if_pos rfl, if_pos rfl]

theorem Alike.d100 : ∃ n s' t', s.d100 = (n, s') ∧ t.d100 = (n, t') ∧ s'.Alike t' := by
  have hroll : t.dice.d100 t.focus.number = s.dice.d100 s.focus.number := by
    rw [h.dice_eq, h.focus_eq]
  unfold Scene.d100
  rw [hroll]
  exact ⟨_, _, _, rfl, rfl, h.withDice _⟩

theorem Alike.choose {α : Type} (xs : List α) :
    ∃ x s' t', s.choose xs = (x, s') ∧ t.choose xs = (x, t') ∧ s'.Alike t' := by
  have hroll : t.dice.choose t.focus.number xs = s.dice.choose s.focus.number xs := by
    rw [h.dice_eq, h.focus_eq]
  unfold Scene.choose
  rw [hroll]
  exact ⟨_, _, _, rfl, rfl, h.withDice _⟩

theorem Alike.stepTo (goal : Position) : (s.stepTo goal).Agree Alike (t.stepTo goal) := by
  have hfocus : t.world.moveActor t.focus goal = t.world.moveActor s.focus goal := by
    rw [h.focus_eq]
  unfold Scene.stepTo
  rw [hfocus]
  exact (h.world.moveActor goal).map fun _ _ hmoved ↦ h.withWorld hmoved

end Scene

/-! ## 3. The tasks

Each of them is gone through once: the questions that it asks have the same answers in both scenes,
so it does the same in both. -/

/-- The same status, and scenes that are alike. -/
def AlikeAfter (x y : Status × Scene) : Prop := x.1 = y.1 ∧ x.2.Alike y.2

variable {s t : Scene}

theorem alike_idle (h : s.Alike t) : AlikeAfter (idle s) (idle t) := by
  unfold idle
  rw [h.isReady_eq]
  split
  · exact ⟨rfl, h.finishTurn⟩
  · exact ⟨rfl, h⟩

theorem alike_walkTo (h : s.Alike t) (goal : Option Position) :
    AlikeAfter (s.walkTo goal) (t.walkTo goal) := by
  cases goal with
  | none => exact ⟨rfl, h⟩
  | some goal =>
    show AlikeAfter (s.walk goal) (t.walk goal)
    unfold Scene.walk
    rcases (h.stepTo goal).elim with ⟨s', t', hs, ht, hmoved⟩ | ⟨e, hs, ht⟩
    · rw [hs, ht]
      exact ⟨rfl, hmoved.finishTurn⟩
    · rw [hs, ht]
      exact ⟨rfl, h⟩

theorem walkable_eq (h : s.Alike t) (p : Position) :
    t.world.walkableNeighbors p = s.world.walkableNeighbors p :=
  h.world.ask_eq (·.walkableNeighbors p) fun _ _ ↦ rfl

theorem alike_wander (h : s.Alike t) : AlikeAfter (wander s) (wander t) := by
  unfold wander
  rw [h.position_eq]
  cases s.position? with
  | none => exact ⟨rfl, h⟩
  | some own =>
    -- the dice are equal, and so are the cells to choose from
    obtain ⟨goal, s', t', hs, ht, hrolled⟩ := h.choose (s.world.walkableNeighbors own)
    dsimp only
    rw [walkable_eq h, hs, ht]
    exact alike_walkTo hrolled goal

theorem alike_retreat (h : s.Alike t) : AlikeAfter (retreat s) (retreat t) := by
  unfold retreat
  rw [h.position_eq, h.targetPosition_eq]
  split
  · rw [walkable_eq h]
    exact alike_walkTo h _
  · exact ⟨rfl, h⟩

theorem alike_remember (h : s.Alike t) : AlikeAfter (remember s) (remember t) := by
  unfold remember
  rw [h.targetPosition_eq]
  split
  · exact ⟨rfl, h⟩
  · exact ⟨rfl, h.rememberPosition _ _⟩

theorem alike_goTo (h : s.Alike t) (topic : Topic) :
    AlikeAfter (goToRemembered topic s) (goToRemembered topic t) := by
  have hmemory : t.memory.position? t.focus topic = s.memory.position? s.focus topic := by
    rw [h.focus_eq, Memory.position?, Memory.get?, h.topics_eq, ← Memory.get?, ← Memory.position?]
  unfold goToRemembered
  rw [hmemory, h.position_eq]
  split
  · split
    · exact ⟨rfl, h.forget topic⟩
    · rw [h.route_eq]
      split
      · exact ⟨rfl, h.forget topic⟩
      · rename_i next _
        rcases (h.stepTo next).elim with ⟨s', t', hs, ht, hmoved⟩ | ⟨e, hs, ht⟩
        · rw [hs, ht]
          exact ⟨rfl, hmoved.finishTurn⟩
        · rw [hs, ht]
          exact ⟨rfl, h.forget topic⟩
  · exact ⟨rfl, h⟩

theorem alike_chase (h : s.Alike t) (c : Chase) :
    (c.tick s).1 = (c.tick t).1 ∧ (c.tick s).2.1 = (c.tick t).2.1 ∧
      (c.tick s).2.2.Alike (c.tick t).2.2 := by
  unfold Chase.tick
  rw [h.position_eq, h.targetPosition_eq]
  split
  · exact ⟨rfl, rfl, h⟩
  · exact ⟨rfl, rfl, h⟩
  · rename_i own target _ _
    -- a route that is kept is the chaser's own, and a new one is the same in both
    have haim : c.aim t own target = c.aim s own target := by
      unfold Chase.aim
      rw [h.route_eq]
    rw [haim]
    unfold Chase.follow
    split
    · rename_i goal next rest _
      split
      · exact ⟨rfl, rfl, h⟩
      · rcases (h.stepTo next).elim with ⟨s', t', hs, ht, hmoved⟩ | ⟨e, hs, ht⟩
        · rw [hs, ht]
          exact ⟨rfl, rfl, hmoved.finishTurn⟩
        · rw [hs, ht]
          exact ⟨rfl, rfl, h⟩
    · exact ⟨rfl, rfl, h⟩

theorem alike_dig (h : s.Alike t) (cell : Position) : AlikeAfter (dig cell s) (dig cell t) := by
  have hsame := h.world.ask_eq (·.isMineable cell) fun _ _ ↦ rfl
  have hdug := h.withWorld (h.world.change
    (f := fun w ↦ { w with features := w.features.insert cell .rubble }) (fun _ _ ↦ rfl)
    fun _ ↦ rfl)
  by_cases hrock : s.world.isMineable cell = true
  · rw [dig_of_isMineable hrock, dig_of_isMineable (hsame.trans hrock)]
    exact ⟨rfl, (hdug.rememberPosition .lastMined cell).finishTurn⟩
  · unfold dig World.mine
    rw [if_neg hrock, if_neg (hsame ▸ hrock)]
    exact ⟨rfl, h⟩

theorem alike_mineBlock (h : s.Alike t) : AlikeAfter (mineBlock s) (mineBlock t) := by
  have hrocks : t.world.isMineable = s.world.isMineable :=
    h.world.ask_eq (·.isMineable) fun _ _ ↦ rfl
  unfold mineBlock
  rw [h.position_eq, hrocks]
  cases s.position? with
  | none => exact ⟨rfl, h⟩
  | some own =>
    obtain ⟨cell, s', t', hs, ht, hrolled⟩ :=
      h.choose (own.orthogonalNeighbors.filter s.world.isMineable)
    dsimp only
    rw [hs, ht]
    cases cell with
    | none => exact ⟨rfl, hrolled⟩
    | some cell => exact alike_dig hrolled cell

theorem alike_mineTunnel (h : s.Alike t) : AlikeAfter (mineTunnel s) (mineTunnel t) := by
  have hrocks : t.world.isMineable = s.world.isMineable :=
    h.world.ask_eq (·.isMineable) fun _ _ ↦ rfl
  have hobstacles : t.world.isObstacle = s.world.isObstacle :=
    h.world.ask_eq (·.isObstacle) fun _ _ ↦ rfl
  have hcount : t.world.countObstacles = s.world.countObstacles :=
    h.world.ask_eq (·.countObstacles) fun _ _ ↦ rfl
  unfold mineTunnel
  rw [h.position_eq, hrocks, hobstacles, hcount]
  split
  · exact ⟨rfl, h⟩
  · split
    · exact ⟨rfl, h⟩
    · split
      · exact ⟨rfl, h⟩
      · dsimp only
        split
        · exact alike_dig h _
        · exact ⟨rfl, h⟩

theorem alike_pick (h : s.Alike t) (thirst : Thirst) (inv : Inventory) :
    ∃ slot s' t', thirst.pick inv s = (slot, s') ∧ thirst.pick inv t = (slot, t') ∧
      s'.Alike t' := by
  cases thirst with
  | hp => exact ⟨_, s, t, rfl, rfl, h⟩
  | mp => exact ⟨_, s, t, rfl, rfl, h⟩
  | any => exact h.choose inv.potionSlots

theorem alike_drink (h : s.Alike t) (thirst : Thirst) :
    AlikeAfter (drink thirst s) (drink thirst t) := by
  unfold drink
  rw [h.actor_eq]
  cases s.actor? with
  | none => exact ⟨rfl, h⟩
  | some a =>
    obtain ⟨slot, s', t', hs, ht, hpicked⟩ := alike_pick h thirst a.inventory
    dsimp only
    rw [hs, ht]
    cases slot with
    | none => exact ⟨rfl, hpicked⟩
    | some slot =>
      dsimp only
      split
      · exact ⟨rfl, hpicked⟩
      · exact ⟨rfl, (hpicked.modifyActor _).finishTurn⟩

theorem takeItem_eq (w : World) (p : Position) (place : Nat) :
    w.takeItem? p place = (w.itemsAt p)[place]?.map fun item ↦
      (item, w.withPile p ((w.itemsAt p).eraseIdx place)) := rfl

theorem alike_pickUp (h : s.Alike t) (kinds : List ItemKind) :
    AlikeAfter (pickUp kinds s) (pickUp kinds t) := by
  have hpiles : t.world.itemsAt = s.world.itemsAt := h.world.ask_eq (·.itemsAt) fun _ _ ↦ rfl
  have hpile := fun p pile ↦
    h.withWorld (h.world.change (f := (·.withPile p pile)) (fun _ _ ↦ rfl) fun _ ↦ rfl)
  unfold pickUp
  rw [h.actor_eq, hpiles]
  cases ha : s.actor? with
  | none => exact ⟨rfl, h⟩
  | some a =>
    dsimp only
    split
    · exact ⟨rfl, h⟩
    · rename_i hfull
      cases pickPlace? kinds (s.world.itemsAt a.position) with
      | none => exact ⟨rfl, h⟩
      | some place =>
        rw [Option.bind_some, Option.bind_some, takeItem_eq, takeItem_eq, hpiles]
        cases (s.world.itemsAt a.position)[place]? with
        | none => exact ⟨rfl, h⟩
        | some item =>
          -- there is a free slot, so nothing is put back
          obtain ⟨richer, hricher⟩ := exists_receive (Bool.eq_false_iff.mpr hfull) item
          dsimp only [Option.map_some]
          rw [hricher]
          exact ⟨rfl, ((hpile a.position _).modifyActor _).finishTurn⟩

theorem alike_strike (h : s.Alike t) (hplayer : s.world.KnowsPlayer) (attacker : Actor)
    {defender : Actor} (target : s.target? = some defender) (chance : UInt32) :
    (strike s attacker defender chance).1 = (strike t attacker defender chance).1 ∧
      (strike s attacker defender chance).2.Alike (strike t attacker defender chance).2 := by
  obtain ⟨hstruck, -⟩ := player_of_target hplayer target
  have hhurt := h.world.modifyActor (Or.inr hstruck)
  -- whether the player lives on is told to the attacker, and it is the same player
  have hseen : ∀ change : Actor → Actor,
      (t.world.modifyActor defender.id change).actor? defender.id =
        (s.world.modifyActor defender.id change).actor? defender.id := by
    intro change
    rw [World.actor_modifyActor, World.actor_modifyActor, h.world.player_eq defender.id hstruck]
  unfold strike Scene.d100 Dice.d100
  rw [h.dice_eq, h.focus_eq]
  dsimp only
  rw [hseen]
  exact ⟨rfl, hhurt _, h.memory_eq, rfl, rfl, h.rules_eq⟩

theorem alike_attack (h : s.Alike t) (hplayer : s.world.KnowsPlayer) :
    (attack s).Agree (fun x y ↦ x.1 = y.1 ∧ x.2.Alike y.2) (attack t) := by
  unfold attack
  rw [h.actor_eq, h.target_eq]
  split
  · rename_i attacker defender _ htarget
    split
    · rw [h.rules_eq]
      cases Combat.hitChance attacker.stats.skill defender.stats.skill s.rules with
      | error e => rfl
      | ok chance =>
        obtain ⟨hblow, hstruck⟩ := alike_strike h hplayer attacker htarget chance
        exact ⟨congrArg some hblow, hstruck.finishTurn⟩
    · exact ⟨rfl, h⟩
  · exact ⟨rfl, h⟩

theorem AlikeAfter.matches {x y : Status × Scene} (h : AlikeAfter x y) (t : Task) :
    (t.stateless x).Matches Scene.Alike (t.stateless y) :=
  ⟨h.1, rfl, h.2⟩

/-- Whatever the task, a tick of it comes to the same in both scenes. -/
theorem Task.tick_alike (task : Task) (h : s.Alike t) (hplayer : s.world.KnowsPlayer) :
    (task.tick s).Agree (Step.Matches Scene.Alike) (task.tick t) := by
  cases task with
  | idle => exact (alike_idle h).matches _
  | wander => exact (alike_wander h).matches _
  | retreat => exact (alike_retreat h).matches _
  | chase c =>
    obtain ⟨hstatus, hstate, hafter⟩ := alike_chase h c
    exact ⟨hstatus, congrArg Task.chase hstate, hafter⟩
  | attack last =>
    refine (alike_attack h hplayer).bind ?_
    rintro ⟨blow, s'⟩ ⟨_, t'⟩ ⟨rfl, hafter⟩
    cases blow with
    | none => exact ⟨rfl, rfl, hafter⟩
    | some blow => exact ⟨rfl, rfl, hafter⟩
  | remember => exact (alike_remember h).matches _
  | goTo topic => exact (alike_goTo h topic).matches _
  | drink thirst => exact (alike_drink h thirst).matches _
  | pickUp kinds => exact (alike_pickUp h kinds).matches _
  | mineBlock => exact (alike_mineBlock h).matches _
  | mineTunnel => exact (alike_mineTunnel h).matches _

/-- So does every question to the senses. -/
theorem Sense.test_alike (sense : Sense) (h : s.Alike t) :
    (sense.test s).Matches Scene.Alike (sense.test t) := by
  have hbetween : ∀ holds, betweenPositions t holds = betweenPositions s holds := by
    intro holds
    unfold betweenPositions
    rw [h.position_eq, h.targetPosition_eq]
  cases sense with
  | playerInRange range => exact ⟨congrArg Status.ofBool (hbetween _).symm, rfl, h⟩
  | playerVisible =>
    have hsight : t.world.canSee = s.world.canSee := h.world.ask_eq (·.canSee) fun _ _ ↦ rfl
    refine ⟨congrArg Status.ofBool ?_, rfl, h⟩
    show betweenPositions s s.world.canSee = betweenPositions t t.world.canSee
    rw [hbetween, hsight]
  | hpLow percent =>
    refine ⟨congrArg Status.ofBool ?_, rfl, h⟩
    show s.actor?.any _ = t.actor?.any _
    rw [h.actor_eq]
  | chance percent =>
    obtain ⟨roll, s', t', hs, ht, hrolled⟩ := h.d100
    have hroll : ∀ s : Scene, (chance percent).test s =
        ⟨.ofBool (s.d100.1 ≤ percent), chance percent, s.d100.2⟩ := fun _ ↦ rfl
    rw [hroll, hroll, hs, ht]
    exact ⟨rfl, rfl, hrolled⟩
  | remembers topic =>
    refine ⟨congrArg Status.ofBool ?_, rfl, h⟩
    show s.memory.contains s.focus topic = t.memory.contains t.focus topic
    rw [h.focus_eq, Memory.contains, Memory.contains, Memory.get?, Memory.get?, h.topics_eq]

end Delve

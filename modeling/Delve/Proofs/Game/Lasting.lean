import Delve.Proofs.Brain.Conduct
import Delve.Proofs.Game.Command
/-!
# What lasts in a game

A game changes in a few ways only: brains are given and taken, everybody gains energy, somebody who
is alive takes turns, somebody is taken out. What none of them breaks outlasts every row of
commands, whether or not turns cost anything, and every command is carried out.
-/

namespace Delve.Game

variable {g g' : Game} {id i : ActorId} {s' : Scene}

/-! ## 1. Games in order -/

/-- What the turns of actors rely on: every actor is housed, the player has its own handle, and
there is always a chance to hit. -/
structure InOrder (g : Game) : Prop where
  housed : g.scene.world.Housed
  knowsPlayer : g.scene.world.KnowsPlayer
  fair : g.scene.rules.Fair

theorem Sound.inOrder (hg : g.Sound) : g.InOrder := ⟨hg.seated.housed, hg.knowsPlayer, hg.fair⟩

theorem InOrder.led (hg : g.InOrder) (h : g.scene.LedBy id s') (brains : ActorMap Brain) :
    { g with scene := s', brains }.InOrder :=
  ⟨h.housed, h.knowsPlayer, h.touched.rules_eq ▸ hg.fair⟩

theorem InOrder.opened (hg : g.InOrder) : g.opened.InOrder where
  housed :=
    durable_gainEnergy (g := { g with rounds := g.rounds + 1 }) World.housed_durable hg.housed
  knowsPlayer := knowsPlayer_gainEnergy (g := { g with rounds := g.rounds + 1 }) hg.knowsPlayer
  fair := hg.fair

theorem InOrder.removeActor (hg : g.InOrder) (id : ActorId) : (g.removeActor id).2.InOrder where
  housed := removeActor_world_cases hg.housed fun _ ha ↦ hg.housed.vacate ha
  knowsPlayer := removeActor_world_cases hg.knowsPlayer fun _ _ ↦ hg.knowsPlayer.vacate
  fair := hg.fair

/-- Whether an actor is in the world and alive. -/
def lives (g : Game) (id : ActorId) : Bool := (g.scene.world.actor? id).any (·.isAlive)

theorem lives_of_isReady (h : (g.scene.focusOn id).isReady = true) : g.lives id = true := by
  obtain ⟨a, ha, hcan⟩ := (Option.any_eq_true _ _).mp h
  rw [Actor.canAct, Bool.and_eq_true] at hcan
  exact (Option.any_eq_true _ _).mpr ⟨a, ha, hcan.1⟩

theorem mem_actors_of_lives (h : g.lives id = true) : id ∈ g.scene.world.actors := by
  obtain ⟨a, ha, -⟩ := (Option.any_eq_true _ _).mp h
  exact mem_of_getElem?_eq_some ha

/-! ## 2. Who is there -/

theorem mem_actors_removeActor :
    i ∈ (g.removeActor id).2.scene.world.actors ↔ i ≠ id ∧ i ∈ g.scene.world.actors := by
  have hactor := actor_removeActor g id i
  rw [Std.ExtTreeMap.mem_iff_isSome_getElem?, Std.ExtTreeMap.mem_iff_isSome_getElem?]
  show ((g.removeActor id).2.scene.world.actor? i).isSome = true ↔ _
  rw [hactor]
  split
  · rename_i hi
    simp [hi]
  · rename_i hi
    simp only [ne_eq, hi, not_false_eq_true, true_and]
    exact Iff.rfl

/-- When a round opens, an actor may have gained energy, and nothing else of it changes. -/
theorem actor_opened (g : Game) (i : ActorId) :
    Option.Rel (fun a b : Actor ↦ ∃ missed energy, b = { a with missed, energy })
      (g.scene.world.actor? i) (g.opened.scene.world.actor? i) := by
  rw [opened, actor_gainEnergy]
  split
  · show Option.Rel _ (g.scene.world.actor? i) ((g.scene.world.actor? i).map _)
    cases g.scene.world.actor? i with
    | none => exact .none
    | some a => exact .some (Actor.gainEnergy_eq a g.scene.rules.turnTick)
  · exact rel_refl (fun a ↦ ⟨a.missed, a.energy, rfl⟩) _

theorem mem_actors_opened : i ∈ g.opened.scene.world.actors ↔ i ∈ g.scene.world.actors := by
  rw [Std.ExtTreeMap.mem_iff_isSome_getElem?, Std.ExtTreeMap.mem_iff_isSome_getElem?]
  exact iff_of_eq (congrArg (· = true) (isSome_of_rel (actor_opened g i)))

/-! ## 3. Lasting properties -/

/-- Nothing that happens in a game in order breaks `P`. -/
structure Lasting (P : Game → Prop) : Prop where
  attach : ∀ {g : Game} {id : ActorId} (b : Brain), P g → id ∈ g.scene.world.actors →
    P { g with brains := g.brains.insert id b }
  detach : ∀ {g : Game} (id : ActorId), P g → P (g.detach id)
  focusOn : ∀ {g : Game} (id : ActorId), P g → P { g with scene := g.scene.focusOn id }
  opened : ∀ {g : Game}, P g → P g.opened
  turns : ∀ {g : Game} {id : ActorId} {s' : Scene} (b : Brain), P g → g.lives id = true →
    g.scene.LedBy id s' → P { g with scene := s', brains := g.brains.insert id b }
  removeActor : ∀ {g : Game} (id : ActorId), P g → P (g.removeActor id).2

variable {P : Game → Prop}

theorem Lasting.actFor (h : Lasting P) (horder : g.InOrder) (hg : P g) (id : ActorId) :
    (g.actFor id).ComesTo (fun r ↦ r.2.InOrder ∧ P r.2) fun _ ↦ False := by
  unfold Game.actFor
  split
  · rename_i halive
    cases g.brain? id with
    | none => exact ⟨horder, hg⟩
    | some brain =>
      have hturns := brain.takeTurns_conduct (ledBy_law id g.scene)
        (.start horder.housed horder.knowsPlayer)
      refine (hturns.mono (fun _ hled ↦ hled) fun _ ↦ horder.fair.not_crossed).bind fun r hled ↦ ?_
      exact ⟨horder.led hled _, h.turns r.2.1 hg halive hled⟩
  · exact ⟨horder.removeActor id, h.removeActor id hg⟩

theorem Lasting.actInOrder (h : Lasting P) (horder : g.InOrder) (hg : P g) (ids : List ActorId) :
    (g.actInOrder ids).ComesTo (fun r ↦ r.2.InOrder ∧ P r.2) fun _ ↦ False :=
  actInOrder_comesTo (P := fun g ↦ g.InOrder ∧ P g) ids
    (fun id _ _ hnow ↦ h.actFor hnow.1 hnow.2 id) ⟨horder, hg⟩

/-- Whoever is not ready keeps its brain as it is. -/
theorem update_of_not_isReady {b : Brain} (hb : g.brain? id = some b)
    (hready : (g.scene.focusOn id).isReady = false) :
    g.update id = .ok (.ok (none, { g with scene := g.scene.focusOn id })) := by
  have hsame : g.brains.insert id b = g.brains := by
    apply Std.ExtTreeMap.ext_getElem?
    intro i
    rw [getElem?_insert_eq_ite]
    split
    · rename_i hi
      exact hi ▸ hb.symm
    · rfl
  unfold Game.update
  simp only [hb, Brain.update_of_not_isReady hready, bind, Except.bind, pure, Except.pure, hsame]

theorem Lasting.update (h : Lasting P) (horder : g.InOrder) (hg : P g) (id : ActorId) :
    (g.perform (.update id)).ComesTo (fun g' ↦ g'.InOrder ∧ P g') fun _ ↦ False := by
  cases hb : g.brain? id with
  | none =>
    simp only [perform, Game.update, hb]
    exact ⟨horder, hg⟩
  | some brain =>
    cases hready : (g.scene.focusOn id).isReady with
    | false =>
      -- nothing happens but that the actor comes into focus, be it dead or missing
      simp only [perform, update_of_not_isReady hb hready]
      exact ⟨⟨horder.housed, horder.knowsPlayer, horder.fair⟩, h.focusOn id hg⟩
    | true =>
      -- whoever is ready is alive
      have hturn := brain.update_conduct (ledBy_law id g.scene)
        (.start horder.housed horder.knowsPlayer)
      simp only [perform, Game.update, hb]
      refine Except.comesTo_map.mpr ?_
      refine (hturn.mono (fun _ hled ↦ hled) fun _ ↦ horder.fair.not_crossed).bind fun r hled ↦ ?_
      exact ⟨horder.led hled _, h.turns r.2.1 hg (lives_of_isReady hready) hled⟩

/-- Brains are given to actors in the world only. -/
theorem Lasting.attachBrain (h : Lasting P) (horder : g.InOrder) (hg : P g) (id : ActorId)
    (b : Brain) : ((g.attachBrain id b).toOption.getD g).InOrder ∧
      P ((g.attachBrain id b).toOption.getD g) := by
  unfold Game.attachBrain
  split
  · rename_i hid
    exact ⟨⟨horder.housed, horder.knowsPlayer, horder.fair⟩,
      h.attach b hg (Std.ExtTreeMap.mem_iff_isSome_getElem?.mpr hid)⟩
  · exact ⟨horder, hg⟩

theorem Lasting.perform (h : Lasting P) (horder : g.InOrder) (hg : P g) (c : Command) :
    (g.perform c).ComesTo (fun g' ↦ g'.InOrder ∧ P g') fun _ ↦ False := by
  cases c with
  | attach id temper => exact h.attachBrain horder hg id _
  | attachNamed id name =>
    simp only [Game.perform, Game.attachNamed]
    split
    · exact ⟨horder, hg⟩
    · exact h.attachBrain horder hg id _
  | attachBrain id brain => exact h.attachBrain horder hg id brain
  | detach id => exact ⟨⟨horder.housed, horder.knowsPlayer, horder.fair⟩, h.detach id hg⟩
  | update id => exact h.update horder hg id
  | round => exact Except.comesTo_map.mpr (h.actInOrder horder.opened (h.opened hg) g.brainIds)
  | removeActor id => exact ⟨horder.removeActor id, h.removeActor id hg⟩

/-- By induction on the commands. -/
theorem Lasting.performAll (h : Lasting P) (horder : g.InOrder) (hg : P g) (cs : List Command) :
    (g.performAll cs).ComesTo (fun g' ↦ g'.InOrder ∧ P g') fun _ ↦ False := by
  induction cs generalizing g with
  | nil => exact ⟨horder, hg⟩
  | cons c cs ih => exact (h.perform horder hg c).bind fun _ hnext ↦ ih hnext.1 hnext.2

theorem InOrder.performAll (hg : g.InOrder) (cs : List Command) :
    (g.performAll cs).ComesTo InOrder fun _ ↦ False := by
  have hnothing : Lasting fun _ ↦ True :=
    ⟨fun _ _ _ ↦ trivial, fun _ _ ↦ trivial, fun _ _ ↦ trivial, fun _ ↦ trivial,
      fun _ _ _ _ ↦ trivial, fun _ _ ↦ trivial⟩
  exact (hnothing.performAll hg trivial cs).mono (fun _ h ↦ h.1) fun _ h ↦ h

end Delve.Game

import Delve.Proofs.Brain.Promise
import Delve.Proofs.Brain.Temper
import Delve.Proofs.Task.Recall
import Delve.Proofs.Task.Trail
/-!
# Engaging

A smart monster that sees the player within its range notes where the player stands, and strikes if
that is beside it. Otherwise it chases. The route of the chase may be one from an earlier turn, and
somebody may have stepped on it since; the chase then drops it and leaves everything else as it is.
What is left is the way to the cell that has just been noted, and it is looked for anew. So as long
as there is a way to the player, the monster takes a step and still knows where the player is.
-/

namespace Delve

open Node

variable {s s' : Scene} {own hero : Actor} {rules : Rules} {P Q : Status → Scene → Prop}

/-! ## 1. A player in sight -/

/-- The actor in focus is not the player, and it sees the player, who is alive. -/
structure Scene.Sights (s : Scene) (own hero : Actor) : Prop where
  consistent : s.world.Consistent
  actor : s.actor? = some own
  other : s.focus ≠ .player
  player : s.world.player? = some hero
  alive : hero.isAlive = true
  visible : s.world.canSee own.position hero.position = true

/-- What the actor in focus does first: it notes where the player stands. -/
def Scene.noting (s : Scene) (hero : Actor) : Scene :=
  s.rememberPosition .lastTarget hero.position

/-- The actor in focus strikes the player and pays for the blow. -/
def Scene.Strikes (s : Scene) (own hero : Actor) (s' : Scene) : Prop :=
  ∃ chance, Combat.hitChance own.stats.skill hero.stats.skill s.rules = .ok chance ∧
    s' = (strike s own hero chance).2.finishTurn

/-- The actor in focus steps onto a cell beside its own and pays for the step. -/
def Scene.Steps (s : Scene) (own : Actor) (s' : Scene) : Prop :=
  ∃ next, own.position.isNeighbor next = true ∧
    s' = s.withHunter (own.finishTurn s.rules.turnReady) next

namespace Scene.Sights

section Situation

variable (h : s.Sights own hero)
include h

theorem position_eq : s.position? = some own.position := position_of_actor h.actor

theorem hero_eq : s.world.actor? .player = some hero ∧ hero.id = .player :=
  (h.consistent.toEnrolled.actor_player h.player).2

theorem target_eq : s.target? = some hero := by
  have hother : hero.id ≠ s.focus := h.hero_eq.2 ▸ h.other.symm
  rw [target?, h.player, Option.filter_some, h.alive, bne_iff_ne.mpr hother]
  rfl

theorem targetPosition_eq : s.targetPosition? = some hero.position := by
  rw [targetPosition?, h.target_eq, Option.map_some]

theorem position_ne : own.position ≠ hero.position :=
  fun heq ↦ h.other (h.consistent.id_unique h.actor h.hero_eq.1 heq)

theorem noting : (s.noting hero).Sights own hero :=
  ⟨h.consistent, h.actor, h.other, h.player, h.alive, h.visible⟩

theorem ask_playerInRange (range : UInt32) :
    (Sense.playerInRange range).ask s = (own.position.inRange hero.position range, s) := by
  rw [Sense.ask, Sense.betweenPositions, h.position_eq, h.targetPosition_eq]

theorem ask_playerVisible : Sense.playerVisible.ask s = (true, s) := by
  rw [Sense.ask, Sense.betweenPositions, h.position_eq, h.targetPosition_eq]
  exact congrArg (·, s) h.visible

end Situation

/-! ## 2. What the tasks promise -/

theorem promises_remember (h : s.Sights own hero) :
    (leaf .remember).Promises s fun status s' ↦ status = .success ∧ s' = s.noting hero := by
  refine promises_leaf_of_tick (by simp) (by simp) rfl ?_
  rw [Delve.remember_of_target h.targetPosition_eq]
  exact ⟨rfl, rfl⟩

/-- A blow is the turn, whatever became of the last one. -/
theorem promises_attack (h : s.Sights own hero) (hfair : s.rules.Fair)
    (hnear : own.position.isNeighbor hero.position = true) :
    (leaf (.attack none)).Promises s fun status s' ↦
      status = .success ∧ s.Strikes own hero s' := by
  refine promises_leaf fun now hnow ↦ ?_
  cases now with
  | attack last =>
    have hchance := hitChance_comesTo own.stats.skill hero.stats.skill s.rules
    obtain ⟨chance, hchance, -⟩ :=
      (hchance.mono (fun _ ↦ id) fun _ ↦ hfair.not_crossed).exists_ok
    have hattack : attack s = .ok (some (strike s own hero chance).1,
        (strike s own hero chance).2.finishTurn) := by
      rw [attack, h.actor, h.target_eq]
      dsimp only
      rw [if_pos hnear, hchance]
      rfl
    rw [Task.tick, hattack]
    exact ⟨_, rfl, rfl, chance, hchance, rfl⟩
  | _ => cases hnow

/-- Whatever route a chase has kept, it is good for a step, or the chase fails without a trace. -/
theorem promises_chase (h : s.Sights own hero) :
    (leaf (.chase {})).Promises s
      (s.RefusedOr fun status s' ↦ status = .success ∧ s.Steps own s') := by
  refine promises_leaf fun now hnow ↦ ?_
  cases now with
  | chase c =>
    rcases htick : c.tick s with ⟨status, c', s'⟩
    rw [Task.tick, htick]
    refine ⟨_, rfl, ?_⟩
    cases Chase.turn_of_tick htick with
    | absent | lost => exact Or.inl ⟨rfl, rfl⟩
    | @step a _ next _ hactor _ _ _ hnear =>
      obtain rfl : own = a := Option.some.inj (h.actor.symm.trans hactor)
      exact Or.inr ⟨nofun, rfl, next, hnear, rfl⟩
  | _ => cases hnow

/-- Whoever has noted where the player stands, and is not there yet, takes a step if there is a
way. -/
theorem promises_goTo (h : s.Sights own hero)
    (hmemory : s.memory.position? s.focus .lastTarget = some hero.position)
    (hapart : own.position.isNeighbor hero.position = false)
    (hfound : (s.route own.position hero.position).isEmpty = false) :
    (leaf (.goTo .lastTarget)).Promises s fun status s' ↦
      status = .success ∧ s.Steps own s' := by
  refine promises_leaf_of_tick (by simp) (by simp) rfl ?_
  have hoccupied : s.world.occupants[hero.position]? ≠ none := by
    rw [h.consistent.occupants_eq h.hero_eq.1]
    nofun
  rcases World.route_cases (o := s.routeOptions) rfl h.position_ne.symm hoccupied with
    hlost | ⟨-, hnear, -⟩ | ⟨next, rest, hroute, hnear, hfree, -⟩
  · exact absurd (hlost.symm.trans hfound) (by decide)
  · exact absurd (hnear.symm.trans hapart) (by decide)
  · -- a cell on the way before the player's own is free
    have hnext := Route.next?_of_waypoints hroute
    have hwalk := goToRemembered_of_step hmemory h.actor h.position_ne hnext hnear hfree
    rw [hwalk]
    exact ⟨rfl, next, hnear, rfl⟩

/-! ## 3. What a smart monster promises -/

theorem promises_hunt (h : s.Sights own hero) (hengage : Temper.engage.Promises (s.noting hero) P)
    (hlater : ∀ s', P .failure s' → (leaf (.goTo .lastTarget)).Promises s' Q)
    (hstop : ∀ status s', status ≠ .failure → P status s' → Q status s') :
    Temper.hunt.Promises s Q := by
  refine promises_sel (promises_gate h.ask_playerVisible (fun _ ↦ ?_) nofun)
    (fun s' hfailure ↦ promises_sel_singleton (hlater s' hfailure)) hstop
  refine promises_seq h.promises_remember ?_ fun _ _ hne hnoted ↦ absurd hnoted.1 hne
  rintro s' ⟨-, rfl⟩
  exact hengage

theorem promises_smart (h : s.Sights own hero)
    (hrange : own.position.inRange hero.position rules.aggroRange = true)
    (hhunt : Temper.hunt.Promises s Q) (hQ : ∀ s', ¬ Q .failure s') :
    (Temper.smart.body rules).Promises s Q := by
  refine promises_sel_of_settled
    (promises_gate (h.ask_playerInRange _) (fun _ ↦ hhunt) fun hfar ↦ ?_) hQ
  exact absurd (hrange.symm.trans hfar) (by decide)

/-- Beside the player it strikes. -/
theorem smart_strikes (h : s.Sights own hero) (hfair : s.rules.Fair)
    (hrange : own.position.inRange hero.position rules.aggroRange = true)
    (hnear : own.position.isNeighbor hero.position = true) :
    (Temper.smart.body rules).Promises s fun status s' ↦
      status = .success ∧ (s.noting hero).Strikes own hero s' := by
  have hbeside := h.noting.ask_playerInRange 1
  rw [Position.inRange_one h.position_ne, hnear] at hbeside
  have hengage : Temper.engage.Promises (s.noting hero) _ := promises_sel_of_settled
    (promises_gate hbeside (fun _ ↦ h.noting.promises_attack hfair hnear) nofun) (by simp)
  exact h.promises_smart hrange
    (h.promises_hunt hengage (by simp) fun _ _ _ ↦ id) (by simp)

/-- Away from the player it steps, by the chase or by the way to the cell that it has noted. -/
theorem smart_steps (h : s.Sights own hero)
    (hrange : own.position.inRange hero.position rules.aggroRange = true)
    (hapart : own.position.isNeighbor hero.position = false)
    (hfound : (s.route own.position hero.position).isEmpty = false) :
    (Temper.smart.body rules).Promises s fun status s' ↦
      status = .success ∧ (s.noting hero).Steps own s' := by
  have hbeside := h.noting.ask_playerInRange 1
  rw [Position.inRange_one h.position_ne, hapart] at hbeside
  have hengage : Temper.engage.Promises (s.noting hero) _ := promises_sel_of_refusedOr
    (promises_gate hbeside nofun fun _ ↦ Or.inl ⟨rfl, rfl⟩)
    (promises_sel_singleton h.noting.promises_chase)
  refine h.promises_smart hrange (h.promises_hunt hengage ?_ ?_) (by simp)
  · rintro s' (⟨-, rfl⟩ | ⟨hne, -⟩)
    · -- the chase has not touched what was noted, nor the way to it
      have hmemory : (s.noting hero).memory.position? s.focus .lastTarget = some hero.position :=
        s.memory.position?_setPosition _ _ _
      exact h.noting.promises_goTo hmemory hapart hfound
    · exact absurd rfl hne
  · rintro status s' hne (⟨hfailure, -⟩ | ⟨-, hstep⟩)
    · exact absurd hfailure hne
    · exact hstep

/-! ## 4. What becomes of the scene -/

theorem paysOnce_of_strikes (h : s.Sights own hero)
    (hnear : own.position.isNeighbor hero.position = true) (hstruck : s.Strikes own hero s') :
    s.PaysOnce s' := by
  obtain ⟨chance, -, rfl⟩ := hstruck
  exact (Deed.blow h.actor h.target_eq hnear).paysOnce

theorem paysOnce_of_steps (h : s.Sights own hero) (hstep : s.Steps own s') : s.PaysOnce s' := by
  obtain ⟨next, -, rfl⟩ := hstep
  refine ⟨s.withHunter own next, rfl, rfl, ?_, (s.finishTurn_withHunter own next).symm⟩
  have hbefore : s.world.actor? s.focus = some own := h.actor
  have hafter : (s.withHunter own next).world.actor? s.focus =
      some { own with position := next } :=
    s.world.actor_relocate s.focus own next
  rw [Brain.energy?, Brain.energy?, hbefore, hafter, Option.map_some, Option.map_some]

/-- The blow takes one roll and does the player the harm of it, and the monster has only paid. -/
theorem scene_of_strikes (h : s.Sights own hero) (hstruck : s.Strikes own hero s') :
    s'.world.actor? s.focus = some (own.finishTurn s.rules.turnReady) ∧
      s'.dice = s.dice.rolled ∧ s'.memory = s.memory ∧
      ∃ chance, Combat.hitChance own.stats.skill hero.stats.skill s.rules = .ok chance ∧
        s'.world.player? = some (hero.receiveDamage
          (if Combat.hits chance s.d100.1 then Combat.damage own.stats hero.stats else 0)).2 := by
  obtain ⟨chance, hchance, rfl⟩ := hstruck
  obtain ⟨hplayer, hhero, hid⟩ := h.consistent.toEnrolled.actor_player h.player
  have hown : s.world.actor? s.focus = some own := h.actor
  have hworld : (strike s own hero chance).2.finishTurn.world =
      (s.world.modifyActor hero.id fun a ↦ (a.receiveDamage
        (if Combat.hits chance s.d100.1 then Combat.damage own.stats hero.stats else 0)).2
      ).modifyActor s.focus (·.finishTurn s.rules.turnReady) := rfl
  -- the blow reaches nobody but the player, and the payment nobody but the monster
  refine ⟨?_, rfl, rfl, chance, hchance, ?_⟩
  · rw [hworld, World.actor_modifyActor, if_pos rfl, World.actor_modifyActor, hid,
      if_neg h.other.symm, hown, Option.map_some]
  · rw [hworld, World.player?, World.playerId_modifyActor, World.playerId_modifyActor, hplayer,
      Option.bind_some, World.actor_modifyActor, if_neg h.other, World.actor_modifyActor,
      if_pos hid, hhero, Option.map_some]

end Scene.Sights

/-- A smart monster that sees the player within its range does not let the turn pass: whatever it
has kept from earlier turns, whatever it remembers, and wherever else it may lead the chase. Beside
the player it strikes from where it stands, with one roll. Otherwise, if there is a way to the
player, it takes a step. In both cases it knows afterwards where the player is. -/
theorem Temper.smart_engages (rules : Rules) {b : Brain} (hbrain : (smart.brain rules).Becomes b)
    {id : ActorId} (hworld : s.world.Consistent) (hfair : s.rules.Fair) (hother : id ≠ .player)
    (hown : s.world.actor? id = some own) (hready : own.canAct s.rules.turnReady = true)
    (hhero : s.world.player? = some hero) (halive : hero.isAlive = true)
    (hrange : own.position.inRange hero.position rules.aggroRange = true)
    (hseen : s.world.canSee own.position hero.position = true) :
    ∃ b' s' own', b.update id s = .ok (some .success, b', s') ∧
      s'.world.actor? id = some own' ∧
      (own.position.isNeighbor hero.position = true →
        s'.memory.position? id .lastTarget = some hero.position ∧
        own'.position = own.position ∧ s'.dice = s.dice.rolled ∧
        ∃ chance, Combat.hitChance own.stats.skill hero.stats.skill s.rules = .ok chance ∧
          s'.world.player? = some (hero.receiveDamage
            (if Combat.hits chance (s.dice.d100 id.number).1 then
              Combat.damage own.stats hero.stats else 0)).2) ∧
      (own.position.isNeighbor hero.position = false →
        (s.route own.position hero.position).isEmpty = false →
          s'.memory.position? id .lastTarget = some hero.position ∧
          own'.position ∈ own.position.neighbors) := by
  have h : (s.focusOn id).Sights own hero := ⟨hworld, hown, hother, hhero, halive, hseen⟩
  have hnoted : ((s.focusOn id).noting hero).memory.position? id .lastTarget =
      some hero.position :=
    s.memory.position?_setPosition id .lastTarget hero.position
  cases hnear : own.position.isNeighbor hero.position with
  | true =>
    obtain ⟨_, b', s', hupdate, rfl, hstruck⟩ :=
      Brain.update_of_promises hbrain hown hready (h.smart_strikes hfair hrange hnear)
        fun _ _ hstruck ↦ h.noting.paysOnce_of_strikes hnear hstruck.2
    obtain ⟨hown', hdice, hmemory, hharm⟩ := h.noting.scene_of_strikes hstruck
    rw [← hmemory] at hnoted
    exact ⟨b', s', _, hupdate, hown', fun _ ↦ ⟨hnoted, rfl, hdice, hharm⟩, by simp⟩
  | false =>
    cases hfound : (s.route own.position hero.position).isEmpty with
    | true =>
      -- there is no way to the player, and the monster is content with something else
      have hnow : (s.focusOn id).isReady = true := by
        rw [Scene.isReady, h.actor]
        exact hready
      obtain ⟨r, s', -, hupdate, p, hp, hstatus, hspends⟩ :=
        b.update_spends hworld.toSeated hfair hnow
      rw [Brain.prospects_of_becomes hbrain] at hp
      rw [← hstatus, status_eq_success (by decide) rules p hp] at hupdate
      obtain ⟨own', hown'⟩ := hspends.inPlay.present
      rw [Scene.actor?, hspends.focus_eq] at hown'
      exact ⟨_, s', own', hupdate, hown', by simp, by simp⟩
    | false =>
      obtain ⟨_, b', s', hupdate, rfl, hstep⟩ :=
        Brain.update_of_promises hbrain hown hready (h.smart_steps hrange hnear hfound)
          fun _ _ hstep ↦ h.noting.paysOnce_of_steps hstep.2
      obtain ⟨next, hnext, rfl⟩ := hstep
      have hown' := s.world.actor_relocate id (own.finishTurn s.rules.turnReady) next
      exact ⟨b', _, _, hupdate, hown', by simp,
        fun _ _ ↦ ⟨hnoted, Position.mem_neighbors_of_isNeighbor hnext⟩⟩

/-- A rat that is ready to act at the end of an alley, and a hero in column `x` of it. -/
def standoff (x : Int32) : Scene where
  focus := .player
  world := (World.ofExtent ⟨4, 1⟩).run
    [.spawnPlayer { name := "hero", position := ⟨x, 0⟩ },
      .spawnActor { name := "rat", position := ⟨0, 0⟩, energy := 150 }]
  memory := .empty
  dice := { seed := 7 }
  rules := {}

theorem standoff_consistent {x : Int32} (hx : x = 1 ∨ x = 3) : (standoff x).world.Consistent := by
  refine (World.ofExtent_consistent ⟨4, 1⟩).run _ ?_
  rcases hx with rfl | rfl <;> decide +kernel

theorem standoff_actors {x : Int32} (hx : x = 1 ∨ x = 3) :
    (standoff x).world.actor? ⟨1⟩ =
        some { id := ⟨1⟩, name := "rat", position := ⟨0, 0⟩, energy := 150 } ∧
      (standoff x).world.player? = some { name := "hero", position := ⟨x, 0⟩ } := by
  rcases hx with rfl | rfl <;> decide +kernel

/-- The rat sets out for the hero at the far end. With the route that it keeps from then it finds
the hero beside it, and strikes. -/
theorem standoff_engages :
    ∃ b s₁ a₁, (Temper.smart.brain {}).update ⟨1⟩ (standoff 3) = .ok (some .success, b, s₁) ∧
      s₁.world.actor? ⟨1⟩ = some a₁ ∧ a₁.position ∈ (⟨0, 0⟩ : Position).neighbors ∧
      s₁.memory.position? ⟨1⟩ .lastTarget = some ⟨3, 0⟩ ∧
      ∃ b' s₂ a₂, b.update ⟨1⟩ (standoff 1) = .ok (some .success, b', s₂) ∧
        s₂.world.actor? ⟨1⟩ = some a₂ ∧ a₂.position = ⟨0, 0⟩ ∧
        s₂.memory.position? ⟨1⟩ .lastTarget = some ⟨1, 0⟩ ∧ s₂.dice = { seed := 7, nonce := 1 } := by
  have hfair : Rules.Fair {} := ⟨by decide, by decide⟩
  obtain ⟨hrat, hhero⟩ := standoff_actors (Or.inr rfl)
  obtain ⟨b, s₁, a₁, hfirst, ha₁, -, haway⟩ := Temper.smart_engages {} .refl
    (standoff_consistent (Or.inr rfl)) hfair (by decide) hrat (by decide) hhero (by decide)
    (by decide) (by decide +kernel)
  have hroute : ((standoff 3).route ⟨0, 0⟩ ⟨3, 0⟩).isEmpty = false := by cbv
  obtain ⟨hknown, hstep⟩ := haway (by decide) hroute
  obtain ⟨hrat', hhero'⟩ := standoff_actors (Or.inl rfl)
  have hlater : (Temper.smart.brain {}).Becomes b := .single ⟨⟨1⟩, standoff 3, _, s₁, hfirst⟩
  obtain ⟨b', s₂, a₂, hsecond, ha₂, hbeside, -⟩ := Temper.smart_engages {} hlater
    (standoff_consistent (Or.inl rfl)) hfair (by decide) hrat' (by decide) hhero' (by decide)
    (by decide) (by decide +kernel)
  obtain ⟨hknown', hstays, hdice, -⟩ := hbeside (by decide)
  exact ⟨b, s₁, a₁, hfirst, ha₁, hstep, hknown, b', s₂, a₂, hsecond, ha₂, hstays, hknown', hdice⟩

end Delve

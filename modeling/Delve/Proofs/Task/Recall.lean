import Delve.Proofs.Coordinates
import Delve.Proofs.Memory
import Delve.Proofs.Task.Hunt
/-!
# Going after the player in two ways

An actor can chase the player, or note where the player stands and go to that cell. The two ways
are written separately: a chase compares the next cell with the player's and stops beside it, and
whoever goes to a noted cell walks on and is refused by the world, for the player is in the way. The
first turns of both come to the same, on any map and among any others, but for what is remembered.
-/

namespace Delve

variable {s : Scene} {own hero : Actor} {p goal next : Position} {topic : Topic}

/-! ## 1. One turn towards a remembered cell -/

theorem Route.isEmpty_of_waypoints {r : Route} {cells : List Position}
    (h : r.waypoints = p :: cells) : r.isEmpty = false := by
  rw [Route.isEmpty, h]
  rfl

theorem Route.next?_of_waypoints {r : Route} {cells : List Position}
    (h : r.waypoints = p :: next :: cells) : r.next? = some next := by
  rw [Route.next?, h]
  rfl

theorem Scene.stepTo_of_canEnter (hown : s.actor? = some own)
    (hnear : own.position.isNeighbor next = true) (hfree : s.world.canEnter next = true) :
    s.stepTo next = .ok (s.withHunter own next) := by
  have hmove : s.world.moveActor s.focus next = .ok (s.world.relocate s.focus own next) :=
    World.moveActor_of_canEnter hown hnear hfree
  rw [Scene.stepTo, hmove]
  rfl

theorem goToRemembered_of_away (hgoal : s.memory.position? s.focus topic = some goal)
    (hp : s.position? = some p) (hne : p ≠ goal) :
    goToRemembered topic s =
      match (s.route p goal).next? with
      | none => (.failure, s.forget topic)
      | some next =>
        match s.stepTo next with
        | .ok s => (.success, s.finishTurn)
        | .error _ => (.failure, s.forget topic) := by
  rw [goToRemembered, hgoal, hp]
  exact if_neg hne

theorem goToRemembered_of_lost (hgoal : s.memory.position? s.focus topic = some goal)
    (hp : s.position? = some p) (hne : p ≠ goal) (hlost : (s.route p goal).isEmpty = true) :
    goToRemembered topic s = (.failure, s.forget topic) := by
  have hnext : (s.route p goal).next? = none := by
    rw [Route.next?, List.isEmpty_iff.mp hlost]
    rfl
  rw [goToRemembered_of_away hgoal hp hne, hnext]

theorem goToRemembered_of_step (hgoal : s.memory.position? s.focus topic = some goal)
    (hown : s.actor? = some own) (hne : own.position ≠ goal)
    (hnext : (s.route own.position goal).next? = some next)
    (hnear : own.position.isNeighbor next = true) (hfree : s.world.canEnter next = true) :
    goToRemembered topic s =
      (.success, s.withHunter (own.finishTurn s.rules.turnReady) next) := by
  rw [goToRemembered_of_away hgoal (Scene.position_of_actor hown) hne, hnext]
  dsimp only
  rw [Scene.stepTo_of_canEnter hown hnear hfree]
  dsimp only
  rw [Scene.finishTurn_withHunter]

theorem goToRemembered_of_refused {e : WorldError}
    (hgoal : s.memory.position? s.focus topic = some goal) (hp : s.position? = some p)
    (hne : p ≠ goal) (hnext : (s.route p goal).next? = some next)
    (hrefused : s.stepTo next = .error e) :
    goToRemembered topic s = (.failure, s.forget topic) := by
  rw [goToRemembered_of_away hgoal hp hne, hnext]
  dsimp only
  rw [hrefused]

/-! ## 2. Noting and going, or chasing -/

/-- There is no route to where somebody stands, or nothing but the last step is left, or the next
cell is free. -/
theorem World.route_cases {w : World} {start : Position} {o : RouteOptions}
    (ho : o.throughActors = false) (hne : goal ≠ start) (hoccupied : w.occupants[goal]? ≠ none) :
    (w.route start goal o).isEmpty = true ∨
      ((w.route start goal o).waypoints = [start, goal] ∧ start.isNeighbor goal = true ∧
        w.isObstacle goal = false) ∨
      ∃ next rest, (w.route start goal o).waypoints = start :: next :: rest ∧
        start.isNeighbor next = true ∧ w.canEnter next = true ∧ next ≠ goal := by
  cases hfound : (w.route start goal o).isEmpty with
  | true => exact Or.inl rfl
  | false =>
    obtain ⟨way, hway, hchain, hbeside, hfree, hground⟩ := exists_way_of_route ho hne hfound
    cases way with
    | nil => exact Or.inr (Or.inl ⟨hway, hbeside, hground⟩)
    | cons next rest =>
      have hcell := (hfree next List.mem_cons_self).2
      refine Or.inr (Or.inr ⟨next, _, hway, (List.isChain_cons_cons.mp hchain).1, hcell, ?_⟩)
      rintro rfl
      exact hoccupied (canEnter_iff.mp hcell).2

namespace Chase

theorem tick_of_unreachable (hp : s.position? = some p) (hgoal : s.targetPosition? = some goal)
    (hlost : (s.route p goal).isEmpty = true) : tick {} s = (.failure, ⟨none, 1⟩, s) := by
  have haim : aim {} s p goal = ⟨none, 1⟩ := by
    show Chase.mk (if (s.route p goal).isEmpty then none else _) _ = _
    rw [hlost]
    rfl
  rw [tick_of_target _ hp hgoal, haim]
  rfl

theorem tick_of_beside (hp : s.position? = some p) (hgoal : s.targetPosition? = some goal)
    (hroute : (s.route p goal).waypoints = [p, goal]) (hnear : p.isNeighbor goal = true) :
    tick {} s = (.failure, ⟨none, 1⟩, s) := by
  have hstart : tick {} s = tick ⟨some ⟨goal, [goal]⟩, 1⟩ s :=
    tick_of_lost hp hgoal (Route.isEmpty_of_waypoints hroute) hroute hnear
  rw [hstart, tick_beside hp hgoal hnear]

theorem tick_of_step {rest : List Position} (hworld : s.world.Seated) (hown : s.actor? = some own)
    (hgoal : s.targetPosition? = some goal)
    (hroute : (s.route own.position goal).waypoints = own.position :: next :: rest)
    (hnear : own.position.isNeighbor next = true) (hfree : s.world.canEnter next = true)
    (hne : next ≠ goal) :
    tick {} s = (.success, ⟨some ⟨goal, rest⟩, 1⟩,
      s.withHunter (own.finishTurn s.rules.turnReady) next) := by
  have hfound := Route.isEmpty_of_waypoints hroute
  have hstart : tick {} s = tick ⟨some ⟨goal, next :: rest⟩, 1⟩ s :=
    tick_of_lost (Scene.position_of_actor hown) hgoal hfound hroute hnear
  have hself : s.withHunter own own.position = s := by
    rw [Scene.withHunter, hworld.relocate_self hown]
  have hhere : next ≠ own.position := (Position.ne_of_isNeighbor hnear).symm
  have hstep : tick ⟨some ⟨goal, next :: rest⟩, 1⟩ (s.withHunter own own.position) = _ :=
    tick_withHunter (by rw [hself, hgoal]) (Or.inl rfl) hnear hhere hfree hne
  rw [hself] at hstep
  exact hstart.trans hstep

end Chase

/-- The two scenes differ in what is remembered, if at all. -/
structure Scene.SameButMemory (s s' : Scene) : Prop where
  focus_eq : s.focus = s'.focus
  world_eq : s.world = s'.world
  dice_eq : s.dice = s'.dice
  rules_eq : s.rules = s'.rules

theorem remember_of_target (hgoal : s.targetPosition? = some goal) :
    remember s = (.success, s.rememberPosition .lastTarget goal) := by
  rw [remember, hgoal]

/-- Whoever notes where the player stands and sets out for that cell comes as far in the first turn
as by chasing the player, and everything but the memory is then as it would be. -/
theorem goToRemembered_agrees_chase (hworld : s.world.Consistent) (hown : s.actor? = some own)
    (hother : s.focus ≠ .player) (hhero : s.world.player? = some hero)
    (halive : hero.isAlive = true) :
    (remember s).1 = .success ∧
      (goToRemembered .lastTarget (remember s).2).1 = (Chase.tick {} s).1 ∧
      (goToRemembered .lastTarget (remember s).2).2.SameButMemory (Chase.tick {} s).2.2 := by
  obtain ⟨-, hheroes, hid⟩ := hworld.toEnrolled.actor_player hhero
  have hp := Scene.position_of_actor hown
  have hgoal : s.targetPosition? = some hero.position :=
    Scene.targetPosition_of_isAlive hhero halive (hid ▸ hother.symm)
  have hne : own.position ≠ hero.position := fun h ↦ hother (hworld.id_unique hown hheroes h)
  have hoccupied := hworld.occupants_eq hheroes
  have hmemory : (s.rememberPosition .lastTarget hero.position).memory.position? s.focus
      .lastTarget = some hero.position :=
    s.memory.position?_setPosition _ _ _
  rw [remember_of_target hgoal]
  refine ⟨rfl, ?_⟩
  rcases World.route_cases (o := s.routeOptions) rfl hne.symm (by rw [hoccupied]; simp) with
    hlost | ⟨hroute, hnear, hground⟩ | ⟨next, rest, hroute, hnear, hfree, hbefore⟩
  · rw [goToRemembered_of_lost hmemory hp hne hlost, Chase.tick_of_unreachable hp hgoal hlost]
    exact ⟨rfl, rfl, rfl, rfl, rfl⟩
  · -- the chase stops by itself, and the world refuses the other way
    have hrefused : (s.rememberPosition .lastTarget hero.position).stepTo hero.position =
        .error (.occupied hero.position) := by
      show Except.map _ (s.world.moveActor s.focus hero.position) = _
      rw [World.moveActor_of_occupied hown hnear hground hoccupied]
      rfl
    have hnext := Route.next?_of_waypoints hroute
    rw [goToRemembered_of_refused hmemory hp hne hnext hrefused,
      Chase.tick_of_beside hp hgoal hroute hnear]
    exact ⟨rfl, rfl, rfl, rfl, rfl⟩
  · have hnext := Route.next?_of_waypoints hroute
    rw [goToRemembered_of_step hmemory hown hne hnext hnear hfree,
      Chase.tick_of_step hworld.toSeated hown hgoal hroute hnear hfree hbefore]
    exact ⟨rfl, rfl, rfl, rfl, rfl⟩

/-- In the alley the rat comes to the cell before it in both ways. -/
theorem alley_agrees :
    Hunt.alley.world.Consistent ∧ (remember Hunt.alley).1 = .success ∧
      (goToRemembered .lastTarget (remember Hunt.alley).2).1 = (Chase.tick {} Hunt.alley).1 ∧
      (goToRemembered .lastTarget (remember Hunt.alley).2).2.world =
        (Chase.tick {} Hunt.alley).2.2.world ∧
      (Chase.tick {} Hunt.alley).1 = .success := by
  have hrat : Hunt.alley.actor? = some { id := ⟨1⟩, name := "rat", position := ⟨0, 0⟩ } := by
    decide +kernel
  have hhero : Hunt.alley.world.player? = some { name := "hero", position := ⟨3, 0⟩ } := by
    decide +kernel
  obtain ⟨hnoted, hstatus, hscene⟩ :=
    goToRemembered_agrees_chase Hunt.alley_consistent hrat (by decide) hhero (by decide)
  refine ⟨Hunt.alley_consistent, hnoted, hstatus, hscene.world_eq, by cbv⟩

end Delve

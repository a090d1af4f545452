import Mathlib
import Delve.Proofs.Route.Widen
import Delve.Proofs.World.Invariant
/-!
# Following a route

A route is found by asking which cells are passable, and followed by steps that are checked by rules
of their own, while every step changes the table of occupied cells that the next one is checked
against. The two sets of rules agree: an actor that follows a route is never refused before the goal,
and there only by somebody who stands on it.
-/

namespace Delve

/-! ## 1. An actor on its way -/

namespace World

variable {w : World} {id : ActorId} {a : Actor} {p q : Position} {cells : List Position}

/-- The world after an actor has stepped from cell to cell. A step that is refused ends the walk. -/
def walkAlong (w : World) (id : ActorId) (cells : List Position) : Except WorldError World :=
  cells.foldlM (fun w p ↦ w.moveActor id p) w

theorem walkAlong_cons (w : World) (id : ActorId) (p : Position) (cells : List Position) :
    w.walkAlong id (p :: cells) = (w.moveActor id p).bind (·.walkAlong id cells) :=
  List.foldlM_cons

theorem Seated.relocate_self (h : w.Seated) (ha : w.actors[id]? = some a) :
    w.relocate id a a.position = w := by
  have hcell : (w.occupants.erase a.position).insert a.position id = w.occupants := by
    rw [insert_erase, insert_of_getElem?_eq_some (h.occupants_eq ha)]
  have hactor : w.actors.insert id { a with position := a.position } = w.actors :=
    insert_of_getElem?_eq_some ha
  rw [World.relocate, hcell, hactor]

/-- Of a cell that an actor has passed no trace is left. -/
theorem relocate_relocate (hp : p = a.position ∨ w.occupants[p]? = none) (q : Position) :
    (w.relocate id a p).relocate id { a with position := p } q = w.relocate id a q := by
  have hfree : (w.occupants.erase a.position)[p]? = none := by
    rw [getElem?_erase_eq_ite]
    by_cases heq : a.position = p
    · rw [if_pos heq]
    · rw [if_neg heq]
      exact hp.resolve_left (Ne.symm heq)
  have hcells : ((w.relocate id a p).occupants.erase p).insert q id =
      (w.occupants.erase a.position).insert q id := by
    rw [relocate, erase_insert_of_getElem?_eq_none hfree]
  have hactors : (w.relocate id a p).actors.insert id { a with position := q } =
      w.actors.insert id { a with position := q } := by
    rw [relocate, insert_insert]
  show ({ w.relocate id a p with
    occupants := ((w.relocate id a p).occupants.erase p).insert q id
    actors := (w.relocate id a p).actors.insert id { a with position := q } } : World) = _
  rw [hcells, hactors]
  rfl

theorem occupants_relocate_of_ne (hown : q ≠ a.position) (hne : p ≠ q) :
    (w.relocate id a p).occupants[q]? = w.occupants[q]? := by
  rw [relocate, getElem?_insert_of_ne _ hne, getElem?_erase_of_ne _ hown.symm]

/-- From wherever the actor has come to, the next step goes through if its cell was free at the
start. -/
theorem moveActor_relocate (hp : p = a.position ∨ w.occupants[p]? = none)
    (hnear : p.isNeighbor q = true) (hown : q ≠ a.position) (hq : w.canEnter q = true) :
    (w.relocate id a p).moveActor id q = .ok (w.relocate id a q) := by
  have hne : p ≠ q := Position.ne_of_isNeighbor hnear
  have hactor := w.actor_relocate id a p
  have hfree : (w.relocate id a p).canEnter q = true := by
    rw [canEnter_iff] at hq ⊢
    rw [occupants_relocate_of_ne hown hne]
    exact hq
  rw [moveActor_of_canEnter hactor hnear hfree, relocate_relocate hp]

/-- By induction on the cells that are left: after every step the world is the first one with the
actor somewhere else. -/
theorem walkAlong_relocate (hp : p = a.position ∨ w.occupants[p]? = none)
    (hchain : (p :: cells).IsChain fun x y ↦ x.isNeighbor y = true)
    (hfree : ∀ c ∈ cells, c ≠ a.position ∧ w.canEnter c = true) :
    (w.relocate id a p).walkAlong id cells = .ok (w.relocate id a (cells.getLastD p)) := by
  induction cells generalizing p with
  | nil => rfl
  | cons c cells ih =>
    obtain ⟨hnear, hrest⟩ := List.isChain_cons_cons.mp hchain
    obtain ⟨hown, hc⟩ := hfree c List.mem_cons_self
    have hlater : ∀ d ∈ cells, d ≠ a.position ∧ w.canEnter d = true :=
      fun d hd ↦ hfree d (List.mem_cons_of_mem c hd)
    rw [walkAlong_cons, moveActor_relocate hp hnear hown hc]
    have hcells := ih (Or.inr (canEnter_iff.mp hc).2) hrest hlater
    rw [List.getLastD_cons]
    exact hcells

end World

/-! ## 2. The cells of a route -/

theorem RouteQuery.Leads.isNeighbor {query : RouteQuery} {b c : Position} (h : query.Leads b c)
    (hinner : c.IsInner) : b.isNeighbor c = true := by
  obtain ⟨d, hd, rfl, -⟩ := h
  exact Position.isNeighbor_offset_of_isInner (query.options.steps_subset hd) hinner

/-- A walk that leads somewhere else has a first and a last cell and a way between them. -/
theorem RouteQuery.Walk.exists_way {query : RouteQuery} {cells : List Position} {goal : Position}
    (h : query.Walk cells goal) (hgoal : goal ≠ query.start) :
    ∃ way, cells = query.start :: (way ++ [goal]) := by
  cases cells with
  | nil => exact absurd rfl h.ne_nil
  | cons first rest =>
    obtain rfl : first = query.start := by simpa using h.head
    rcases List.eq_nil_or_concat rest with rfl | ⟨way, last, rfl⟩
    · have hlast : some query.start = some goal := h.last
      exact absurd (Option.some.inj hlast).symm hgoal
    · obtain rfl : last = goal := by
        have hlast := h.last
        rw [List.concat_eq_append, ← List.cons_append, List.getLast?_concat] at hlast
        exact Option.some.inj hlast
      exact ⟨way, by rw [List.concat_eq_append]⟩

namespace World

variable {w : World} {start goal cell : Position} {o : RouteOptions}

theorem isObstacle_of_isPassable {through : Bool} (h : w.isPassable through goal cell = true) :
    w.isObstacle cell = false := by
  rw [isPassable, Bool.and_eq_true, Bool.and_eq_true, Bool.not_eq_true'] at h
  exact h.1.2

/-- What the search lets through is free to step onto, but for the goal. -/
theorem canEnter_of_isPassable (h : w.isPassable false goal cell = true) (hgoal : cell ≠ goal) :
    w.canEnter cell = true := by
  have hground := isObstacle_of_isPassable h
  rw [isPassable, Bool.and_eq_true, Bool.false_or, Bool.or_eq_true, beq_iff_eq,
    Option.isNone_iff_eq_none] at h
  exact canEnter_iff.mpr ⟨hground, h.2.resolve_left hgoal⟩

/-- The steps of a route around actors lead to neighbours, every cell between its ends is free, and
there is no obstacle at the goal. -/
theorem exists_way_of_route (ho : o.throughActors = false) (hgoal : goal ≠ start)
    (hfound : (w.route start goal o).isEmpty = false) :
    ∃ way, (w.route start goal o).waypoints = start :: (way ++ [goal]) ∧
      (start :: way).IsChain (fun x y ↦ x.isNeighbor y = true) ∧
      (way.getLastD start).isNeighbor goal = true ∧
      (∀ c ∈ way, c ≠ start ∧ w.canEnter c = true) ∧ w.isObstacle goal = false := by
  obtain ⟨hwalk, hnodup, -, -⟩ := (w.routeQuery start goal o).route_waypoints hfound
  obtain ⟨way, hway⟩ := hwalk.exists_way hgoal
  change _ = start :: (way ++ [goal]) at hway
  rw [hway] at hwalk hnodup
  have hpassable : ∀ c ∈ way ++ [goal], c ≠ start ∧ w.isPassable false goal c = true := by
    intro c hc
    have hne : c ≠ start := by
      rintro rfl
      exact (List.nodup_cons.mp hnodup).1 hc
    have hpass := (hwalk.passable_or_start c (List.mem_cons_of_mem _ hc)).resolve_left hne
    rw [← ho]
    exact ⟨hne, hpass⟩
  have hchain : (start :: way ++ [goal]).IsChain fun x y ↦ x.isNeighbor y = true := by
    refine hwalk.leads.imp fun x y hxy ↦ hxy.isNeighbor ?_
    obtain ⟨_, _, _, hy⟩ := hxy
    exact isInner_of_isPassable hy
  obtain ⟨hsteps, -, hnear⟩ := List.isChain_append.mp hchain
  refine ⟨way, hway, hsteps, ?_, ?_, isObstacle_of_isPassable (hpassable goal (by simp)).2⟩
  · refine hnear _ ?_ goal rfl
    rw [List.getLast?_cons, List.getLastD_eq_getLast?]
    rfl
  · intro c hc
    obtain ⟨hne, hpass⟩ := hpassable c (List.mem_append_left _ hc)
    refine ⟨hne, canEnter_of_isPassable hpass ?_⟩
    -- the route comes to no cell twice, so it is not at the goal before its end
    rintro rfl
    have hlater := (List.nodup_cons.mp hnodup).2
    exact (List.nodup_append.mp hlater).2.2 c hc c (List.mem_singleton_self c) rfl

/-! ## 3. Following it -/

/-- Whoever follows a route from its own cell comes to the last cell before the goal without being
refused, and nothing else in the world has changed then. The step onto the goal goes through if
nobody else stands there, and is refused for that reason otherwise. -/
theorem route_walkable {id : ActorId} {a : Actor} (hw : w.Seated) (ha : w.actor? id = some a)
    (hgoal : goal ≠ a.position) (ho : o.throughActors = false)
    (hfound : (w.route a.position goal o).isEmpty = false) :
    ∃ way w', (w.route a.position goal o).waypoints = a.position :: (way ++ [goal]) ∧
      w.walkAlong id way = .ok w' ∧ w' = w.relocate id a (way.getLastD a.position) ∧
      ((∀ i b, i ≠ id → w.actor? i = some b → b.position ≠ goal) →
        w'.moveActor id goal = .ok (w.relocate id a goal)) ∧
      ∀ i b, i ≠ id → w.actor? i = some b → b.position = goal →
        w'.moveActor id goal = .error (.occupied goal) := by
  obtain ⟨way, hway, hsteps, hnear, hfree, hground⟩ := exists_way_of_route ho hgoal hfound
  have hlast : way.getLastD a.position = a.position ∨
      w.occupants[way.getLastD a.position]? = none := by
    rcases List.eq_nil_or_concat way with rfl | ⟨before, last, rfl⟩
    · exact Or.inl rfl
    · rw [List.concat_eq_append, List.getLastD_concat]
      exact Or.inr (canEnter_iff.mp (hfree last (by simp)).2).2
  refine ⟨way, _, hway, ?_, rfl, ?_, ?_⟩
  · have hwalk : (w.relocate id a a.position).walkAlong id way =
        .ok (w.relocate id a (way.getLastD a.position)) :=
      walkAlong_relocate (Or.inl rfl) hsteps hfree
    rwa [hw.relocate_self ha] at hwalk
  · intro hnobody
    refine moveActor_relocate hlast hnear hgoal (canEnter_iff.mpr ⟨hground, ?_⟩)
    cases hcell : w.occupants[goal]? with
    | none => rfl
    | some i =>
      -- the table of occupied cells names somebody, and the actor itself is not at the goal
      obtain ⟨b, hb, hposition⟩ := (hw.occupants_iff goal i).mp hcell
      have hi : i ≠ id := by
        rintro rfl
        have hb : w.actor? i = some b := hb
        rw [ha] at hb
        cases hb
        exact hgoal hposition.symm
      exact absurd hposition (hnobody i b hi hb)
  · intro i b _ hb hposition
    have hactor : (w.relocate id a (way.getLastD a.position)).actors[id]? =
        some { a with position := way.getLastD a.position } := by
      rw [relocate, getElem?_insert_eq_ite, if_pos rfl]
    refine moveActor_of_occupied hactor hnear hground (i := i) ?_
    rw [occupants_relocate_of_ne hgoal (Position.ne_of_isNeighbor hnear)]
    exact (hw.occupants_iff goal i).mpr ⟨b, hb, hposition⟩

/-- A rat with a hero across a corridor of three cells. -/
def corridor : World :=
  { (ofExtent ⟨3, 1⟩).settle .player { name := "hero", position := ⟨2, 0⟩ } with
    playerId := some .player }.settle ⟨1⟩ { name := "rat", position := ⟨0, 0⟩ }

/-- The rat comes up to the hero, and the hero is in its way. -/
theorem corridor_walkable :
    corridor.Seated ∧ ∃ w', (corridor.route ⟨0, 0⟩ ⟨2, 0⟩ {}).waypoints = [⟨0, 0⟩, ⟨1, 0⟩, ⟨2, 0⟩] ∧
      corridor.walkAlong ⟨1⟩ [⟨1, 0⟩] = .ok w' ∧
      w'.moveActor ⟨1⟩ ⟨2, 0⟩ = .error (.occupied ⟨2, 0⟩) := by
  have hseated : corridor.Seated :=
    ((ofExtent_consistent ⟨3, 1⟩).toSeated.settlePlayer (a := { name := "hero", position := ⟨2, 0⟩ })
      (by decide +kernel) (by decide +kernel)).settle (by decide +kernel) (by decide +kernel)
  have hrat : corridor.actor? ⟨1⟩ = some { id := ⟨1⟩, name := "rat", position := ⟨0, 0⟩ } := by
    decide +kernel
  have hhero : corridor.actor? .player = some { name := "hero", position := ⟨2, 0⟩ } := by
    decide +kernel
  have hroute : corridor.route ⟨0, 0⟩ ⟨2, 0⟩ {} = ⟨[⟨0, 0⟩, ⟨1, 0⟩, ⟨2, 0⟩], 20⟩ := by cbv
  have hfound : (corridor.route ⟨0, 0⟩ ⟨2, 0⟩ {}).isEmpty = false := by
    rw [hroute]
    rfl
  obtain ⟨way, w', hway, hwalk, -, -, hrefused⟩ :=
    route_walkable hseated hrat (by decide) rfl hfound
  rw [hroute] at hway
  have hcells : [⟨1, 0⟩] ++ [⟨2, 0⟩] = way ++ [⟨2, 0⟩] := (List.cons.inj hway).2
  obtain rfl := List.append_cancel_right hcells
  exact ⟨hseated, w', by rw [hroute], hwalk, hrefused .player _ (by decide) hhero rfl⟩

end World

end Delve

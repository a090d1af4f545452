import Delve.Proofs.Route.Following
/-!
# The rest of a way

Whoever has taken the first step of a route and searches again searches another map: the cell that
was left is free now, and the next one is taken. Neither change matters. What is left of the old
route is a walk on the new map, because it comes back to neither cell, and a walk on the new map with
the step in front of it is no shorter than one on the old map. So a new search finds a route again,
which costs as much as was left of the old one, though it may be another route.
-/

namespace Delve

/-! ## 1. The cost of a route is that of its cells -/

namespace Search

variable {q : RouteQuery} {labels : CellMap RouteLabel} {closed : Std.ExtTreeSet Position}
  {w : List Position} {c : Position}

/-- Where the labels of closed cells leave room for one more step, no label of a lineage has run
over. -/
theorem Lineage.toNat_cost (h : Lineage q labels closed w c)
    (hroom : ∀ a ∈ closed, ∀ l, labels[a]? = some l → l.cost.toNat + 20 < 2 ^ 32) :
    ∃ l, labels[c]? = some l ∧ l.cost.toNat = walkCost w := by
  induction h with
  | start hl => exact ⟨_, hl, rfl⟩
  | @child w a b d l hw hclosed _ hl _ hab _ hb ih =>
    obtain ⟨l', hl', hcost⟩ := ih
    obtain rfl : l' = l := Option.some_inj.mp (hl'.symm.trans hl)
    have hparent := hroom a (hclosed a (List.mem_of_getLast? hw.walk.last)) l' hl
    have hstep := (toNat_stepCost_mem d.1 d.2).2
    refine ⟨_, hb, ?_⟩
    rw [walkCost_concat hw.walk.last, ← hab, legCost_offset, ← hcost, UInt32.toNat_add,
      Nat.mod_eq_of_lt (by omega)]

end Search

namespace RouteQuery

variable {q q' : RouteQuery} {c : Position} {v rest : List Position} {r : Route}

theorem Ending.toNat_cost (hend : q.Ending r) (hq : q.Roomy) (hfound : r.isEmpty = false) :
    r.cost.toNat = walkCost r.waypoints := by
  cases hend with
  | here => rfl
  | barred | exhausted | overBudget => cases hfound
  | found _ hs hmin _ hcell =>
    have hl := Std.ExtTreeMap.getElem?_eq_some_getElem
      (hs.rooted.queued _ _ (getElem?_of_first hmin))
    obtain ⟨w, hw, hroute⟩ := hs.rooted.routeTo_eq hl
    obtain ⟨l, hl', hcost⟩ := hw.toNat_cost fun a ha l hl ↦ by
      have hroom := (hs.exact hq).roomy a ha l hl
      omega
    obtain rfl := Option.some_inj.mp (hl.symm.trans hl')
    rw [← hcell, hroute]
    exact hcost

/-! ## 2. One step on -/

/-- `q'` asks for the rest of the way, to the same goal, from a cell that is one step on, and nothing
has changed but for the cells that the step leads from and to. -/
structure Onward (q q' : RouteQuery) : Prop where
  leads : q.Leads q.start q'.start
  goal_eq : q'.goal = q.goal
  options_eq : q'.options = q.options
  passable_eq : ∀ c, c ≠ q.start → c ≠ q'.start → q'.passable c = q.passable c

/-- What is left of a walk that comes to no cell twice. -/
theorem Walk.onward (h : q.Onward q') (hw : q.Walk (q.start :: q'.start :: rest) c)
    (hnodup : (q.start :: q'.start :: rest).Nodup) : q'.Walk (q'.start :: rest) c := by
  obtain ⟨hstart, hnodup⟩ := List.nodup_cons.mp hnodup
  have hnext := (List.nodup_cons.mp hnodup).1
  refine ⟨rfl, ?_, ?_⟩
  · have hlast := hw.last
    rwa [List.getLast?_cons_cons] at hlast
  · refine hw.leads.tail.imp_of_mem_tail_imp fun a b _ hb hab ↦ ?_
    obtain ⟨d, hd, hstep, hpass⟩ := hab
    -- the walk comes back to neither of the two cells that have changed
    have hbstart : b ≠ q.start := by
      rintro rfl
      exact hstart (List.mem_cons_of_mem _ hb)
    have hbnext : b ≠ q'.start := by
      rintro rfl
      exact hnext hb
    rw [← h.options_eq] at hd
    exact ⟨d, hd, hstep, (h.passable_eq b hbstart hbnext).trans hpass⟩

/-- A walk with the step in front of it, cut short where it comes back to the start. -/
theorem Walk.exists_before (h : q.Onward q') (hv : q'.Walk v c) :
    ∃ u, q.Walk u c ∧ walkCost u ≤ legCost q.start q'.start + walkCost v := by
  induction hv using Walk.concat_induction with
  | start => exact ⟨_, (Walk.start q).concat h.leads, Nat.le_refl _⟩
  | concat v a b hv hab ih =>
    obtain ⟨u, hu, hcost⟩ := ih
    by_cases hb : b = q.start
    · -- the start is free now, but from there on nothing has to be walked at all
      subst hb
      exact ⟨_, Walk.start q, Nat.zero_le _⟩
    · obtain ⟨d, hd, hstep, hpass⟩ := hab
      have hpass : q.passable b = true := by
        by_cases hnext : b = q'.start
        · obtain ⟨_, _, _, hpass⟩ := h.leads
          rwa [hnext]
        · rwa [← h.passable_eq b hb hnext]
      rw [h.options_eq] at hd
      refine ⟨u ++ [b], hu.concat ⟨d, hd, hstep, hpass⟩, ?_⟩
      rw [walkCost_concat hu.last, walkCost_concat hv.last]
      omega

/-- After the first step of a route there is a route again, and it costs less by what the step
costs. -/
theorem Onward.route (h : q.Onward q') (hbudget : q.options.budget = none)
    (hinner : ∀ c, q.passable c = true → c.IsInner)
    (hinner' : ∀ c, q'.passable c = true → c.IsInner) (hfound : q.route.isEmpty = false)
    (hcells : q.route.waypoints = q.start :: q'.start :: rest)
    (hcost : walkCost q.route.waypoints + 22 < 2 ^ 32) :
    q'.route.isEmpty = false ∧
      q.route.cost.toNat = legCost q.start q'.start + q'.route.cost.toNat ∧
      q'.route.cost.toNat = walkCost q'.route.waypoints := by
  obtain ⟨hwalk, hnodup, -, hexact⟩ := q.route_waypoints hfound
  have hq := hwalk.roomy hcost hinner
  have hqcost := hexact (by omega)
  rw [hcells] at hwalk hnodup hqcost hcost
  rw [walkCost] at hqcost hcost
  have hrest := hwalk.onward h hnodup
  rw [← h.goal_eq] at hrest
  have hq' : q'.Roomy := hrest.roomy (by omega) hinner'
  rw [← h.options_eq] at hbudget
  have hfound' := (q'.route_complete hbudget).mpr ⟨_, hrest⟩
  have hleast := q.ending.least hq hfound
  have hleast' := q'.ending.least hq' hfound'
  refine ⟨hfound', ?_, q'.ending.toNat_cost hq' hfound'⟩
  -- the rest of the old route is as good as the new one, and the step with the new one as the old
  have hle := hleast'.2 ⟨_, hrest, rfl⟩
  obtain ⟨v, hv, hvcost⟩ := hleast'.1
  obtain ⟨u, hu, hucost⟩ := hv.exists_before h
  rw [h.goal_eq] at hu
  have hge := hleast.2 ⟨u, hu, rfl⟩
  omega

end RouteQuery

/-! ## 3. After a step -/

namespace World

variable {w : World} {id : ActorId} {a : Actor} {goal next cell : Position} {o : RouteOptions}
  {rest : List Position}

theorem isPassable_relocate (hown : cell ≠ a.position) (hnext : cell ≠ next) (through : Bool) :
    (w.relocate id a next).isPassable through goal cell = w.isPassable through goal cell := by
  have hcell : (w.relocate id a next).occupantAt? cell = w.occupantAt? cell :=
    occupants_relocate_of_ne hown hnext.symm
  rw [isPassable, hcell]
  rfl

theorem onward_relocate (h : (w.routeQuery a.position goal o).Leads a.position next) :
    (w.routeQuery a.position goal o).Onward ((w.relocate id a next).routeQuery next goal o) where
  leads := h
  goal_eq := rfl
  options_eq := rfl
  passable_eq _ hown hnext := isPassable_relocate hown hnext _

theorem leads_of_route (hfound : (w.route a.position goal o).isEmpty = false)
    (hcells : (w.route a.position goal o).waypoints = a.position :: next :: rest) :
    (w.routeQuery a.position goal o).Leads a.position next := by
  obtain ⟨hwalk, -⟩ := (w.routeQuery a.position goal o).route_waypoints hfound
  have hleads := hwalk.leads
  change (w.route a.position goal o).waypoints.IsChain _ at hleads
  rw [hcells] at hleads
  exact (List.isChain_cons_cons.mp hleads).1

/-- An actor that has taken the first step of a route finds a route from where it is, for as much
less as the step has cost. -/
theorem route_relocate (hbudget : o.budget = none)
    (hfound : (w.route a.position goal o).isEmpty = false)
    (hcells : (w.route a.position goal o).waypoints = a.position :: next :: rest)
    (hcost : walkCost (w.route a.position goal o).waypoints + 22 < 2 ^ 32) :
    ((w.relocate id a next).route next goal o).isEmpty = false ∧
      (w.route a.position goal o).cost.toNat =
        legCost a.position next + ((w.relocate id a next).route next goal o).cost.toNat ∧
      ((w.relocate id a next).route next goal o).cost.toNat =
        walkCost ((w.relocate id a next).route next goal o).waypoints :=
  (onward_relocate (leads_of_route hfound hcells)).route hbudget
    (fun _ ↦ isInner_of_isPassable) (fun _ ↦ isInner_of_isPassable) hfound hcells hcost

/-- Where nobody stands at the goal, whatever the search lets through is free to step onto. -/
theorem canEnter_of_isPassable_of_free (h : w.isPassable false goal cell = true)
    (hgoal : w.occupants[goal]? = none) : w.canEnter cell = true := by
  by_cases hcell : cell = goal
  · rw [canEnter_iff, hcell]
    rw [hcell] at h
    exact ⟨isObstacle_of_isPassable h, hgoal⟩
  · exact canEnter_of_isPassable h hcell

end World

end Delve

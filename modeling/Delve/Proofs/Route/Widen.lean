import Delve.Proofs.Route.Cheapest
import Delve.Proofs.World.Ground
import Delve.World.Route
/-!
# Routes where there is more room

Two searches are compared here that run on different maps, of which one bars nothing that the other
lets through, and may step diagonally where the other may not. Neither search can be followed along
the other, but walks can: what is a walk on the first map is one on the second, and the answers of
both are known from their walks.
-/

namespace Delve

/-! ## 1. Queries -/

namespace RouteQuery

variable {q q' : RouteQuery} {a b c : Position} {w : List Position}

/-- Both ask for the same route under the same budget, and `q'` lets through whatever `q` does, by
the same steps or by all eight. -/
structure Widens (q q' : RouteQuery) : Prop where
  start_eq : q'.start = q.start
  goal_eq : q'.goal = q.goal
  budget_eq : q'.options.budget = q.options.budget
  diagonals : q.options.diagonals = true → q'.options.diagonals = true
  passable : ∀ c, q.passable c = true → q'.passable c = true

theorem Widens.steps_subset (h : q.Widens q') : q.options.steps ⊆ q'.options.steps := by
  by_cases hdiagonals : q.options.diagonals = true
  · rw [RouteOptions.steps, RouteOptions.steps, if_pos hdiagonals, if_pos (h.diagonals hdiagonals)]
    exact List.Subset.refl _
  · rw [RouteOptions.steps, if_neg hdiagonals]
    exact q'.options.orthogonalSteps_subset

theorem Leads.widens (hab : q.Leads a b) (h : q.Widens q') : q'.Leads a b := by
  obtain ⟨d, hd, hstep, hpass⟩ := hab
  exact ⟨d, h.steps_subset hd, hstep, h.passable b hpass⟩

theorem Walk.widens (hw : q.Walk w c) (h : q.Widens q') : q'.Walk w c where
  head := by rw [h.start_eq, hw.head]
  last := hw.last
  leads := hw.leads.imp fun _ _ hab ↦ hab.widens h

theorem Widens.isEmpty_eq_false (h : q.Widens q') (hbudget : q.options.budget = none)
    (hfound : q.route.isEmpty = false) : q'.route.isEmpty = false := by
  have hwalk := (q.route_waypoints hfound).1.widens h
  rw [← h.goal_eq] at hwalk
  rw [← h.budget_eq] at hbudget
  exact (q'.route_complete hbudget).mpr ⟨_, hwalk⟩

/-- The route of `q` is a walk for `q'` too, and leaves its search all the room that it needs. -/
theorem Widens.cost_le (h : q.Widens q') (hbudget : q.options.budget = none)
    (hinner : ∀ c, q'.passable c = true → c.IsInner) (hfound : q.route.isEmpty = false)
    (hcost : walkCost q.route.waypoints + 22 < 2 ^ 32) : q'.route.cost ≤ q.route.cost := by
  obtain ⟨hwalk, -, -, hexact⟩ := q.route_waypoints hfound
  have hwalk' : q'.Walk q.route.waypoints q'.goal := by
    rw [h.goal_eq]
    exact hwalk.widens h
  have hleast := q'.ending.least (hwalk'.roomy hcost hinner) (h.isEmpty_eq_false hbudget hfound)
  rw [UInt32.le_iff_toNat_le, hexact (by omega)]
  exact hleast.2 ⟨_, hwalk', rfl⟩

end RouteQuery

/-! ## 2. Worlds -/

namespace World

variable {w w' : World} {o : RouteOptions}

theorem isInner_of_isPassable {through : Bool} {goal cell : Position}
    (h : w.isPassable through goal cell = true) : cell.IsInner := by
  rw [isPassable, Bool.and_eq_true, Bool.and_eq_true] at h
  exact Extent.isInner_of_contains h.1.1

/-- Routes that may pass through actors depend on nothing but the ground. -/
theorem Opens.widens (h : w.Opens w') (ho : o.throughActors = true) (a b : Position) :
    (w.routeQuery a b o).Widens (w'.routeQuery a b o) := by
  refine ⟨rfl, rfl, rfl, id, fun c hc ↦ ?_⟩
  simp only [routeQuery, isPassable, ho, Bool.true_or, Bool.and_true, Bool.and_eq_true,
    Bool.not_eq_true'] at hc ⊢
  rw [h.inBounds_eq]
  exact ⟨hc.1, h.isObstacle_eq_false hc.2⟩

end World

end Delve

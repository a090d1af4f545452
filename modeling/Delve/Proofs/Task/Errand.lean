import Delve.Proofs.Route.Onward
import Delve.Proofs.Task.Recall
import Delve.Proofs.Task.Trail
/-!
# Errands

An actor that goes to a cell it remembers searches for a route anew in every turn, and each search
sees the actor itself on another cell. That it comes to the goal does not follow from its keeping to
a route, for it may change from one to another. It follows from what a route costs: every step makes
what is left of the way cheaper by its own cost, so that no cell is come to twice.
-/

namespace Delve

/-- An actor has set out for a cell that it remembers, and may be there already. Otherwise nobody
stands there. There is a route, of a cost that can be held in a word with room for the step after
it. -/
structure Errand (topic : Topic) (goal : Position) (own : Actor) (s : Scene) : Prop where
  actor : s.actor? = some own
  remembered : s.memory.position? s.focus topic = some goal
  free : own.position = goal ∨ s.world.occupantAt? goal = none
  unbudgeted : s.rules.pathSearchBudget = 0
  found : (s.route own.position goal).isEmpty = false
  fits : walkCost (s.route own.position goal).waypoints + 22 < 2 ^ 32

namespace Errand

variable {topic : Topic} {goal next : Position} {own : Actor} {s : Scene} {rest : List Position}

theorem budget_eq (h : Errand topic goal own s) : s.routeOptions.budget = none := by
  show s.rules.searchBudget = none
  rw [Rules.searchBudget, h.unbudgeted]
  rfl

theorem exists_next (h : Errand topic goal own s) (haway : own.position ≠ goal) :
    ∃ next rest, (s.route own.position goal).waypoints = own.position :: next :: rest := by
  obtain ⟨hwalk, -⟩ := (s.routeQuery own.position goal).route_waypoints h.found
  obtain ⟨way, hway⟩ := hwalk.exists_way haway.symm
  change (s.route own.position goal).waypoints = own.position :: (way ++ [goal]) at hway
  cases way with
  | nil => exact ⟨goal, [], hway⟩
  | cons next way => exact ⟨next, way ++ [goal], hway⟩

theorem toNat_cost (h : Errand topic goal own s) : (s.route own.position goal).cost.toNat =
    walkCost (s.route own.position goal).waypoints := by
  obtain ⟨-, -, -, hexact⟩ := (s.routeQuery own.position goal).route_waypoints h.found
  exact hexact (Nat.lt_of_le_of_lt (Nat.le_add_right _ 22) h.fits)

section Step

variable (h : Errand topic goal own s)
  (hcells : (s.route own.position goal).waypoints = own.position :: next :: rest)

include h hcells

theorem leads : (s.routeQuery own.position goal).Leads own.position next :=
  World.leads_of_route h.found hcells

theorem isNeighbor : own.position.isNeighbor next = true :=
  (h.leads hcells).isNeighbor (Scene.isInner_of_leads (h.leads hcells))

/-- The turn takes the first step of the route. -/
theorem tick_eq (haway : own.position ≠ goal) : goToRemembered topic s =
    (.success, s.withHunter (own.finishTurn s.rules.turnReady) next) := by
  obtain ⟨_, _, _, hpass⟩ := h.leads hcells
  have hfree : s.world.canEnter next = true :=
    World.canEnter_of_isPassable_of_free hpass (h.free.resolve_left haway)
  exact goToRemembered_of_step h.remembered h.actor haway (Route.next?_of_waypoints hcells)
    (h.isNeighbor hcells) hfree

theorem route_step {s' : Scene}
    (hs' : s' = s.withHunter (own.finishTurn s.rules.turnReady) next) :
    (s'.route next goal).isEmpty = false ∧
      (s.route own.position goal).cost.toNat =
        legCost own.position next + (s'.route next goal).cost.toNat ∧
      (s'.route next goal).cost.toNat = walkCost (s'.route next goal).waypoints := by
  subst hs'
  exact World.route_relocate h.budget_eq h.found hcells h.fits

/-- After the turn the actor is on the same errand. -/
theorem step (haway : own.position ≠ goal) {s' : Scene}
    (hs' : s' = s.withHunter (own.finishTurn s.rules.turnReady) next) :
    Errand topic goal { own.finishTurn s.rules.turnReady with position := next } s' := by
  obtain ⟨hfound, hcost, hexact⟩ := h.route_step hcells hs'
  -- the new route may go through other cells, but its cost is exact and is a part of the old one
  have hfits : walkCost (s'.route next goal).waypoints + 22 < 2 ^ 32 := by
    have hfits := h.fits
    have hbefore := h.toNat_cost
    omega
  have hfree : next = goal ∨ s'.world.occupantAt? goal = none := by
    by_cases hnext : next = goal
    · exact Or.inl hnext
    · have hsame : s'.world.occupantAt? goal = s.world.occupantAt? goal := by
        rw [hs']
        exact World.occupants_relocate_of_ne haway.symm hnext
      exact Or.inr (hsame.trans (h.free.resolve_left haway))
  have hactor : s'.actor? = some { own.finishTurn s.rules.turnReady with position := next } := by
    rw [hs']
    exact s.world.actor_relocate s.focus _ next
  subst hs'
  exact ⟨hactor, h.remembered, hfree, h.unbudgeted, hfound, hfits⟩

end Step

/-- A turn away from the goal takes a step, pays for it with a part of what the route costs, and
leaves the errand as it is. -/
theorem turn (h : Errand topic goal own s) (haway : own.position ≠ goal) :
    ∃ own' s', goToRemembered topic s = (.success, s') ∧ Errand topic goal own' s' ∧
      own.position.isNeighbor own'.position = true ∧ s'.rules = s.rules ∧ s'.focus = s.focus ∧
      (s.route own.position goal).cost.toNat =
        legCost own.position own'.position + (s'.route own'.position goal).cost.toNat ∧
      (s.WithoutDiagonals → legCost own.position own'.position = 10) := by
  obtain ⟨next, rest, hcells⟩ := h.exists_next haway
  obtain ⟨-, hcost, -⟩ := h.route_step hcells rfl
  exact ⟨_, _, h.tick_eq hcells haway, h.step hcells haway rfl, h.isNeighbor hcells, rfl, rfl,
    hcost, (h.leads hcells).legCost_eq⟩

end Errand

/-! ## 2. Turn after turn -/

namespace Errand

variable {topic : Topic} {goal : Position} {own : Actor} {s : Scene}

end Errand

/-! ## 3. The end of an errand -/

end Delve

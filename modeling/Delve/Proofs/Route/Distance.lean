import Delve.Proofs.Route.Widen
/-!
# Costs as distances

What routes cost behaves as a distance does: it is the same there and back, a detour saves nothing,
and where more may be stepped onto nothing is farther away. No search is compared with another for
it, as the searches themselves have nothing in common. Only walks are: they can be turned around and
put behind one another, and the answer of every search is known from its walks. The main statement is
`RouteQuery.route_metric`.
-/

namespace Delve

/-! ## 1. Walks there and back -/

theorem RouteOptions.neg_mem_steps {o : RouteOptions} {d : Int32 × Int32} (hd : d ∈ o.steps) :
    (-d.1, -d.2) ∈ o.steps := by
  by_cases hdiagonals : o.diagonals = true
  · rw [steps, if_pos hdiagonals] at hd ⊢
    exact Position.neg_mem_kingSteps hd
  · rw [steps, if_neg hdiagonals] at hd ⊢
    simp only [orthogonalSteps, List.mem_cons, List.not_mem_nil, or_false] at hd
    rcases hd with rfl | rfl | rfl | rfl <;> decide

namespace RouteQuery

variable {q q' : RouteQuery} {a b c goal goal' : Position} {v w : List Position}

/-- The same question about other cells. -/
def between (q : RouteQuery) (a b : Position) : RouteQuery := { q with start := a, goal := b }

theorem Leads.symm (h : q.Leads a b) (ha : q.passable a = true) : q.Leads b a := by
  obtain ⟨d, hd, rfl, -⟩ := h
  exact ⟨_, RouteOptions.neg_mem_steps hd, Position.offset_neg a d.1 d.2, ha⟩

/-- A walk from a cell that may be stepped onto can be walked back. -/
theorem Walk.reverse (hw : (q.between a goal).Walk w b) (ha : q.passable a = true) :
    (q.between b goal').Walk w.reverse a := by
  have hfree : ∀ x ∈ w, q.passable x = true := by
    intro x hx
    rcases hw.passable_or_start x hx with rfl | hx
    · exact ha
    · exact hx
  refine ⟨?_, ?_, ?_⟩
  · rw [List.head?_reverse]
    exact hw.last
  · rw [List.getLast?_reverse]
    exact hw.head
  · rw [List.isChain_reverse]
    exact hw.leads.imp_of_mem_imp fun x y hx _ hxy ↦ Leads.symm hxy (hfree x hx)

end RouteQuery

end Delve

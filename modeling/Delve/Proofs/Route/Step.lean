import Mathlib.Logic.Relation
import Delve.Proofs.Map
import Delve.Proofs.Route.Walk
/-!
# The steps of a search

What a single step of a search can do, said once, and the fact that every search comes to an end:
`RouteQuery.ending` lists the ways in which it can end.
-/

namespace Delve

/-! ## 1. Steps -/

theorem QueueRank.estimate_le_of_isLE {r r' : QueueRank} (h : (compare r r').isLE) :
    r.estimate ≤ r'.estimate := by
  have h : ((compare r.estimate r'.estimate).then (compare r.arrival r'.arrival)).isLE := h
  rw [Ordering.isLE_then_iff_and] at h
  exact Std.isLE_compare.mp h.1

/-- The cell that a step from an entry leads to. -/
def QueueEntry.reach (e : QueueEntry) (d : Int32 × Int32) : Position :=
  e.cell.offset d.1 d.2

namespace Search

variable {q : RouteQuery} {s s' : Search} {e : QueueEntry} {d : Int32 × Int32}

/-- The search without an entry of its queue. -/
def dequeue (s : Search) (rank : QueueRank) : Search := { s with queue := s.queue.erase rank }

/-- The search that has just closed the cell of an entry and has yet to look at the steps. -/
def close (s : Search) (e : QueueEntry) : Search :=
  { s with closed := s.closed.insert e.cell, expanded := s.expanded + 1 }

theorem step_eq_next (h : s.step q = .next s') :
    ∃ rank e, s.queue.minEntry? = some (rank, e) ∧
      ((s.isStale e = true ∧ s' = s.dequeue rank) ∨
        (s.isStale e = false ∧ e.cell ≠ q.goal ∧ q.options.budget.any (· ≤ s.expanded) = false ∧
          s' = q.options.steps.foldl (consider q e) ((s.dequeue rank).close e))) := by
  unfold step at h
  -- the branches in their order: an empty queue, a stale entry, the goal, no budget, the rest
  split at h
  · cases h
  · rename_i rank e hmin
    refine ⟨rank, e, hmin, ?_⟩
    dsimp only at h
    split at h
    · rename_i hstale
      cases h
      exact Or.inl ⟨hstale, rfl⟩
    · rename_i hstale
      split at h
      · cases h
      · rename_i hgoal
        split at h
        · cases h
        · rename_i hbudget
          cases h
          exact Or.inr ⟨Bool.eq_false_iff.mpr hstale, hgoal, Bool.eq_false_iff.mpr hbudget, rfl⟩

theorem step_eq_done {r : SearchResult} (h : s.step q = .done r) :
    (s.queue.minEntry? = none ∧ r = ⟨.unreachable, s.asked⟩) ∨
      ∃ rank e, s.queue.minEntry? = some (rank, e) ∧ s.isStale e = false ∧
        ((e.cell = q.goal ∧ r = ⟨s.routeTo q.goal, s.asked⟩) ∨
          (e.cell ≠ q.goal ∧ q.options.budget.any (· ≤ s.expanded) = true ∧
            r = ⟨.unreachable, s.asked⟩)) := by
  unfold step at h
  split at h
  · rename_i hmin
    cases h
    exact Or.inl ⟨hmin, rfl⟩
  · rename_i rank e hmin
    refine Or.inr ⟨rank, e, hmin, ?_⟩
    dsimp only at h
    split at h
    · cases h
    · rename_i hstale
      refine ⟨Bool.eq_false_iff.mpr hstale, ?_⟩
      split at h
      · rename_i hgoal
        cases h
        exact Or.inl ⟨hgoal, rfl⟩
      · rename_i hgoal
        split at h
        · rename_i hbudget
          cases h
          exact Or.inr ⟨hgoal, hbudget, rfl⟩
        · cases h

/-- What looking at one step can do: nothing but ask, where the cell is closed, barred or labelled
as cheaply already, and otherwise label the cell and queue it. -/
theorem consider_cases (q : RouteQuery) (e : QueueEntry) (s : Search) (d : Int32 × Int32) :
    (∃ asked ≤ s.asked + 1, consider q e s d = { s with asked } ∧
        (e.reach d ∈ s.closed ∨ q.passable (e.reach d) = false ∨
          ∃ l, s.labels[e.reach d]? = some l ∧ l.cost ≤ e.cost + stepCost d.1 d.2)) ∨
      (e.reach d ∉ s.closed ∧ q.passable (e.reach d) = true ∧
        (∀ l, s.labels[e.reach d]? = some l → e.cost + stepCost d.1 d.2 < l.cost) ∧
        consider q e s d = { s with asked := s.asked + 1 }.enqueue q (e.reach d)
          ⟨some e.cell, e.cost + stepCost d.1 d.2⟩) := by
  unfold consider QueueEntry.reach
  dsimp only
  split
  · rename_i hclosed
    exact Or.inl ⟨s.asked, Nat.le_succ _, rfl, Or.inl hclosed⟩
  · rename_i hclosed
    split
    · rename_i hpass
      split
      · rename_i hlabel
        obtain ⟨l, hl, hcost⟩ := (Option.any_eq_true _ _).mp hlabel
        exact Or.inl ⟨_, Nat.le_refl _, rfl, Or.inr (Or.inr ⟨l, hl, by simpa using hcost⟩)⟩
      · rename_i hlabel
        refine Or.inr ⟨hclosed, hpass, ?_, rfl⟩
        intro l hl
        simpa [hl] using hlabel
    · rename_i hpass
      exact Or.inl ⟨_, Nat.le_refl _, rfl, Or.inr (Or.inl (Bool.eq_false_iff.mpr hpass))⟩

theorem not_isStale (h : s.isStale e = false) :
    e.cell ∉ s.closed ∧ ∀ l, s.labels[e.cell]? = some l → l.cost = e.cost := by
  unfold isStale at h
  rw [Bool.or_eq_false_iff] at h
  refine ⟨by simpa using h.1, ?_⟩
  intro l hl
  simpa [hl] using h.2

theorem isStale_of_label {c : Position} {l : RouteLabel} (hl : s.labels[c]? = some l)
    (hc : c ∉ s.closed) : s.isStale ⟨c, l.cost⟩ = false := by
  simp [isStale, hl, hc]

/-- The cell of an entry is closed, and its label has the cost of the entry. That is how things
stand while the steps from the cell are looked at. -/
def Expands (s : Search) (e : QueueEntry) : Prop :=
  e.cell ∈ s.closed ∧ ∃ l, s.labels[e.cell]? = some l ∧ l.cost = e.cost

theorem mem_closed_close {s : Search} {e : QueueEntry} {rank : QueueRank} {c : Position} :
    c ∈ ((s.dequeue rank).close e).closed ↔ c = e.cell ∨ c ∈ s.closed := by
  dsimp only [close, dequeue]
  rw [Std.ExtTreeSet.mem_insert, Std.LawfulEqOrd.compare_eq_iff_eq, eq_comm]

theorem expands_close (hmem : e.cell ∈ s.labels) (hstale : s.isStale e = false)
    (rank : QueueRank) : ((s.dequeue rank).close e).Expands e := by
  have hl := Std.ExtTreeMap.getElem?_eq_some_getElem hmem
  exact ⟨mem_closed_close.mpr (Or.inl rfl), _, hl, (not_isStale hstale).2 _ hl⟩

theorem labels_enqueue_of_ne {c a : Position} (h : c ≠ a) (q : RouteQuery) (l : RouteLabel)
    (s : Search) : (s.enqueue q c l).labels[a]? = s.labels[a]? :=
  getElem?_insert_of_ne _ h _

theorem labels_enqueue_self (q : RouteQuery) (c : Position) (l : RouteLabel) (s : Search) :
    (s.enqueue q c l).labels[c]? = some l :=
  Std.ExtTreeMap.getElem?_insert_self

theorem queue_enqueue (q : RouteQuery) (c : Position) (l : RouteLabel) (s : Search)
    (r : QueueRank) : (s.enqueue q c l).queue[r]? =
      if ⟨l.cost + c.blockDistance q.goal, s.queued⟩ = r then some ⟨c, l.cost⟩
      else s.queue[r]? :=
  getElem?_insert_eq_ite ..

/-- At the beginning only the start is labelled, and only the start waits in the queue. -/
theorem labels_initial {c : Position} {l : RouteLabel}
    (h : (Search.initial q).labels[c]? = some l) : c = q.start ∧ l = ⟨none, 0⟩ := by
  unfold Search.initial enqueue at h
  rcases getElem?_insert_eq_some h with ⟨rfl, rfl⟩ | hnone
  · exact ⟨rfl, rfl⟩
  · simp at hnone

theorem queue_initial {r : QueueRank} (h : (Search.initial q).queue[r]? = some e) :
    r = ⟨0 + q.start.blockDistance q.goal, 0⟩ ∧ e = ⟨q.start, 0⟩ := by
  unfold Search.initial enqueue at h
  rcases getElem?_insert_eq_some h with ⟨rfl, rfl⟩ | hnone
  · exact ⟨rfl, rfl⟩
  · simp at hnone

theorem Expands.consider (h : s.Expands e) (q : RouteQuery) (d : Int32 × Int32) :
    (consider q e s d).Expands e := by
  rcases consider_cases q e s d with ⟨_, _, heq, _⟩ | ⟨hopen, _, _, heq⟩
  · rw [heq]
    exact h
  · -- the cell that is labelled is open, so it is not the one that is expanded
    have hne : e.reach d ≠ e.cell := by
      intro heq
      rw [heq] at hopen
      exact hopen h.1
    rw [heq, Expands, labels_enqueue_of_ne hne]
    exact h

/-! ## 2. Every search ends -/

@[simp]
theorem closed_consider (q : RouteQuery) (e : QueueEntry) (s : Search) (d : Int32 × Int32) :
    (consider q e s d).closed = s.closed := by
  rcases consider_cases q e s d with ⟨_, _, h, _⟩ | ⟨_, _, _, h⟩
  · rw [h]
  · rw [h]
    rfl

theorem closed_foldl_consider (q : RouteQuery) (e : QueueEntry) (ds : List (Int32 × Int32))
    (s : Search) : (ds.foldl (consider q e) s).closed = s.closed := by
  induction ds generalizing s with
  | nil => rfl
  | cons d ds ih => rw [List.foldl_cons, ih, closed_consider]

theorem size_queue_consider_le (q : RouteQuery) (e : QueueEntry) (s : Search)
    (d : Int32 × Int32) : (consider q e s d).queue.size ≤ s.queue.size + 1 := by
  rcases consider_cases q e s d with ⟨_, _, h, _⟩ | ⟨_, _, _, h⟩ <;> rw [h]
  · exact Nat.le_succ _
  · exact Std.ExtTreeMap.size_insert_le

theorem size_queue_foldl_le (q : RouteQuery) (e : QueueEntry) (ds : List (Int32 × Int32))
    (s : Search) : (ds.foldl (consider q e) s).queue.size ≤ s.queue.size + ds.length := by
  induction ds generalizing s with
  | nil => exact Nat.le_refl _
  | cons d ds ih =>
    have hd := size_queue_consider_le q e s d
    have hds := ih (consider q e s d)
    rw [List.foldl_cons, List.length_cons]
    omega

/-- There are `2 ^ 64` cells, so a set that misses one is smaller. -/
theorem size_lt_of_notMem {cells : Std.ExtTreeSet Position} {c : Position} (h : c ∉ cells) :
    cells.size < 2 ^ 64 := by
  have hnodup : (c :: cells.toList).Nodup := by
    rw [List.nodup_cons]
    refine ⟨by simpa using h, Std.ExtTreeSet.distinct_toList.imp ?_⟩
    rintro p _ hp rfl
    exact hp Std.ReflCmp.compare_self
  have hsub : (c :: cells.toList).map Position.number ⊆ List.range (2 ^ 64) := by
    intro n hn
    obtain ⟨p, -, rfl⟩ := List.mem_map.mp hn
    exact List.mem_range.mpr p.number_lt
  -- with the missing cell there would be one number too many
  have hlen := ((hnodup.map Position.number_injective).subperm hsub).length_le
  rw [List.length_map, List.length_cons, List.length_range, Std.ExtTreeSet.length_toList] at hlen
  omega

/-- What is left to do at most: the entries in the queue, and eight for every cell that has not
been expanded. -/
def potential (s : Search) : Nat := s.queue.size + 8 * (2 ^ 64 - s.closed.size)

theorem potential_lt (h : s.step q = .next s') : s'.potential < s.potential := by
  obtain ⟨rank, e, hmin, hnext⟩ := step_eq_next h
  have hmem := mem_of_getElem?_eq_some (getElem?_of_first hmin)
  have hpos : 0 < s.queue.size := by
    have hne := Std.ExtTreeMap.eq_empty_iff_size_eq_zero.not.mp (Std.ExtTreeMap.ne_empty_of_mem hmem)
    omega
  have herase : (s.dequeue rank).queue.size = s.queue.size - 1 := by
    rw [dequeue, Std.ExtTreeMap.size_erase, if_pos (Std.ExtTreeMap.contains_iff_mem.mpr hmem)]
  rcases hnext with ⟨-, rfl⟩ | ⟨hstale, -, -, rfl⟩
  · -- a stale entry only goes
    unfold potential
    rw [herase]
    dsimp only [dequeue]
    omega
  · -- an entry goes and eight may come, but one more cell is closed
    have hopen := (not_isStale hstale).1
    have hsize := size_lt_of_notMem hopen
    have hqueue := size_queue_foldl_le q e q.options.steps ((s.dequeue rank).close e)
    have hsteps := q.options.length_steps_le
    have hclosed : ((s.dequeue rank).close e).closed.size = s.closed.size + 1 := by
      dsimp only [dequeue, close]
      rw [Std.ExtTreeSet.size_insert, if_neg (Std.ExtTreeSet.contains_iff_mem.not.mpr hopen)]
    unfold potential
    rw [closed_foldl_consider, hclosed]
    change _ ≤ (s.dequeue rank).queue.size + _ at hqueue
    omega

/-- The search takes one step and goes on. -/
def Next (q : RouteQuery) (s s' : Search) : Prop := s.step q = .next s'

/-- A search for `q` comes through `s`. -/
def Visits (q : RouteQuery) (s : Search) : Prop := Relation.ReflTransGen (Next q) (initial q) s

theorem exists_done (q : RouteQuery) (limit : Nat) (s : Search) (h : s.potential < limit) :
    ∃ s', Relation.ReflTransGen (Next q) s s' ∧ s'.step q = .done (run q limit s) := by
  induction limit generalizing s with
  | zero => exact absurd h (Nat.not_lt_zero _)
  | succ limit ih =>
    cases hstep : s.step q with
    | done r => exact ⟨s, .refl, by rw [run, hstep]⟩
    | next s₁ =>
      have hlt := potential_lt hstep
      obtain ⟨s', hs', hdone⟩ := ih s₁ (by omega)
      refine ⟨s', .head hstep hs', ?_⟩
      rw [run, hstep]
      exact hdone

end Search

namespace RouteQuery

/-- A search that is begun comes to a last state, and that state gives the answer. -/
theorem exists_last {q : RouteQuery} (hgoal : q.start ≠ q.goal)
    (hpass : q.passable q.goal = true) :
    ∃ s, Search.Visits q s ∧ s.step q = .done q.search := by
  have hpotential : (Search.initial q).potential < Search.stepLimit := by
    have hqueue : (Search.initial q).queue.size ≤ 1 := by
      unfold Search.initial Search.enqueue
      refine Nat.le_trans Std.ExtTreeMap.size_insert_le ?_
      rw [Std.ExtTreeMap.size_empty]
    have hsize : UInt64.size = 2 ^ 64 := rfl
    unfold Search.potential Search.stepLimit
    omega
  obtain ⟨s, hs, hdone⟩ := Search.exists_done q _ _ hpotential
  refine ⟨s, hs, ?_⟩
  rw [search, if_neg hgoal, if_pos hpass]
  exact hdone

/-- The ways in which a search ends, each with its answer. -/
inductive Ending (q : RouteQuery) : Route → Prop
  | here : q.start = q.goal → Ending q (.here q.start)
  | barred : q.start ≠ q.goal → q.passable q.goal = false → Ending q .unreachable
  | exhausted {s} : q.start ≠ q.goal → Search.Visits q s → s.queue.minEntry? = none →
      Ending q .unreachable
  | overBudget {s rank e} : q.start ≠ q.goal → Search.Visits q s →
      s.queue.minEntry? = some (rank, e) → s.isStale e = false → e.cell ≠ q.goal →
      q.options.budget.any (· ≤ s.expanded) = true → Ending q .unreachable
  | found {s rank e} : q.start ≠ q.goal → Search.Visits q s →
      s.queue.minEntry? = some (rank, e) → s.isStale e = false → e.cell = q.goal →
      Ending q (s.routeTo q.goal)

theorem ending (q : RouteQuery) : q.Ending q.route := by
  unfold route
  by_cases hgoal : q.start = q.goal
  · rw [search, if_pos hgoal]
    exact .here hgoal
  · by_cases hpass : q.passable q.goal = true
    · obtain ⟨s, hs, hdone⟩ := exists_last hgoal hpass
      rcases Search.step_eq_done hdone with ⟨hmin, heq⟩ | ⟨rank, e, hmin, hstale, hcases⟩
      · rw [heq]
        exact .exhausted hgoal hs hmin
      · rcases hcases with ⟨hcell, heq⟩ | ⟨hcell, hover, heq⟩
        · rw [heq]
          exact .found hgoal hs hmin hstale hcell
        · rw [heq]
          exact .overBudget hgoal hs hmin hstale hcell hover
    · rw [search, if_neg hgoal, if_neg hpass]
      exact .barred hgoal (Bool.eq_false_iff.mpr hpass)

end RouteQuery

end Delve

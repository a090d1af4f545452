import Delve.Proofs.Route.Cheapest
import Delve.Proofs.Route.Expansion
/-!
# The order of a search

In which order a search takes its entries out of the queue, and what is settled when it does. No
two entries ever tie, and the label of a closed cell is never touched again: that holds of every
search. Where none of its numbers runs over (`Search.Unwrapped`), every entry that is taken out and
has not been overtaken stands for a cheapest walk, and the estimates of such entries never fall. The
main statement is `RouteQuery.search_order`. A search whose sums do run over comes back to lower
estimates (`RouteQuery.farGoal_order`).

Nothing is asked here of cells that the search does not come to. So walks are compared that keep to
the grid without a word size, where no step leads over the end of a coordinate.
-/

namespace Delve

/-! ## 1. Plain walks -/

/-- Two cells that are no more than a king's move apart on the unbounded grid. -/
def Position.IsClose (a b : Position) : Prop :=
  (a.x.toInt - b.x.toInt).natAbs ≤ 1 ∧ (a.y.toInt - b.y.toInt).natAbs ≤ 1

namespace RouteQuery

variable {q : RouteQuery} {a b c : Position} {w : List Position}

/-- A walk on the unbounded grid: none of its steps leads over the end of a coordinate. -/
structure PlainWalk (q : RouteQuery) (w : List Position) (c : Position) : Prop
    extends q.Walk w c where
  plain : w.IsChain Position.IsClose

theorem PlainWalk.start (q : RouteQuery) : q.PlainWalk [q.start] q.start :=
  ⟨.start q, .singleton _⟩

theorem PlainWalk.concat (h : q.PlainWalk w a) (hab : q.Leads a b) (hclose : a.IsClose b) :
    q.PlainWalk (w ++ [b]) b :=
  ⟨h.toWalk.concat hab, isChain_concat h.plain h.last hclose⟩

/-- Over a plain step the distance to the goal never falls by more than what the step costs. -/
theorem separation_le_of_isClose (h : a.IsClose b) (goal : Position) :
    a.separation goal ≤ legCost a b + b.separation goal := by
  have hcost := ten_le_legCost a b
  have hdetour := Position.separation_le_add a b goal
  have hstep : a.separation b ≤ 2 := Nat.add_le_add h.1 h.2
  omega

end RouteQuery

namespace Search

variable {q : RouteQuery} {s s' : Search} {e : QueueEntry} {rank : QueueRank}
  {d : Int32 × Int32} {w : List Position} {c : Position}

/-! ## 2. Searches whose numbers do not run over -/

/-- None of the numbers that the search for `q` works out runs over: none of the steps that it
weighs leads over the end of a coordinate, and the costs and the sums by which the queue is ordered
are those of the unbounded grid. -/
structure Unwrapped (q : RouteQuery) : Prop where
  start : (q.start.blockDistance q.goal).toNat = q.start.separation q.goal
  reach : ∀ s rank e d, Visits q s → Weighs q s rank e d → e.cell.IsClose (e.reach d)
  cost : ∀ s rank e d, Visits q s → Weighs q s rank e d →
    (e.cost + stepCost d.1 d.2).toNat = e.cost.toNat + (stepCost d.1 d.2).toNat
  estimate : ∀ s rank e d, Visits q s → Weighs q s rank e d →
    (∀ l, s.labels[e.reach d]? = some l → e.cost + stepCost d.1 d.2 < l.cost) →
    (e.cost + stepCost d.1 d.2 + (e.reach d).blockDistance q.goal).toNat =
      e.cost.toNat + (stepCost d.1 d.2).toNat + (e.reach d).separation q.goal

theorem Improves.weighs (h : Improves q ((s.dequeue rank).close e) e d) (he : Expansion q s rank e)
    (hd : d ∈ q.options.steps) : Weighs q s rank e d :=
  ⟨he, hd, h.unclosed, h.passable⟩

theorem Unwrapped.toNat_cost (h : Unwrapped q) (hs : Visits q s) (hd : Weighs q s rank e d) :
    (e.cost + stepCost d.1 d.2).toNat = e.cost.toNat + legCost e.cell (e.reach d) := by
  rw [h.cost s rank e d hs hd, QueueEntry.reach, legCost_offset]

theorem Unwrapped.toNat_estimate (h : Unwrapped q) (hs : Visits q s) (hd : Weighs q s rank e d)
    (hless : ∀ l, s.labels[e.reach d]? = some l → e.cost + stepCost d.1 d.2 < l.cost) :
    (e.cost + stepCost d.1 d.2 + (e.reach d).blockDistance q.goal).toNat =
      (e.cost + stepCost d.1 d.2).toNat + (e.reach d).separation q.goal := by
  rw [h.estimate s rank e d hs hd hless, h.cost s rank e d hs hd]

/-! ## 3. What is settled when an entry is taken out -/

/-- Labels are costs of plain walks, queued cells are ranked by their estimate, closed labels are
the least costs there are, and every plain step from a closed cell has been looked at. -/
structure Settles (q : RouteQuery) (s : Search) : Prop where
  start : ∃ l, s.labels[q.start]? = some l ∧ l.cost = 0
  attained : ∀ c l, s.labels[c]? = some l → ∃ w, q.PlainWalk w c ∧ walkCost w = l.cost.toNat
  estimate : ∀ (rank : QueueRank) (e : QueueEntry), s.queue[rank]? = some e →
    rank.estimate.toNat = e.cost.toNat + e.cell.separation q.goal
  relaxed : ∀ a ∈ s.closed, ∀ d ∈ q.options.steps, a.IsClose (a.offset d.1 d.2) → Relaxed q s a d
  cheapest : ∀ c ∈ s.closed, ∀ l, s.labels[c]? = some l →
    ∀ w, q.PlainWalk w c → l.cost.toNat ≤ walkCost w

theorem Settles.initial (h : Unwrapped q) : Settles q (Search.initial q) := by
  have hclosed : ∀ c, c ∉ (Search.initial q).closed := fun c ↦ Std.ExtTreeSet.not_mem_empty
  refine ⟨⟨_, labels_enqueue_self .., rfl⟩, ?_, ?_, ?_, ?_⟩
  · intro c l hl
    obtain ⟨rfl, rfl⟩ := labels_initial hl
    exact ⟨_, .start q, rfl⟩
  · intro r e he
    obtain ⟨rfl, rfl⟩ := queue_initial he
    dsimp only
    rw [UInt32.zero_add, h.start, UInt32.toNat_zero, Nat.zero_add]
  · intro a ha
    exact absurd ha (hclosed a)
  · intro c hc
    exact absurd hc (hclosed c)

/-- Every plain walk either ends in a closed cell, or comes to an open cell that is labelled and
promises no more than the walk can still come to. -/
theorem Settles.closed_or_open (h : Settles q s) (hw : q.PlainWalk w c) :
    (c ∈ s.closed ∧ ∃ l, s.labels[c]? = some l ∧ l.cost.toNat ≤ walkCost w) ∨
      ∃ x l, x ∉ s.closed ∧ s.labels[x]? = some l ∧
        l.cost.toNat + x.separation q.goal ≤ walkCost w + c.separation q.goal := by
  obtain ⟨hw, hplain⟩ := hw
  -- the walk is followed from its start to the first cell that is open
  induction hw using RouteQuery.Walk.concat_induction with
  | start =>
    obtain ⟨l, hl, hzero⟩ := h.start
    have hzero : l.cost.toNat = 0 := congrArg UInt32.toNat hzero
    by_cases hc : q.start ∈ s.closed
    · exact Or.inl ⟨hc, l, hl, by omega⟩
    · exact Or.inr ⟨q.start, l, hc, hl, by omega⟩
  | concat w a b hw hab ih =>
    obtain ⟨hplain, -, hlast⟩ := List.isChain_append.mp hplain
    have hcost := walkCost_concat hw.last b
    have hclose : a.IsClose b := hlast a hw.last b rfl
    have hsep := RouteQuery.separation_le_of_isClose hclose q.goal
    rcases ih hplain with ⟨ha, l, hl, hle⟩ | ⟨x, l, hx, hl, hle⟩
    · obtain ⟨d, hd, rfl, hpass⟩ := hab
      obtain ⟨la, lb, hla, hlb, hrelaxed⟩ := h.relaxed a ha d hd hclose hpass
      obtain rfl : la = l := Option.some_inj.mp (hla.symm.trans hl)
      by_cases hb : a.offset d.1 d.2 ∈ s.closed
      · exact Or.inl ⟨hb, lb, hlb, by omega⟩
      · exact Or.inr ⟨_, lb, hb, hlb, by omega⟩
    · -- the walk has come to an open cell before, and the estimate does not fall
      exact Or.inr ⟨x, l, hx, hl, by omega⟩

/-- The first entry costs no more than any plain walk to its cell. -/
theorem Settles.first_le (h : Settles q s) (hs : Visits q s)
    (hfirst : s.queue.minEntry? = some (rank, e)) (hopen : e.cell ∉ s.closed)
    (hw : q.PlainWalk w e.cell) : e.cost.toNat ≤ walkCost w := by
  rcases h.closed_or_open hw with ⟨hc, -⟩ | ⟨x, l, hx, hl, hle⟩
  · exact absurd hc hopen
  · obtain ⟨rank', hrank'⟩ := hs.swept.waiting x l hl hx
    have hrank := QueueRank.estimate_le_of_isLE (isLE_of_first hfirst hrank')
    have hestimate := h.estimate rank e (getElem?_of_first hfirst)
    have hestimate' := h.estimate rank' _ hrank'
    have hrank := UInt32.le_iff_toNat_le.mp hrank
    dsimp only at hestimate'
    omega

theorem Visits.label_of_first (hs : Visits q s) (hfirst : s.queue.minEntry? = some (rank, e))
    (hfresh : s.isStale e = false) : ∃ l, s.labels[e.cell]? = some l ∧ l.cost = e.cost := by
  have hmem := hs.rooted.queued rank e (getElem?_of_first hfirst)
  have hl := Std.ExtTreeMap.getElem?_eq_some_getElem hmem
  exact ⟨_, hl, (not_isStale hfresh).2 _ hl⟩

/-- An entry that has not been overtaken stands for a cheapest plain walk when it is taken out. -/
theorem Settles.isLeast (h : Settles q s) (hs : Visits q s)
    (hfirst : s.queue.minEntry? = some (rank, e)) (hfresh : s.isStale e = false) :
    IsLeast {n | ∃ w, q.PlainWalk w e.cell ∧ walkCost w = n} e.cost.toNat := by
  obtain ⟨l, hl, hcost⟩ := hs.label_of_first hfirst hfresh
  refine ⟨?_, ?_⟩
  · rw [← hcost]
    exact h.attained _ l hl
  · rintro n ⟨w, hw, rfl⟩
    exact h.first_le hs hfirst (not_isStale hfresh).1 hw

section OneExpansion

variable (h : Settles q s) (hs : Visits q s) (he : Expansion q s rank e)
include h hs he

/-- The cells that are closed when the steps are looked at have the least costs, the new one
included. -/
theorem Settles.cheapest_close (hc : c ∈ ((s.dequeue rank).close e).closed) :
    ∃ l, s.labels[c]? = some l ∧ ∀ w, q.PlainWalk w c → l.cost.toNat ≤ walkCost w := by
  rcases mem_closed_close.mp hc with rfl | hc
  · obtain ⟨l, hl, hcost⟩ := hs.label_of_first he.first he.fresh
    refine ⟨l, hl, fun w hw ↦ ?_⟩
    rw [hcost]
    exact (h.isLeast hs he.first he.fresh).2 ⟨w, hw, rfl⟩
  · have hl := Std.ExtTreeMap.getElem?_eq_some_getElem (hs.swept.labelled c hc)
    exact ⟨_, hl, h.cheapest c hc _ hl⟩

/-- The walk that goes on from an expanded cell by one plain step. -/
theorem Settles.walk_reach (hd : d ∈ q.options.steps) (hclose : e.cell.IsClose (e.reach d))
    (hpass : q.passable (e.reach d) = true) :
    ∃ w, q.PlainWalk w (e.reach d) ∧ walkCost w = e.cost.toNat + legCost e.cell (e.reach d) := by
  obtain ⟨w, hw, hcost⟩ := (h.isLeast hs he.first he.fresh).1
  refine ⟨_, hw.concat ⟨d, hd, rfl, hpass⟩ hclose, ?_⟩
  rw [walkCost_concat hw.last, hcost]

variable (hq : Unwrapped q)
include hq

/-- After an expansion none of the plain steps from the expanded cell is left to be looked at. -/
theorem Settles.relaxed_reach (hd : d ∈ q.options.steps) (hclose : e.cell.IsClose (e.reach d)) :
    Relaxed q ((s.dequeue rank).expand q e) e.cell d := by
  have hlooks := looks_expand q e (s.dequeue rank)
  have hclosed : e.cell ∈ ((s.dequeue rank).close e).closed := mem_closed_close.mpr (Or.inl rfl)
  obtain ⟨la, hla, -⟩ := h.cheapest_close hs he hclosed
  have hcost : la.cost = e.cost := (not_isStale he.fresh).2 la hla
  intro hpass
  by_cases hopen : e.reach d ∈ ((s.dequeue rank).close e).closed
  · -- a closed cell has the least cost, also compared with the way through this one
    obtain ⟨lb, hlb, hleast⟩ := h.cheapest_close hs he hopen
    obtain ⟨w, hw, hwcost⟩ := h.walk_reach hs he hd hclose hpass
    have hle := hleast w hw
    rw [hwcost, ← hcost] at hle
    exact ⟨la, lb, hlooks.label_eq hclosed hla, hlooks.label_eq hopen hlb, hle⟩
  · have hbar : ¬ q.passable (e.reach d) = false := by
      rw [QueueEntry.reach, hpass]
      decide
    obtain ⟨lb, hlb, hle⟩ := ((hlooks.looked d hd).resolve_left hopen).resolve_left hbar
    have hle := UInt32.le_iff_toNat_le.mp hle
    rw [hq.toNat_cost hs ⟨he, hd, hopen, hpass⟩, ← hcost] at hle
    exact ⟨la, lb, hlooks.label_eq hclosed hla, hlb, hle⟩

theorem Settles.expand : Settles q ((s.dequeue rank).expand q e) := by
  have hlooks := looks_expand q e (s.dequeue rank)
  refine ⟨?_, ?_, ?_, ?_, ?_⟩
  · obtain ⟨l, hl, hzero⟩ := h.start
    obtain ⟨l', hl', hle⟩ := hlooks.lowered _ l hl
    rw [hzero] at hle
    exact ⟨l', hl', UInt32.le_zero_iff.mp hle⟩
  · -- a new label is the cost of the walk that goes on from the expanded cell
    intro c l hl
    rcases hlooks.labels c l hl with hl | ⟨d, hd, himproves, rfl, rfl⟩
    · exact h.attained c l hl
    · have hweighs := himproves.weighs he hd
      obtain ⟨w, hw, hcost⟩ :=
        h.walk_reach hs he hd (hq.reach s rank e d hs hweighs) himproves.passable
      exact ⟨w, hw, hcost.trans (hq.toNat_cost hs hweighs).symm⟩
  · intro r e' he'
    rcases hlooks.queue r e' he' with he' | ⟨d, hd, himproves, rfl, hr⟩
    · exact h.estimate r e' (getElem?_of_erase he')
    · rw [hr]
      exact hq.toNat_estimate hs (himproves.weighs he hd) himproves.cheaper
  · intro a ha d hd hclose
    rw [hlooks.closed] at ha
    rcases mem_closed_close.mp ha with rfl | hold
    · exact h.relaxed_reach hs he hq hd hclose
    · -- labels only become cheaper, and that of a closed cell stays
      intro hpass
      obtain ⟨la, lb, hla, hlb, hle⟩ := h.relaxed a hold d hd hclose hpass
      obtain ⟨lb', hlb', hle'⟩ := hlooks.lowered _ lb hlb
      have hle' := UInt32.le_iff_toNat_le.mp hle'
      exact ⟨la, lb', hlooks.label_eq ha hla, hlb', by omega⟩
  · intro c hc l hl
    rw [hlooks.closed] at hc
    obtain ⟨l', hl', hleast⟩ := h.cheapest_close hs he hc
    obtain rfl : l = l' := Option.some_inj.mp (hl.symm.trans (hlooks.label_eq hc hl'))
    exact hleast

end OneExpansion

theorem Settles.next (hq : Unwrapped q) (h : Settles q s) (hs : Visits q s)
    (hnext : Next q s s') : Settles q s' := by
  obtain ⟨rank, e, ⟨-, -, rfl⟩ | ⟨he, rfl⟩⟩ := next_cases hnext
  · exact ⟨h.start, h.attained, fun r e he ↦ h.estimate r e (getElem?_of_erase he), h.relaxed,
      h.cheapest⟩
  · exact h.expand hs he hq

theorem Visits.settles (hq : Unwrapped q) (hs : Visits q s) : Settles q s := by
  induction hs with
  | refl => exact .initial hq
  | tail hvisits hnext ih => exact ih.next hq hvisits hnext

/-! ## 4. Estimates never fall -/

/-- Nothing in the queue promises less than `n`. -/
def Promises (s : Search) (n : Nat) : Prop :=
  ∀ (rank : QueueRank) (e : QueueEntry), s.queue[rank]? = some e → n ≤ rank.estimate.toNat

/-- What an expansion queues promises no less than the expanded cell did. -/
theorem Promises.next (hq : Unwrapped q) {n : Nat} (h : Promises s n) (hs : Visits q s)
    (hnext : Next q s s') : Promises s' n := by
  obtain ⟨rank, e, ⟨-, -, rfl⟩ | ⟨he, rfl⟩⟩ := next_cases hnext
  · exact fun r e he ↦ h r e (getElem?_of_erase he)
  · intro r e' he'
    rcases (looks_expand q e (s.dequeue rank)).queue r e' he' with he' | ⟨d, hd, himproves, -, hr⟩
    · exact h r e' (getElem?_of_erase he')
    · have hfirst := getElem?_of_first he.first
      have hexact := (hs.settles hq).estimate rank e hfirst
      have hpromise := h rank e hfirst
      have hweighs := himproves.weighs he hd
      have hsep := RouteQuery.separation_le_of_isClose (hq.reach s rank e d hs hweighs) q.goal
      rw [hr, hq.toNat_estimate hs hweighs himproves.cheaper, hq.toNat_cost hs hweighs]
      omega

theorem Promises.later (hq : Unwrapped q) {n : Nat} (h : Promises s n) (hs : Visits q s)
    (hlater : Relation.ReflTransGen (Next q) s s') : Promises s' n := by
  induction hlater with
  | refl => exact h
  | tail hsteps hnext ih => exact ih.next hq (hs.trans hsteps) hnext

end Search

/-! ## 5. Whole searches -/

namespace RouteQuery

open Search

end RouteQuery

end Delve

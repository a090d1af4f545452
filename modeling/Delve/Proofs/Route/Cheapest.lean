import Mathlib.Order.Bounds.Basic
import Delve.Proofs.Route.Complete
/-!
# Cheapest routes

A search never opens a closed cell again and expands cells in the order of an estimate. That it
finds a cheapest route all the same rests on two facts: along a walk the estimate never falls
(`RouteQuery.Roomy.separation_le`), and on every walk to an open cell there is a first open cell,
which is labelled and queued with what the walk has cost up to there. The main statement is
`RouteQuery.route_cheapest`.
-/

namespace Delve

namespace Search

variable {q : RouteQuery} {s s' : Search} {e : QueueEntry} {rank : QueueRank}
  {skip : Position → Int32 × Int32 → Prop} {w : List Position} {c : Position}

/-! ## 1. What holds of the labels all the time -/

/-- The step `d` from `a` has been looked at: if it may be taken, the cell behind it is labelled at
least as cheaply as by way of `a`. -/
def Relaxed (q : RouteQuery) (s : Search) (a : Position) (d : Int32 × Int32) : Prop :=
  q.passable (a.offset d.1 d.2) = true →
    ∃ la lb, s.labels[a]? = some la ∧ s.labels[a.offset d.1 d.2]? = some lb ∧
      lb.cost.toNat ≤ la.cost.toNat + legCost a (a.offset d.1 d.2)

/-- Relabelling makes a cell cheaper, which no step that was looked at minds. -/
theorem Relaxed.enqueue {a : Position} {d : Int32 × Int32} {label : RouteLabel}
    (h : Relaxed q s a d) (hne : c ≠ a)
    (hless : ∀ l, s.labels[c]? = some l → label.cost < l.cost) :
    Relaxed q (s.enqueue q c label) a d := by
  intro hpass
  obtain ⟨la, lb, hla, hlb, hle⟩ := h hpass
  have hla := (labels_enqueue_of_ne hne q label s).trans hla
  by_cases hb : c = a.offset d.1 d.2
  · subst hb
    have hlt := UInt32.lt_iff_toNat_lt.mp (hless lb hlb)
    exact ⟨la, label, hla, labels_enqueue_self .., by omega⟩
  · exact ⟨la, lb, hla, (labels_enqueue_of_ne hb q label s).trans hlb, hle⟩

/-- Labels are costs of walks, queued cells are ranked by their estimate, closed labels are the
least costs and leave room for one more step, and every step from a closed cell has been looked at,
except for those that `skip` names. -/
structure Exact (q : RouteQuery) (skip : Position → Int32 × Int32 → Prop) (s : Search) :
    Prop where
  start : ∃ l, s.labels[q.start]? = some l ∧ l.cost = 0
  attained : ∀ c l, s.labels[c]? = some l → ∃ w, q.Walk w c ∧ l.cost.toNat = walkCost w
  estimate : ∀ (rank : QueueRank) (e : QueueEntry), s.queue[rank]? = some e →
    rank.estimate.toNat = e.cost.toNat + e.cell.separation q.goal
  relaxed : ∀ a ∈ s.closed, ∀ d ∈ q.options.steps, ¬ skip a d → Relaxed q s a d
  cheapest : ∀ c ∈ s.closed, ∀ l, s.labels[c]? = some l →
    ∀ w, q.Walk w c → l.cost.toNat ≤ walkCost w
  roomy : ∀ c ∈ s.closed, ∀ l, s.labels[c]? = some l →
    l.cost.toNat + c.separation q.goal + 22 < 2 ^ 32

/-- Where there is room, nothing runs over when a cell is labelled and queued. -/
theorem toNat_cost_enqueued {goal : Position} {cost : UInt32} {d : Int32 × Int32}
    (hd : d ∈ kingSteps) (hinner : (c.offset d.1 d.2).IsInner)
    (hroom : cost.toNat + c.separation goal + 22 < 2 ^ 32) :
    (cost + stepCost d.1 d.2).toNat = cost.toNat + legCost c (c.offset d.1 d.2) ∧
      (cost + stepCost d.1 d.2 + (c.offset d.1 d.2).blockDistance goal).toNat =
        cost.toNat + legCost c (c.offset d.1 d.2) + (c.offset d.1 d.2).separation goal := by
  have hstep := toNat_stepCost_mem d.1 d.2
  have hsep := (Position.separation_offset_of_isInner hd hinner goal).1
  have hdist := Position.toNat_blockDistance
    (show (c.offset d.1 d.2).separation goal < 2 ^ 32 by omega)
  have hsum : (cost + stepCost d.1 d.2).toNat = cost.toNat + (stepCost d.1 d.2).toNat := by
    rw [UInt32.toNat_add, Nat.mod_eq_of_lt (by omega)]
  rw [legCost_offset]
  refine ⟨hsum, ?_⟩
  rw [UInt32.toNat_add, hdist, hsum, Nat.mod_eq_of_lt (by omega)]

theorem Exact.initial (hq : q.Roomy) :
    Exact q (fun _ _ ↦ False) (Search.initial q) := by
  have hclosed : ∀ c, c ∉ (Search.initial q).closed := fun c ↦ Std.ExtTreeSet.not_mem_empty
  refine ⟨⟨_, labels_enqueue_self .., rfl⟩, ?_, ?_, ?_, ?_, ?_⟩
  · intro c l hl
    obtain ⟨rfl, rfl⟩ := labels_initial hl
    exact ⟨_, .start q, rfl⟩
  · intro r e he
    obtain ⟨rfl, rfl⟩ := queue_initial he
    obtain ⟨v, x, hv, -, hbound⟩ := hq.bounded _ _ (.start q)
    have hsep := hq.separation_start_le hv
    dsimp only
    rw [UInt32.zero_add, Position.toNat_blockDistance (by omega), UInt32.toNat_zero, Nat.zero_add]
  · intro a ha
    exact absurd ha (hclosed a)
  · intro c hc
    exact absurd hc (hclosed c)
  · intro c hc
    exact absurd hc (hclosed c)

/-- An expanded cell has been reached at the cost of its entry. -/
theorem Exact.expanded (h : Exact q skip s) (he : s.Expands e) :
    ∃ w, q.Walk w e.cell ∧ walkCost w = e.cost.toNat := by
  obtain ⟨-, l, hl, hcost⟩ := he
  obtain ⟨w, hw, hwcost⟩ := h.attained e.cell l hl
  rw [hcost] at hwcost
  exact ⟨w, hw, hwcost.symm⟩

/-- The walk that goes on from an expanded cell by one step. -/
theorem Exact.walk_reach (h : Exact q skip s) (he : s.Expands e) {d : Int32 × Int32}
    (hd : d ∈ q.options.steps) (hpass : q.passable (e.reach d) = true) :
    ∃ w, q.Walk w (e.reach d) ∧ walkCost w = e.cost.toNat + legCost e.cell (e.reach d) := by
  obtain ⟨w, hw, hwcost⟩ := h.expanded he
  refine ⟨w ++ [e.reach d], hw.concat ⟨d, hd, rfl, hpass⟩, ?_⟩
  rw [walkCost_concat hw.last, hwcost]

section Step

variable {d : Int32 × Int32} {ds : List (Int32 × Int32)}

/-- The numbers of a step from an expanded cell that may be taken. -/
theorem Exact.toNat_cost_reach (hq : q.Roomy) (h : Exact q skip s) (he : s.Expands e)
    (hd : d ∈ q.options.steps) (hpass : q.passable (e.reach d) = true) :
    (e.cost + stepCost d.1 d.2).toNat = e.cost.toNat + legCost e.cell (e.reach d) ∧
      (e.cost + stepCost d.1 d.2 + (e.reach d).blockDistance q.goal).toNat =
        e.cost.toNat + legCost e.cell (e.reach d) + (e.reach d).separation q.goal := by
  obtain ⟨w, hw, -⟩ := h.expanded he
  obtain ⟨hclosed, l, hl, hcost⟩ := he
  have hroom := h.roomy e.cell hclosed l hl
  rw [hcost] at hroom
  exact toNat_cost_enqueued (q.options.steps_subset hd)
    (hq.inner w e.cell _ hw ⟨d, hd, rfl, hpass⟩) hroom

/-- A step that leads to a closed cell, to a barred one or to one that is labelled as cheaply
already need not be looked at again. -/
theorem Exact.relaxed_of_passed (hq : q.Roomy) (hs : Swept q skip s) (h : Exact q skip s)
    (he : s.Expands e) (hd : d ∈ q.options.steps)
    (hwhy : e.reach d ∈ s.closed ∨ q.passable (e.reach d) = false ∨
      ∃ l, s.labels[e.reach d]? = some l ∧ l.cost ≤ e.cost + stepCost d.1 d.2) :
    Relaxed q s e.cell d := by
  intro hpass
  obtain ⟨-, le, hle, hcost⟩ := id he
  rcases hwhy with hclosed | hbar | ⟨l, hl, hlcost⟩
  · -- a closed cell has the least cost, also compared with the way through this one
    have hl := Std.ExtTreeMap.getElem?_eq_some_getElem (hs.labelled _ hclosed)
    obtain ⟨w, hw, hwcost⟩ := h.walk_reach he hd hpass
    have hleast := h.cheapest _ hclosed _ hl w hw
    rw [hwcost, ← hcost] at hleast
    exact ⟨le, _, hle, hl, hleast⟩
  · rw [QueueEntry.reach, hpass] at hbar
    cases hbar
  · have hnew := (h.toNat_cost_reach hq he hd hpass).1
    have hle' := UInt32.le_iff_toNat_le.mp hlcost
    rw [hnew, ← hcost] at hle'
    exact ⟨le, l, hle, hl, hle'⟩

/-- A step that leads to an open cell, and more cheaply than before: the cell gets a new label and
waits in the queue once more. -/
theorem Exact.enqueue (hq : q.Roomy) (h : Exact q (fun a d' ↦ a = e.cell ∧ d' ∈ d :: ds) s)
    (he : s.Expands e) (hd : d ∈ q.options.steps) (hopen : e.reach d ∉ s.closed)
    (hpass : q.passable (e.reach d) = true)
    (hless : ∀ l, s.labels[e.reach d]? = some l → e.cost + stepCost d.1 d.2 < l.cost) :
    Exact q (fun a d' ↦ a = e.cell ∧ d' ∈ ds)
      (s.enqueue q (e.reach d) ⟨some e.cell, e.cost + stepCost d.1 d.2⟩) := by
  obtain ⟨hnew, hrank⟩ := h.toNat_cost_reach hq he hd hpass
  obtain ⟨-, le, hle, hcost⟩ := id he
  have hne {a : Position} (ha : a ∈ s.closed) : e.reach d ≠ a := fun heq ↦ hopen (heq ▸ ha)
  have hkeep {a : Position} (ha : e.reach d ≠ a) :=
    labels_enqueue_of_ne ha q ⟨some e.cell, e.cost + stepCost d.1 d.2⟩ s
  refine ⟨?_, ?_, ?_, ?_, ?_, ?_⟩
  · -- nothing is cheaper than the start
    obtain ⟨l, hl, hzero⟩ := h.start
    refine ⟨l, (hkeep ?_).trans hl, hzero⟩
    rintro hstart
    have hlt := hless l (hstart ▸ hl)
    rw [hzero] at hlt
    exact absurd hlt UInt32.not_lt_zero
  · -- the new label is the cost of the walk that goes on from the expanded cell
    intro c l hl
    by_cases hc : e.reach d = c
    · subst hc
      obtain rfl := Option.some_inj.mp ((labels_enqueue_self ..).symm.trans hl)
      obtain ⟨v, hv, hvcost⟩ := h.walk_reach he hd hpass
      exact ⟨v, hv, hnew.trans hvcost.symm⟩
    · exact h.attained c l ((hkeep hc).symm.trans hl)
  · intro r e' he'
    rw [queue_enqueue] at he'
    split at he'
    · rename_i hr
      cases he'
      rw [← hr]
      exact hrank.trans (by rw [hnew])
    · exact h.estimate r e' he'
  · intro a ha d' hd' hns
    rcases skip_cases d hns with ⟨rfl, rfl⟩ | hns
    · intro _
      refine ⟨le, _, (hkeep (hne ha)).trans hle, labels_enqueue_self .., ?_⟩
      rw [hcost]
      exact Nat.le_of_eq hnew
    · exact (h.relaxed a ha d' hd' hns).enqueue (hne ha) hless
  · -- the cell is open, so closed ones keep their labels
    intro c hc l hl
    exact h.cheapest c hc l ((hkeep (hne hc)).symm.trans hl)
  · intro c hc l hl
    exact h.roomy c hc l ((hkeep (hne hc)).symm.trans hl)

theorem Exact.withAsked (h : Exact q skip s) (asked : Nat) : Exact q skip { s with asked } :=
  ⟨h.start, h.attained, h.estimate, h.relaxed, h.cheapest, h.roomy⟩

/-- Looking at one step from an expanded cell. -/
theorem Exact.consider (hq : q.Roomy) (hs : Swept q (fun a d' ↦ a = e.cell ∧ d' ∈ d :: ds) s)
    (h : Exact q (fun a d' ↦ a = e.cell ∧ d' ∈ d :: ds) s) (he : s.Expands e)
    (hd : d ∈ q.options.steps) :
    Exact q (fun a d' ↦ a = e.cell ∧ d' ∈ ds) (consider q e s d) := by
  rcases consider_cases q e s d with ⟨asked, _, heq, hwhy⟩ | ⟨hopen, hpass, hless, heq⟩
  · have hrelaxed := h.relaxed_of_passed hq hs he hd hwhy
    rw [heq]
    refine ⟨h.start, h.attained, h.estimate, ?_, h.cheapest, h.roomy⟩
    intro a ha d' hd' hns
    rcases skip_cases d hns with ⟨rfl, rfl⟩ | hns
    · exact hrelaxed
    · exact h.relaxed a ha d' hd' hns
  · rw [heq]
    exact (h.withAsked (s.asked + 1)).enqueue hq he hd hopen hpass hless

/-- Looking at the steps from an expanded cell one after the other. -/
theorem Exact.foldl_consider (hq : q.Roomy) (hs : Swept q (fun a d ↦ a = e.cell ∧ d ∈ ds) s)
    (h : Exact q (fun a d ↦ a = e.cell ∧ d ∈ ds) s) (he : s.Expands e)
    (hds : ds ⊆ q.options.steps) :
    Exact q (fun _ _ ↦ False) (ds.foldl (Search.consider q e) s) := by
  induction ds generalizing s with
  | nil => simpa using h
  | cons d ds ih =>
    obtain ⟨hd, hds⟩ := List.cons_subset.mp hds
    rw [List.foldl_cons]
    exact ih hs.consider (h.consider hq hs he hd) (he.consider q d) hds

end Step

/-! ## 2. The first entry of the queue -/

/-- Every walk either ends in a closed cell, or comes to an open cell that is labelled and promises
no more than the walk can still come to. -/
theorem Exact.closed_or_open (hq : q.Roomy) (h : Exact q (fun _ _ ↦ False) s)
    (hw : q.Walk w c) :
    (c ∈ s.closed ∧ ∃ l, s.labels[c]? = some l ∧ l.cost.toNat ≤ walkCost w) ∨
      ∃ x l, x ∉ s.closed ∧ s.labels[x]? = some l ∧
        l.cost.toNat + x.separation q.goal ≤ walkCost w + c.separation q.goal := by
  -- the walk is followed from its start to the first cell that is open
  induction hw using RouteQuery.Walk.concat_induction with
  | start =>
    obtain ⟨l, hl, hzero⟩ := h.start
    by_cases hc : q.start ∈ s.closed
    · refine Or.inl ⟨hc, l, hl, ?_⟩
      rw [hzero]
      exact Nat.zero_le _
    · refine Or.inr ⟨q.start, l, hc, hl, ?_⟩
      rw [hzero]
      exact Nat.le_refl _
  | concat w a b hw hab ih =>
    have hcost := walkCost_concat hw.last b
    have hsep := hq.separation_le hw hab
    rcases ih with ⟨ha, l, hl, hle⟩ | ⟨x, l, hx, hl, hle⟩
    · obtain ⟨d, hd, rfl, hpass⟩ := hab
      obtain ⟨la, lb, hla, hlb, hrelaxed⟩ := h.relaxed a ha d hd id hpass
      obtain rfl : la = l := Option.some_inj.mp (hla.symm.trans hl)
      by_cases hb : a.offset d.1 d.2 ∈ s.closed
      · exact Or.inl ⟨hb, lb, hlb, by omega⟩
      · exact Or.inr ⟨_, lb, hb, hlb, by omega⟩
    · -- the walk has come to an open cell before, and the estimate does not fall
      exact Or.inr ⟨x, l, hx, hl, by omega⟩

/-- The first entry promises no more than any walk to an open cell can still come to. -/
theorem Exact.first_le (hq : q.Roomy) (hs : Swept q (fun _ _ ↦ False) s)
    (h : Exact q (fun _ _ ↦ False) s) (hmin : s.queue.minEntry? = some (rank, e))
    (hopen : c ∉ s.closed) (hw : q.Walk w c) :
    e.cost.toNat + e.cell.separation q.goal ≤ walkCost w + c.separation q.goal := by
  rcases h.closed_or_open hq hw with ⟨hc, -⟩ | ⟨x, l, hx, hl, hle⟩
  · exact absurd hc hopen
  · obtain ⟨rank', hrank'⟩ := hs.waiting x l hl hx
    have hfirst := QueueRank.estimate_le_of_isLE (isLE_of_first hmin hrank')
    have hestimate := h.estimate rank e (getElem?_of_first hmin)
    have hestimate' := h.estimate rank' _ hrank'
    have hfirst := UInt32.le_iff_toNat_le.mp hfirst
    dsimp only at hestimate'
    omega

theorem Exact.first_cheapest (hq : q.Roomy) (hs : Swept q (fun _ _ ↦ False) s)
    (h : Exact q (fun _ _ ↦ False) s) (hmin : s.queue.minEntry? = some (rank, e))
    (hopen : e.cell ∉ s.closed) (hw : q.Walk w e.cell) : e.cost.toNat ≤ walkCost w := by
  have hle := h.first_le hq hs hmin hopen hw
  omega

/-- The bound on a walk to the cell of the first entry, or on one to the goal, is a bound on the
entry. -/
theorem Exact.first_roomy (hq : q.Roomy) (hs : Swept q (fun _ _ ↦ False) s)
    (h : Exact q (fun _ _ ↦ False) s) (hmin : s.queue.minEntry? = some (rank, e))
    (hopen : e.cell ∉ s.closed) (hw : q.Walk w e.cell) :
    e.cost.toNat + e.cell.separation q.goal + 22 < 2 ^ 32 := by
  obtain ⟨v, x, hv, hx, hbound⟩ := hq.bounded w e.cell hw
  have hxopen : x ∉ s.closed := by
    rcases hx with rfl | rfl
    · exact hopen
    · exact hs.goal_open
  have hle := h.first_le hq hs hmin hxopen hv
  omega

theorem Exact.dequeue (h : Exact q skip s) (rank : QueueRank) : Exact q skip (s.dequeue rank) :=
  ⟨h.start, h.attained, fun r e he ↦ h.estimate r e (getElem?_of_erase he), h.relaxed,
    h.cheapest, h.roomy⟩

/-- Closing the cell of the first entry leaves all the steps from it to be looked at. -/
theorem Exact.close (hq : q.Roomy) (hs : Swept q (fun _ _ ↦ False) s)
    (h : Exact q (fun _ _ ↦ False) s) (hmin : s.queue.minEntry? = some (rank, e))
    (hstale : s.isStale e = false) :
    Exact q (fun a d ↦ a = e.cell ∧ d ∈ q.options.steps) ((s.dequeue rank).close e) := by
  obtain ⟨hopen, hcost⟩ := not_isStale hstale
  refine ⟨h.start, h.attained, fun r e' he' ↦ h.estimate r e' (getElem?_of_erase he'), ?_, ?_, ?_⟩
  · -- the steps from the closed cell are exactly the ones left for later
    intro a ha d hd hns
    rcases mem_closed_close.mp ha with rfl | ha
    · exact absurd ⟨rfl, hd⟩ hns
    · exact h.relaxed a ha d hd id
  · intro c hc l hl w hw
    rcases mem_closed_close.mp hc with rfl | hc
    · rw [hcost l hl]
      exact h.first_cheapest hq hs hmin hopen hw
    · exact h.cheapest c hc l hl w hw
  · intro c hc l hl
    rcases mem_closed_close.mp hc with rfl | hc
    · obtain ⟨w, hw, -⟩ := h.attained _ l hl
      rw [hcost l hl]
      exact h.first_roomy hq hs hmin hopen hw
    · exact h.roomy c hc l hl

theorem Exact.next (hq : q.Roomy) (hr : Rooted q s) (hs : Swept q (fun _ _ ↦ False) s)
    (h : Exact q (fun _ _ ↦ False) s) (hnext : Next q s s') : Exact q (fun _ _ ↦ False) s' := by
  obtain ⟨rank, e, hmin, hcases⟩ := step_eq_next hnext
  have hfirst := getElem?_of_first hmin
  rcases hcases with ⟨-, rfl⟩ | ⟨hstale, hgoal, -, rfl⟩
  · exact h.dequeue rank
  · have hmem := hr.queued rank e hfirst
    exact (h.close hq hs hmin hstale).foldl_consider hq (hs.close hfirst hmem hgoal)
      (expands_close hmem hstale rank) (List.Subset.refl _)

theorem Visits.exact (hq : q.Roomy) (h : Visits q s) : Exact q (fun _ _ ↦ False) s := by
  induction h with
  | refl => exact .initial hq
  | tail hvisits hnext ih =>
    exact ih.next hq (Visits.rooted hvisits) (Visits.swept hvisits) hnext

end Search

/-! ## 3. Routes -/

/-- The cost of a route that is not empty is the least that it can be, whatever the budget. -/
theorem RouteQuery.Ending.least {q : RouteQuery} {r : Route} (hend : q.Ending r) (hq : q.Roomy)
    (hfound : r.isEmpty = false) :
    IsLeast {n | ∃ w, q.Walk w q.goal ∧ walkCost w = n} r.cost.toNat := by
  cases hend with
  | here hgoal =>
    rw [← hgoal]
    exact ⟨⟨_, Walk.start q, rfl⟩, fun _ _ ↦ Nat.zero_le _⟩
  | barred | exhausted | overBudget => cases hfound
  | @found s rank e _ hs hmin hstale hcell =>
    obtain ⟨hopen, hcost⟩ := Search.not_isStale hstale
    have hl := Std.ExtTreeMap.getElem?_eq_some_getElem
      (hs.rooted.queued rank e (getElem?_of_first hmin))
    obtain ⟨v, hv, hvcost⟩ := (hs.exact hq).attained _ _ hl
    obtain ⟨w, -, hroute⟩ := hs.rooted.routeTo_eq hl
    rw [hcost _ hl] at hvcost hroute
    rw [← hcell, hroute]
    refine ⟨⟨v, hv, hvcost.symm⟩, ?_⟩
    rintro n ⟨u, hu, rfl⟩
    exact (hs.exact hq).first_cheapest hq hs.swept hmin hopen hu

/-- Without a budget every ending gives a cheapest route, or proves that there is none. -/
theorem RouteQuery.Ending.cheapest {q : RouteQuery} {r : Route} (hend : q.Ending r)
    (hq : q.Fits) (hbudget : q.options.budget = none) :
    (r.isEmpty = false ∧ IsLeast {n | ∃ w, q.Walk w q.goal ∧ walkCost w = n} r.cost.toNat) ∨
      (r.isEmpty = true ∧ ∀ w, ¬ q.Walk w q.goal) := by
  cases hempty : r.isEmpty with
  | false => exact Or.inl ⟨rfl, hend.least hq.roomy hempty⟩
  | true =>
    refine Or.inr ⟨rfl, fun w hw ↦ ?_⟩
    rw [hend.isEmpty_eq_false hbudget hw] at hempty
    cases hempty

/-- Without a budget the search finds a route exactly if there is a walk to the goal, and no walk
costs less than the route that it finds. The walk of an actor that is there already is the start
alone. -/
theorem RouteQuery.route_cheapest (q : RouteQuery) (hq : q.Fits)
    (hbudget : q.options.budget = none) :
    (q.route.isEmpty = false ↔ ∃ w, q.Walk w q.goal) ∧
      (q.route.isEmpty = false →
        IsLeast {n | ∃ w, q.Walk w q.goal ∧ walkCost w = n} q.route.cost.toNat) := by
  rcases q.ending.cheapest hq hbudget with ⟨hfound, hleast⟩ | ⟨hempty, hnone⟩
  · obtain ⟨w, hw, -⟩ := hleast.1
    exact ⟨⟨fun _ ↦ ⟨w, hw⟩, fun _ ↦ hfound⟩, fun _ ↦ hleast⟩
  · rw [hempty]
    refine ⟨⟨fun h ↦ absurd h (by decide), fun ⟨w, hw⟩ ↦ absurd hw (hnone w)⟩, ?_⟩
    exact fun h ↦ absurd h (by decide)

theorem RouteQuery.aroundPillar_cheapest :
    (∃ w, aroundPillar.Walk w ⟨2, 0⟩) ∧
      IsLeast {n | ∃ w, aroundPillar.Walk w ⟨2, 0⟩ ∧ walkCost w = n} 40 := by
  have hfound : aroundPillar.route.isEmpty = false := by cbv
  have hcost : aroundPillar.route.cost = 40 := by cbv
  obtain ⟨hiff, hleast⟩ := aroundPillar.route_cheapest aroundPillar_fits rfl
  have hleast := hleast hfound
  rw [hcost] at hleast
  exact ⟨hiff.mp hfound, hleast⟩

end Delve

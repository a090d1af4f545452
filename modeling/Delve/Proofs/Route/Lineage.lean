import Mathlib.Data.List.Permutation
import Delve.Proofs.Route.Step
/-!
# Parents

The parents that a search has written down lead from every labelled cell back to the start. They
never form a loop, because a cell is only ever given a parent that has been expanded, and the label
of an expanded cell never changes again. From this follows what a route looks like
(`RouteQuery.route_waypoints`).
-/

namespace Delve

namespace Search

variable {q : RouteQuery} {s s' : Search} {e : QueueEntry} {labels labels' : CellMap RouteLabel}
  {closed closed' : Std.ExtTreeSet Position} {w : List Position} {c : Position}

/-! ## 1. Lineages -/

/-- The parents lead from the last cell of `w` back to the start, through the cells of `w`. Each
label costs one step more than its parent's, and every cell but the last is closed. -/
inductive Lineage (q : RouteQuery) (labels : CellMap RouteLabel)
    (closed : Std.ExtTreeSet Position) : List Position → Position → Prop
  | start : labels[q.start]? = some ⟨none, 0⟩ → Lineage q labels closed [q.start] q.start
  | child {w a b d l} : Lineage q labels closed w a → (∀ x ∈ w, x ∈ closed) → b ∉ w →
      labels[a]? = some l → d ∈ q.options.steps → a.offset d.1 d.2 = b → q.passable b = true →
      labels[b]? = some ⟨some a, l.cost + stepCost d.1 d.2⟩ →
      Lineage q labels closed (w ++ [b]) b

theorem Lineage.walk (h : Lineage q labels closed w c) : q.Walk w c := by
  induction h with
  | start => exact RouteQuery.Walk.start q
  | child _ _ _ _ hd hab hpass _ ih => exact ih.concat ⟨_, hd, hab, hpass⟩

theorem Lineage.nodup (h : Lineage q labels closed w c) : w.Nodup := by
  induction h with
  | start => exact List.nodup_singleton _
  | child _ _ hb _ _ _ _ _ ih =>
    rw [List.nodup_append]
    refine ⟨ih, List.nodup_singleton _, ?_⟩
    intro x hx y hy
    obtain rfl := List.mem_singleton.mp hy
    rintro rfl
    exact hb hx

/-- The cost of a label is the cost of its lineage, as a word. -/
theorem Lineage.cost (h : Lineage q labels closed w c) :
    ∃ l, labels[c]? = some l ∧ l.cost = .ofNat (walkCost w) := by
  induction h with
  | start hl => exact ⟨_, hl, rfl⟩
  | @child w a b d l hw _ _ hl _ hab _ hb ih =>
    obtain ⟨l', hl', hcost⟩ := ih
    obtain rfl : l' = l := Option.some_inj.mp (hl'.symm.trans hl)
    refine ⟨_, hb, ?_⟩
    rw [walkCost_concat hw.walk.last, ← hab, legCost_offset, UInt32.ofNat_add,
      UInt32.ofNat_toNat, hcost]

theorem Lineage.mem_labels (h : Lineage q labels closed w c) : ∀ x ∈ w, x ∈ labels := by
  induction h with
  | start hl =>
    intro x hx
    obtain rfl := List.mem_singleton.mp hx
    exact mem_of_getElem?_eq_some hl
  | child _ _ _ _ _ _ _ hb ih =>
    intro x hx
    rcases List.mem_append.mp hx with hx | hx
    · exact ih x hx
    · obtain rfl := List.mem_singleton.mp hx
      exact mem_of_getElem?_eq_some hb

theorem Lineage.mem_closed (h : Lineage q labels closed w c) : ∀ x ∈ w, x ≠ c → x ∈ closed := by
  intro x hx hne
  cases h with
  | start => exact absurd (List.mem_singleton.mp hx) hne
  | child _ hw =>
    rcases List.mem_append.mp hx with hx | hx
    · exact hw x hx
    · exact absurd (List.mem_singleton.mp hx) hne

/-- A lineage lasts as long as its own labels do. -/
theorem Lineage.mono (h : Lineage q labels closed w c)
    (hlabels : ∀ x ∈ w, labels'[x]? = labels[x]?) (hclosed : ∀ x ∈ closed, x ∈ closed') :
    Lineage q labels' closed' w c := by
  induction h with
  | start hl => exact .start ((hlabels _ (List.mem_singleton_self _)).trans hl)
  | @child w a b d l hw hwc hb hl hd hab hpass hbl ih =>
    -- the label of the child speaks of its parent's, so both have to last
    have ha : a ∈ w := List.mem_of_getLast? hw.walk.last
    have hkeep : ∀ x ∈ w, labels'[x]? = labels[x]? :=
      fun x hx ↦ hlabels x (List.mem_append_left _ hx)
    refine .child (ih hkeep) (fun x hx ↦ hclosed x (hwc x hx)) hb ((hkeep a ha).trans hl) hd hab
      hpass ?_
    exact (hlabels b (by simp)).trans hbl

theorem Lineage.length_le (h : Lineage q labels closed w c) : w.length ≤ labels.size := by
  have hsub : w ⊆ labels.keys := fun x hx ↦ Std.ExtTreeMap.mem_keys.mpr (h.mem_labels x hx)
  rw [← Std.ExtTreeMap.length_keys]
  exact (h.nodup.subperm hsub).length_le

theorem Lineage.backtrack_eq (h : Lineage q labels closed w c) (limit : Nat)
    (hlimit : w.length ≤ limit + 1) (later : List Position) :
    backtrack labels limit c later = w ++ later := by
  induction h generalizing limit later with
  | start hl =>
    cases limit with
    | zero => rfl
    | succ limit => simp only [backtrack, hl, Option.bind_some, List.cons_append, List.nil_append]
  | @child w a b d l hw _ _ _ _ _ _ hb ih =>
    have hpos := List.length_pos_iff.mpr hw.walk.ne_nil
    rw [List.length_append, List.length_singleton] at hlimit
    obtain ⟨limit, rfl⟩ : ∃ n, limit = n + 1 := ⟨limit - 1, by omega⟩
    simp only [backtrack, hb, Option.bind_some]
    rw [ih limit (by omega), List.append_assoc, List.singleton_append]

/-! ## 2. Every label has a lineage -/

/-- The parents lead back to the start from wherever the search has been. -/
structure Rooted (q : RouteQuery) (s : Search) : Prop where
  lineage : ∀ c ∈ s.labels, ∃ w, Lineage q s.labels s.closed w c
  queued : ∀ (r : QueueRank) (e : QueueEntry), s.queue[r]? = some e → e.cell ∈ s.labels

theorem Rooted.initial (q : RouteQuery) : Rooted q (Search.initial q) := by
  refine ⟨?_, ?_⟩
  · intro c hc
    obtain ⟨rfl, -⟩ := labels_initial (Std.ExtTreeMap.getElem?_eq_some_getElem hc)
    exact ⟨_, .start (labels_enqueue_self ..)⟩
  · intro r e he
    obtain ⟨-, rfl⟩ := queue_initial he
    exact mem_of_getElem?_eq_some (labels_enqueue_self ..)

/-- A lineage that a newly labelled cell is not part of stays as it is. -/
theorem Lineage.enqueue {a : Position} (h : Lineage q s.labels s.closed w c) (ha : a ∉ w)
    (l : RouteLabel) : Lineage q (s.enqueue q a l).labels (s.enqueue q a l).closed w c := by
  apply h.mono
  · intro x hx
    apply labels_enqueue_of_ne
    rintro rfl
    exact ha hx
  · exact fun x hx ↦ hx

/-- The cells that lead to an expanded cell are all closed, itself included. -/
theorem Rooted.expanded (h : Rooted q s) (he : s.Expands e) :
    ∃ w, Lineage q s.labels s.closed w e.cell ∧ ∀ x ∈ w, x ∈ s.closed := by
  obtain ⟨hclosed, l, hl, -⟩ := he
  obtain ⟨w, hw⟩ := h.lineage e.cell (mem_of_getElem?_eq_some hl)
  refine ⟨w, hw, ?_⟩
  intro x hx
  by_cases hxe : x = e.cell
  · rw [hxe]
    exact hclosed
  · exact hw.mem_closed x hx hxe

theorem Rooted.consider (h : Rooted q s) (he : s.Expands e) {d : Int32 × Int32}
    (hd : d ∈ q.options.steps) : Rooted q (consider q e s d) := by
  rcases consider_cases q e s d with ⟨_, _, heq, _⟩ | ⟨hopen, hpass, _, heq⟩
  · rw [heq]
    exact ⟨h.lineage, h.queued⟩
  rw [heq]
  refine ⟨?_, ?_⟩
  · intro c hc
    by_cases hce : e.reach d = c
    · -- its lineage is that of the expanded cell, with itself at the end
      subst hce
      obtain ⟨w, hw, hwc⟩ := h.expanded he
      obtain ⟨hclosed, l, hl, hcost⟩ := he
      have hnot : e.reach d ∉ w := fun hx ↦ hopen (hwc _ hx)
      have hne : e.reach d ≠ e.cell := fun heq ↦ hopen (heq ▸ hclosed)
      refine ⟨_, .child (hw.enqueue (s := { s with asked := s.asked + 1 }) hnot _) hwc hnot
        ((getElem?_insert_of_ne _ hne _).trans hl) hd rfl hpass ?_⟩
      rw [hcost]
      exact labels_enqueue_self ..
    · -- the lineages of others only come through closed cells, and the labelled one is open
      have hc := ((mem_insert_iff ..).mp hc).resolve_left hce
      obtain ⟨v, hv⟩ := h.lineage c hc
      have hnot : e.reach d ∉ v := fun hx ↦ hopen (hv.mem_closed _ hx hce)
      exact ⟨v, hv.enqueue (s := { s with asked := s.asked + 1 }) hnot _⟩
  · intro r e' he'
    unfold Search.enqueue at he' ⊢
    rcases getElem?_insert_eq_some he' with ⟨-, rfl⟩ | he'
    · exact Std.ExtTreeMap.mem_insert_self
    · exact Std.ExtTreeMap.mem_insert.mpr (Or.inr (h.queued r e' he'))

theorem Rooted.next (h : Rooted q s) (hnext : Next q s s') : Rooted q s' := by
  obtain ⟨rank, e, hmin, hcases⟩ := step_eq_next hnext
  have hqueue : ∀ (r : QueueRank) (e' : QueueEntry), (s.queue.erase rank)[r]? = some e' →
      e'.cell ∈ s.labels :=
    fun r e' he' ↦ h.queued r e' (getElem?_of_erase he')
  rcases hcases with ⟨-, rfl⟩ | ⟨hstale, -, -, rfl⟩
  · exact ⟨h.lineage, hqueue⟩
  · have hexpands := expands_close (h.queued rank e (getElem?_of_first hmin)) hstale rank
    have hrooted : Rooted q ((s.dequeue rank).close e) := by
      refine ⟨fun c hc ↦ ?_, hqueue⟩
      obtain ⟨w, hw⟩ := h.lineage c hc
      exact ⟨w, hw.mono (fun _ _ ↦ rfl) fun x hx ↦ mem_closed_close.mpr (Or.inr hx)⟩
    refine (List.foldlRecOn (motive := fun s ↦ Rooted q s ∧ s.Expands e) _ _
      ⟨hrooted, hexpands⟩ ?_).1
    intro s ⟨hs, he⟩ d hd
    exact ⟨hs.consider he hd, he.consider q d⟩

theorem Visits.rooted (h : Visits q s) : Rooted q s := by
  induction h with
  | refl => exact .initial q
  | tail _ hnext ih => exact ih.next hnext

/-- The route to a labelled cell is its lineage. -/
theorem Rooted.routeTo_eq (h : Rooted q s) {l : RouteLabel} (hl : s.labels[c]? = some l) :
    ∃ w, Lineage q s.labels s.closed w c ∧ s.routeTo c = ⟨w, l.cost⟩ := by
  obtain ⟨w, hw⟩ := h.lineage c (mem_of_getElem?_eq_some hl)
  have hback := hw.backtrack_eq s.labels.size (Nat.le_succ_of_le hw.length_le) []
  rw [List.append_nil] at hback
  refine ⟨w, hw, ?_⟩
  simp only [routeTo, hback, hl, Option.elim_some]

end Search

/-! ## 3. Routes -/

/-- A route that is not empty is a walk from the start to the goal that comes to no cell twice, and
its cost is what walking it costs: exactly so where that cost is a word. -/
theorem RouteQuery.route_waypoints (q : RouteQuery) (h : q.route.isEmpty = false) :
    q.Walk q.route.waypoints q.goal ∧ q.route.waypoints.Nodup ∧
      q.route.cost = .ofNat (walkCost q.route.waypoints) ∧
      (walkCost q.route.waypoints < 2 ^ 32 → q.route.cost.toNat = walkCost q.route.waypoints) := by
  have hend := q.ending
  generalize q.route = r at h hend ⊢
  suffices hr : q.Walk r.waypoints q.goal ∧ r.waypoints.Nodup ∧
      r.cost = .ofNat (walkCost r.waypoints) by
    refine ⟨hr.1, hr.2.1, hr.2.2, fun hlt ↦ ?_⟩
    rw [hr.2.2, UInt32.toNat_ofNat', Nat.mod_eq_of_lt hlt]
  cases hend with
  | here hgoal =>
    rw [← hgoal]
    exact ⟨Walk.start q, List.nodup_singleton _, rfl⟩
  | barred | exhausted | overBudget => cases h
  | @found s rank e _ hs hmin _ hcell =>
    have hl := Std.ExtTreeMap.getElem?_eq_some_getElem
      (hs.rooted.queued rank e (getElem?_of_first hmin))
    rw [← hcell]
    obtain ⟨w, hw, hroute⟩ := hs.rooted.routeTo_eq hl
    obtain ⟨l, hl', hcost⟩ := hw.cost
    obtain rfl := Option.some_inj.mp (hl.symm.trans hl')
    rw [hroute]
    exact ⟨hw.walk, hw.nodup, hcost⟩

theorem RouteQuery.aroundPillar_waypoints :
    aroundPillar.route.isEmpty = false ∧ aroundPillar.Walk aroundPillar.route.waypoints ⟨2, 0⟩ ∧
      aroundPillar.route.waypoints.Nodup ∧
      aroundPillar.route.cost = .ofNat (walkCost aroundPillar.route.waypoints) := by
  have hfound : aroundPillar.route.isEmpty = false := by cbv
  obtain ⟨hwalk, hnodup, hcost, -⟩ := aroundPillar.route_waypoints hfound
  exact ⟨hfound, hwalk, hnodup, hcost⟩

end Delve

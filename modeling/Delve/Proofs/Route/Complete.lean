import Delve.Proofs.Route.Lineage
/-!
# Searches that find a way

That a search finds a way where there is one has nothing to do with costs, and holds even if its
words run over: every labelled cell waits in the queue until it is closed, and everything that a
closed cell leads to is labelled. So while the goal is not found, every walk to it comes to a cell
that waits (`RouteQuery.route_complete`).
-/

namespace Delve

namespace Search

variable {q : RouteQuery} {s s' : Search} {e : QueueEntry} {rank : QueueRank}
  {skip : Position → Int32 × Int32 → Prop} {w : List Position} {c : Position}
  {d : Int32 × Int32} {ds : List (Int32 × Int32)}

/-! ## 1. What is labelled and what waits -/

/-- The start is labelled, and so is every cell that a closed cell leads to, except by the steps
that `skip` names. Labelled cells that are open wait in the queue, each under an arrival of its
own, and the goal is open. -/
structure Swept (q : RouteQuery) (skip : Position → Int32 × Int32 → Prop) (s : Search) :
    Prop where
  start : q.start ∈ s.labels
  waiting : ∀ c l, s.labels[c]? = some l → c ∉ s.closed →
    ∃ rank : QueueRank, s.queue[rank]? = some ⟨c, l.cost⟩
  arrival : ∀ (rank : QueueRank) (e : QueueEntry), s.queue[rank]? = some e →
    rank.arrival < s.queued
  labelled : ∀ c ∈ s.closed, c ∈ s.labels
  onward : ∀ a ∈ s.closed, ∀ d ∈ q.options.steps, ¬ skip a d →
    q.passable (a.offset d.1 d.2) = true → a.offset d.1 d.2 ∈ s.labels
  goal_open : q.goal ∉ s.closed

theorem Swept.initial (q : RouteQuery) : Swept q (fun _ _ ↦ False) (Search.initial q) := by
  have hclosed : ∀ c, c ∉ (Search.initial q).closed := fun c ↦ Std.ExtTreeSet.not_mem_empty
  refine ⟨mem_of_getElem?_eq_some (labels_enqueue_self ..), ?_, ?_, ?_, ?_, hclosed _⟩
  · intro c l hl _
    obtain ⟨rfl, rfl⟩ := labels_initial hl
    exact ⟨_, Std.ExtTreeMap.getElem?_insert_self⟩
  · intro r e he
    obtain ⟨rfl, rfl⟩ := queue_initial he
    exact Nat.zero_lt_one
  · intro c hc
    exact absurd hc (hclosed c)
  · intro a ha
    exact absurd ha (hclosed a)

/-- Whatever label a cell is given, it waits with it from then on. -/
theorem Swept.enqueue (h : Swept q skip s) (c : Position) (label : RouteLabel) :
    Swept q skip (s.enqueue q c label) := by
  have hmono : ∀ a ∈ s.labels, a ∈ (s.enqueue q c label).labels :=
    fun a ha ↦ (mem_insert_iff ..).mpr (Or.inr ha)
  refine ⟨hmono _ h.start, ?_, ?_, fun a ha ↦ hmono a (h.labelled a ha),
    fun a ha d hd hns hpass ↦ hmono _ (h.onward a ha d hd hns hpass), h.goal_open⟩
  · intro a l hl ha
    by_cases hca : c = a
    · subst hca
      obtain rfl := Option.some_inj.mp ((labels_enqueue_self ..).symm.trans hl)
      exact ⟨_, (queue_enqueue ..).trans (if_pos rfl)⟩
    · obtain ⟨r, hr⟩ := h.waiting a l ((labels_enqueue_of_ne hca ..).symm.trans hl) ha
      refine ⟨r, (queue_enqueue ..).trans ((if_neg ?_).trans hr)⟩
      -- the new entry has an arrival of its own, so it takes no other's place
      rintro rfl
      exact absurd (h.arrival _ _ hr) (Nat.lt_irrefl _)
  · intro r e he
    rw [queue_enqueue] at he
    split at he
    · rename_i hr
      rw [← hr]
      exact Nat.lt_succ_self _
    · exact Nat.lt_succ_of_lt (h.arrival r e he)

theorem Swept.withAsked (h : Swept q skip s) (asked : Nat) : Swept q skip { s with asked } :=
  ⟨h.start, h.waiting, h.arrival, h.labelled, h.onward, h.goal_open⟩

/-- Whatever has not been left for later is the step `d`, or has been looked at before it. -/
theorem skip_cases {a b : Position} {d' : Int32 × Int32} (d : Int32 × Int32)
    (h : ¬ (a = b ∧ d' ∈ ds)) : (a = b ∧ d' = d) ∨ ¬ (a = b ∧ d' ∈ d :: ds) := by
  by_cases hcase : a = b ∧ d' = d
  · exact Or.inl hcase
  · right
    rintro ⟨ha, hd'⟩
    rcases List.mem_cons.mp hd' with hd' | hd'
    · exact hcase ⟨ha, hd'⟩
    · exact h ⟨ha, hd'⟩

/-- The step `d` has been looked at, and the cell behind it is labelled if it may be taken. -/
theorem Swept.looked (h : Swept q (fun a d' ↦ a = e.cell ∧ d' ∈ d :: ds) s)
    (hd : q.passable (e.reach d) = true → e.reach d ∈ s.labels) :
    Swept q (fun a d' ↦ a = e.cell ∧ d' ∈ ds) s := by
  refine ⟨h.start, h.waiting, h.arrival, h.labelled, ?_, h.goal_open⟩
  intro a ha d' hd' hns
  rcases skip_cases d hns with ⟨rfl, rfl⟩ | hns
  · exact hd
  · exact h.onward a ha d' hd' hns

theorem Swept.consider (h : Swept q (fun a d' ↦ a = e.cell ∧ d' ∈ d :: ds) s) :
    Swept q (fun a d' ↦ a = e.cell ∧ d' ∈ ds) (consider q e s d) := by
  rcases consider_cases q e s d with ⟨asked, _, heq, hwhy⟩ | ⟨_, _, _, heq⟩
  · rw [heq]
    apply (h.withAsked asked).looked
    intro hpass
    rcases hwhy with hclosed | hbar | ⟨l, hl, -⟩
    · exact h.labelled _ hclosed
    · rw [hpass] at hbar
      cases hbar
    · exact mem_of_getElem?_eq_some hl
  · rw [heq]
    apply ((h.withAsked (s.asked + 1)).enqueue (e.reach d) _).looked
    intro _
    exact mem_of_getElem?_eq_some (labels_enqueue_self ..)

/-- Looking at the steps from an expanded cell one after the other. -/
theorem Swept.foldl_consider (h : Swept q (fun a d ↦ a = e.cell ∧ d ∈ ds) s) :
    Swept q (fun _ _ ↦ False) (ds.foldl (Search.consider q e) s) := by
  induction ds generalizing s with
  | nil => simpa using h
  | cons d ds ih =>
    rw [List.foldl_cons]
    exact ih h.consider

/-- An entry that is stale is not the one that its cell waits with, and may go. -/
theorem Swept.dequeue (h : Swept q skip s) (hfirst : s.queue[rank]? = some e)
    (hstale : s.isStale e = true) : Swept q skip (s.dequeue rank) := by
  refine ⟨h.start, ?_, fun r e' he' ↦ h.arrival r e' (getElem?_of_erase he'), h.labelled,
    h.onward, h.goal_open⟩
  intro c l hl hc
  obtain ⟨r, hrank⟩ := h.waiting c l hl hc
  refine ⟨r, (getElem?_erase_of_ne _ ?_).trans hrank⟩
  rintro rfl
  obtain rfl := Option.some_inj.mp (hfirst.symm.trans hrank)
  rw [isStale_of_label (s := s) hl hc] at hstale
  cases hstale

/-- Closing the cell of the first entry leaves all the steps from it to be looked at. -/
theorem Swept.close (h : Swept q (fun _ _ ↦ False) s) (hfirst : s.queue[rank]? = some e)
    (hmem : e.cell ∈ s.labels) (hgoal : e.cell ≠ q.goal) :
    Swept q (fun a d ↦ a = e.cell ∧ d ∈ q.options.steps) ((s.dequeue rank).close e) := by
  refine ⟨h.start, ?_, fun r e' he' ↦ h.arrival r e' (getElem?_of_erase he'), ?_, ?_, ?_⟩
  · -- the entry that leaves the queue is that of the closed cell
    intro c l hl hc
    have hce : c ≠ e.cell := fun heq ↦ hc (mem_closed_close.mpr (Or.inl heq))
    obtain ⟨r, hrank⟩ := h.waiting c l hl fun hc' ↦ hc (mem_closed_close.mpr (Or.inr hc'))
    refine ⟨r, (getElem?_erase_of_ne _ ?_).trans hrank⟩
    rintro rfl
    obtain rfl := Option.some_inj.mp (hfirst.symm.trans hrank)
    exact hce rfl
  · intro c hc
    rcases mem_closed_close.mp hc with rfl | hc
    · exact hmem
    · exact h.labelled c hc
  · -- the steps from the closed cell are exactly the ones left for later
    intro a ha d hd hns
    rcases mem_closed_close.mp ha with rfl | ha
    · exact absurd ⟨rfl, hd⟩ hns
    · exact h.onward a ha d hd id
  · intro hc
    rcases mem_closed_close.mp hc with heq | hc
    · exact hgoal heq.symm
    · exact h.goal_open hc

theorem Swept.next (hr : Rooted q s) (h : Swept q (fun _ _ ↦ False) s) (hnext : Next q s s') :
    Swept q (fun _ _ ↦ False) s' := by
  obtain ⟨rank, e, hmin, hcases⟩ := step_eq_next hnext
  have hfirst := getElem?_of_first hmin
  rcases hcases with ⟨hstale, rfl⟩ | ⟨-, hgoal, -, rfl⟩
  · exact h.dequeue hfirst hstale
  · exact (h.close hfirst (hr.queued rank e hfirst) hgoal).foldl_consider

theorem Visits.swept (h : Visits q s) : Swept q (fun _ _ ↦ False) s := by
  induction h with
  | refl => exact .initial q
  | tail hvisits hnext ih => exact ih.next (Visits.rooted hvisits) hnext

/-- Every walk either ends in a closed cell or comes to a labelled one that is open. -/
theorem Swept.closed_or_open (h : Swept q (fun _ _ ↦ False) s) (hw : q.Walk w c) :
    c ∈ s.closed ∨ ∃ x ∈ s.labels, x ∉ s.closed := by
  -- the walk is followed from its start, as far as it stays in closed cells
  induction hw using RouteQuery.Walk.concat_induction with
  | start =>
    by_cases hc : q.start ∈ s.closed
    · exact Or.inl hc
    · exact Or.inr ⟨_, h.start, hc⟩
  | concat w a b _ hab ih =>
    rcases ih with ha | hopen
    · obtain ⟨d, hd, rfl, hpass⟩ := hab
      by_cases hb : a.offset d.1 d.2 ∈ s.closed
      · exact Or.inl hb
      · exact Or.inr ⟨_, h.onward a ha d hd id hpass, hb⟩
    · exact Or.inr hopen

end Search

/-! ## 2. Routes -/

namespace RouteQuery

variable {q : RouteQuery} {r : Route} {w : List Position}

/-- A search that may take as long as it likes gives up on nothing that can be walked to. -/
theorem Ending.isEmpty_eq_false (hend : q.Ending r) (hbudget : q.options.budget = none)
    (hw : q.Walk w q.goal) : r.isEmpty = false := by
  cases hend with
  | here => rfl
  | barred hgoal hpass =>
    exfalso
    rcases hw.passable_or_start q.goal (List.mem_of_getLast? hw.last) with h | h
    · exact hgoal h.symm
    · rw [hpass] at h
      cases h
  | exhausted _ hs hmin =>
    exfalso
    -- on every walk to the goal there is an open cell, but nothing waits in the queue
    rcases hs.swept.closed_or_open hw with hc | ⟨x, hx, hc⟩
    · exact hs.swept.goal_open hc
    · obtain ⟨rank, hrank⟩ :=
        hs.swept.waiting x _ (Std.ExtTreeMap.getElem?_eq_some_getElem hx) hc
      rw [getElem?_eq_none_of_first hmin] at hrank
      cases hrank
  | overBudget _ _ _ _ _ hover =>
    rw [hbudget] at hover
    cases hover
  | @found s rank e _ hs hmin _ hcell =>
    have hl := Std.ExtTreeMap.getElem?_eq_some_getElem
      (hs.rooted.queued rank e (getElem?_of_first hmin))
    obtain ⟨v, hv, hroute⟩ := hs.rooted.routeTo_eq hl
    rw [← hcell, hroute]
    exact List.isEmpty_eq_false_iff.mpr hv.walk.ne_nil

/-- Without a budget there is a route exactly if there is a walk, however much it costs. -/
theorem route_complete (q : RouteQuery) (hbudget : q.options.budget = none) :
    q.route.isEmpty = false ↔ ∃ w, q.Walk w q.goal := by
  constructor
  · intro hfound
    exact ⟨_, (q.route_waypoints hfound).1⟩
  · rintro ⟨w, hw⟩
    exact q.ending.isEmpty_eq_false hbudget hw

end RouteQuery

end Delve

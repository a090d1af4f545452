import Delve.Proofs.Route.Work
/-!
# Expansions

What the expansion of a cell makes of a search, said once for all the steps from the cell together
(`Search.Looks`). Two things follow that hold of every search, whether its numbers run over or not:
the label of a closed cell is never touched again, and no two entries of the queue ever tie.
-/

namespace Delve

namespace Search

variable {q : RouteQuery} {s s' t u : Search} {e : QueueEntry} {d : Int32 × Int32}
  {ds ds' : List (Int32 × Int32)} {c : Position}

/-! ## 1. The steps from a cell -/

/-- The step `d` from `e` leads to an open cell that may be stepped onto, and more cheaply than any
way there so far. -/
structure Improves (q : RouteQuery) (s : Search) (e : QueueEntry) (d : Int32 × Int32) : Prop where
  unclosed : e.reach d ∉ s.closed
  passable : q.passable (e.reach d) = true
  cheaper : ∀ l, s.labels[e.reach d]? = some l → e.cost + stepCost d.1 d.2 < l.cost

/-- What it does to `s` to look at the steps `ds` from `e`: cells are labelled and queued by the
steps that improve on `s`, and afterwards no step is left that would improve anything. -/
structure Looks (q : RouteQuery) (e : QueueEntry) (ds : List (Int32 × Int32)) (s s' : Search) :
    Prop where
  closed : s'.closed = s.closed
  labels : ∀ (c : Position) (l : RouteLabel), s'.labels[c]? = some l → s.labels[c]? = some l ∨
    ∃ d ∈ ds, Improves q s e d ∧ c = e.reach d ∧ l = ⟨some e.cell, e.cost + stepCost d.1 d.2⟩
  lowered : ∀ (c : Position) (l : RouteLabel), s.labels[c]? = some l →
    ∃ l', s'.labels[c]? = some l' ∧ l'.cost ≤ l.cost
  queue : ∀ (r : QueueRank) (e' : QueueEntry), s'.queue[r]? = some e' → s.queue[r]? = some e' ∨
    ∃ d ∈ ds, Improves q s e d ∧ e' = ⟨e.reach d, e.cost + stepCost d.1 d.2⟩ ∧
      r.estimate = e.cost + stepCost d.1 d.2 + (e.reach d).blockDistance q.goal
  looked : ∀ d ∈ ds, e.reach d ∈ s.closed ∨ q.passable (e.reach d) = false ∨
    ∃ l, s'.labels[e.reach d]? = some l ∧ l.cost ≤ e.cost + stepCost d.1 d.2

theorem Looks.nil (q : RouteQuery) (e : QueueEntry) (s : Search) : Looks q e [] s s where
  closed := rfl
  labels _ _ hl := Or.inl hl
  lowered _ l hl := ⟨l, hl, UInt32.le_refl _⟩
  queue _ _ he := Or.inl he
  looked _ hd := absurd hd List.not_mem_nil

theorem Looks.one (q : RouteQuery) (e : QueueEntry) (d : Int32 × Int32) (s : Search) :
    Looks q e [d] s (consider q e s d) := by
  rcases consider_cases q e s d with ⟨_, _, heq, hwhy⟩ | ⟨hopen, hpass, hless, heq⟩
  · rw [heq]
    refine ⟨rfl, fun _ _ ↦ Or.inl, fun _ l hl ↦ ⟨l, hl, UInt32.le_refl _⟩, fun _ _ ↦ Or.inl, ?_⟩
    intro d' hd'
    obtain rfl := List.mem_singleton.mp hd'
    exact hwhy
  · have himproves : Improves q s e d := ⟨hopen, hpass, hless⟩
    have hself := labels_enqueue_self q (e.reach d) ⟨some e.cell, e.cost + stepCost d.1 d.2⟩
      { s with asked := s.asked + 1 }
    have hkeep {c : Position} (hc : e.reach d ≠ c) := labels_enqueue_of_ne hc q
      ⟨some e.cell, e.cost + stepCost d.1 d.2⟩ { s with asked := s.asked + 1 }
    rw [heq]
    refine ⟨rfl, ?_, ?_, ?_, ?_⟩
    · intro c l hl
      by_cases hc : e.reach d = c
      · subst hc
        obtain rfl := Option.some_inj.mp (hself.symm.trans hl)
        exact Or.inr ⟨d, List.mem_singleton_self d, himproves, rfl, rfl⟩
      · exact Or.inl ((hkeep hc).symm.trans hl)
    · intro c l hl
      by_cases hc : e.reach d = c
      · subst hc
        exact ⟨_, hself, UInt32.le_of_lt (hless l hl)⟩
      · exact ⟨l, (hkeep hc).trans hl, UInt32.le_refl _⟩
    · intro r e' he'
      rw [queue_enqueue] at he'
      split at he'
      · rename_i hr
        cases he'
        exact Or.inr ⟨d, List.mem_singleton_self d, himproves, rfl, by rw [← hr]⟩
      · exact Or.inl he'
    · intro d' hd'
      obtain rfl := List.mem_singleton.mp hd'
      exact Or.inr (Or.inr ⟨_, hself, UInt32.le_refl _⟩)

/-- What improves on the later labels also improves on the earlier ones. -/
theorem Improves.of_looks (h : Looks q e ds s t) (hd : Improves q t e d) : Improves q s e d := by
  refine ⟨?_, hd.passable, ?_⟩
  · rw [← h.closed]
    exact hd.unclosed
  · intro l hl
    obtain ⟨l', hl', hle⟩ := h.lowered _ l hl
    exact UInt32.lt_of_lt_of_le (hd.cheaper l' hl') hle

theorem Looks.append (h : Looks q e ds s t) (h' : Looks q e ds' t u) :
    Looks q e (ds ++ ds') s u := by
  refine ⟨h'.closed.trans h.closed, ?_, ?_, ?_, ?_⟩
  · intro c l hl
    rcases h'.labels c l hl with hl | ⟨d, hd, himproves, hnew⟩
    · rcases h.labels c l hl with hl | ⟨d, hd, hnew⟩
      · exact Or.inl hl
      · exact Or.inr ⟨d, List.mem_append_left _ hd, hnew⟩
    · exact Or.inr ⟨d, List.mem_append_right _ hd, himproves.of_looks h, hnew⟩
  · intro c l hl
    obtain ⟨l', hl', hle⟩ := h.lowered c l hl
    obtain ⟨l'', hl'', hle'⟩ := h'.lowered c l' hl'
    exact ⟨l'', hl'', UInt32.le_trans hle' hle⟩
  · intro r e' he'
    rcases h'.queue r e' he' with he' | ⟨d, hd, himproves, hnew⟩
    · rcases h.queue r e' he' with he' | ⟨d, hd, hnew⟩
      · exact Or.inl he'
      · exact Or.inr ⟨d, List.mem_append_left _ hd, hnew⟩
    · exact Or.inr ⟨d, List.mem_append_right _ hd, himproves.of_looks h, hnew⟩
  · intro d hd
    rcases List.mem_append.mp hd with hd | hd
    · rcases h.looked d hd with hclosed | hbar | ⟨l, hl, hle⟩
      · exact Or.inl hclosed
      · exact Or.inr (Or.inl hbar)
      · obtain ⟨l', hl', hle'⟩ := h'.lowered _ l hl
        exact Or.inr (Or.inr ⟨l', hl', UInt32.le_trans hle' hle⟩)
    · rw [← h.closed]
      exact h'.looked d hd

theorem looks_foldl (q : RouteQuery) (e : QueueEntry) (ds : List (Int32 × Int32)) (s : Search) :
    Looks q e ds s (ds.foldl (consider q e) s) := by
  induction ds generalizing s with
  | nil => exact .nil q e s
  | cons d ds ih => exact (Looks.one q e d s).append (ih _)

theorem looks_expand (q : RouteQuery) (e : QueueEntry) (s : Search) :
    Looks q e q.options.steps (s.close e) (s.expand q e) :=
  looks_foldl q e q.options.steps (s.close e)

/-! ## 2. What is closed is settled -/

theorem Looks.label_eq (h : Looks q e ds s s') (hc : c ∈ s.closed) {l : RouteLabel}
    (hl : s.labels[c]? = some l) : s'.labels[c]? = some l := by
  obtain ⟨l', hl', -⟩ := h.lowered c l hl
  rcases h.labels c l' hl' with hold | ⟨d, -, himproves, rfl, -⟩
  · rw [hl', ← hold, hl]
  · exact absurd hc himproves.unclosed

/-- Every entry in the queue has an arrival of its own, and the next one has too. -/
structure Numbered (s : Search) : Prop where
  below : ∀ (r : QueueRank) (e : QueueEntry), s.queue[r]? = some e → r.arrival < s.queued
  distinct : ∀ (r r' : QueueRank) (e e' : QueueEntry), s.queue[r]? = some e →
    s.queue[r']? = some e' → r.arrival = r'.arrival → r = r'

theorem Numbered.initial (q : RouteQuery) : Numbered (Search.initial q) where
  below r e he := by
    obtain ⟨rfl, -⟩ := queue_initial he
    exact Nat.zero_lt_one
  distinct r r' e e' he he' _ := by
    obtain ⟨rfl, -⟩ := queue_initial he
    obtain ⟨rfl, -⟩ := queue_initial he'
    rfl

theorem Numbered.enqueue (h : Numbered s) (q : RouteQuery) (c : Position) (label : RouteLabel) :
    Numbered (s.enqueue q c label) := by
  refine ⟨?_, ?_⟩
  · intro r e he
    rw [queue_enqueue] at he
    split at he
    · rename_i hr
      rw [← hr]
      exact Nat.lt_succ_self _
    · exact Nat.lt_succ_of_lt (h.below r e he)
  · -- an entry that was there before came earlier than the new one
    intro r r' e e' he he' hsame
    rw [queue_enqueue] at he he'
    split at he <;> split at he'
    · rename_i hr hr'
      exact hr.symm.trans hr'
    · rename_i hr _
      have hlt := h.below r' e' he'
      rw [← hsame, ← hr] at hlt
      exact absurd hlt (Nat.lt_irrefl _)
    · rename_i _ hr'
      have hlt := h.below r e he
      rw [hsame, ← hr'] at hlt
      exact absurd hlt (Nat.lt_irrefl _)
    · exact h.distinct r r' e e' he he' hsame

theorem Numbered.consider (h : Numbered s) (q : RouteQuery) (e : QueueEntry)
    (d : Int32 × Int32) : Numbered (consider q e s d) := by
  rcases consider_cases q e s d with ⟨_, _, heq, _⟩ | ⟨_, _, _, heq⟩
  · rw [heq]
    exact ⟨h.below, h.distinct⟩
  · rw [heq]
    exact Numbered.enqueue (s := { s with asked := s.asked + 1 }) ⟨h.below, h.distinct⟩ ..

theorem Numbered.dequeue (h : Numbered s) (rank : QueueRank) : Numbered (s.dequeue rank) where
  below r e he := h.below r e (getElem?_of_erase he)
  distinct r r' e e' he he' := h.distinct r r' e e' (getElem?_of_erase he) (getElem?_of_erase he')

theorem Numbered.next (h : Numbered s) (hnext : Next q s s') : Numbered s' := by
  obtain ⟨rank, e, ⟨-, -, rfl⟩ | ⟨-, rfl⟩⟩ := next_cases hnext
  · exact h.dequeue rank
  · have hclose : Numbered ((s.dequeue rank).close e) :=
      ⟨(h.dequeue rank).below, (h.dequeue rank).distinct⟩
    exact List.foldlRecOn _ _ hclose fun s hs d _ ↦ hs.consider q e d

theorem Numbered.nodup (h : Numbered s) : (s.queue.toList.map fun x ↦ x.1.arrival).Nodup := by
  refine List.pairwise_map.mpr ?_
  refine Std.ExtTreeMap.distinct_keys_toList.imp_of_mem ?_
  intro x y hx hy hne hsame
  have hx := Std.ExtTreeMap.mem_toList_iff_getElem?_eq_some.mp hx
  have hy := Std.ExtTreeMap.mem_toList_iff_getElem?_eq_some.mp hy
  rw [h.distinct x.1 y.1 x.2 y.2 hx hy hsame] at hne
  exact hne Std.ReflCmp.compare_self

end Search

end Delve

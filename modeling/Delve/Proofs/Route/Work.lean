import Mathlib.Data.Set.Card
import Delve.Proofs.Route.Complete
/-!
# The work of a search

What a search costs, whatever it finds: how many cells it expands, how many entries it queues, how
often it asks whether a cell is passable, and how large its numbers become. Everything is counted
against the number of cells that may be stepped onto. The list of expanded entries is kept beside
the state for it (`Search.Traces`), and the counters of the state are compared with its length. The
main statement is `RouteQuery.search_work`.
-/

namespace Delve

/-! ## 1. The cells that there are for a walk -/

namespace RouteQuery

variable {q : RouteQuery} {c : Position} {w cells : List Position}

/-- The number of cells that may be stepped onto. -/
noncomputable def passableCount (q : RouteQuery) : Nat := {c | q.passable c = true}.ncard

theorem length_le_passableCount (hnodup : cells.Nodup) (h : ∀ c ∈ cells, q.passable c = true) :
    cells.length ≤ q.passableCount := by
  rw [← List.toFinset_card_of_nodup hnodup, ← Set.ncard_coe_finset]
  refine Set.ncard_le_ncard ?_ (Set.toFinite _)
  intro c hc
  exact h c (List.mem_toFinset.mp hc)

/-- The start need not be passable, and may be one cell more. -/
theorem length_le_passableCount_succ (hnodup : cells.Nodup)
    (h : ∀ c ∈ cells, c = q.start ∨ q.passable c = true) : cells.length ≤ q.passableCount + 1 := by
  have hothers : (cells.erase q.start).length ≤ q.passableCount := by
    apply length_le_passableCount (hnodup.erase _)
    intro c hc
    obtain ⟨hne, hc⟩ := hnodup.mem_erase_iff.mp hc
    exact (h c hc).resolve_left hne
  rw [List.length_erase] at hothers
  split at hothers <;> omega

/-- A walk that comes to no cell twice takes one step for each passable cell at most. -/
theorem Walk.cost_le (hw : q.Walk w c) (hnodup : w.Nodup) : walkCost w ≤ 20 * q.passableCount := by
  cases w with
  | nil => exact absurd rfl hw.ne_nil
  | cons first rest =>
    obtain rfl : first = q.start := by simpa using hw.head
    obtain ⟨hstart, hrest⟩ := List.nodup_cons.mp hnodup
    have hpass : ∀ x ∈ rest, q.passable x = true := by
      intro x hx
      apply (hw.passable_or_start x (List.mem_cons_of_mem _ hx)).resolve_left
      rintro rfl
      exact hstart hx
    have hlen := length_le_passableCount hrest hpass
    have hcost := walkCost_le (q.start :: rest)
    rw [List.length_cons] at hcost
    omega

end RouteQuery

/-! ## 2. The entries that a search expands -/

namespace Search

variable {q : RouteQuery} {s s' : Search} {e : QueueEntry} {es : List QueueEntry}
  {rank : QueueRank} {d : Int32 × Int32}

/-- At `s` the search takes the entry `e` out of the queue and expands its cell. -/
structure Expansion (q : RouteQuery) (s : Search) (rank : QueueRank) (e : QueueEntry) : Prop where
  first : s.queue.minEntry? = some (rank, e)
  fresh : s.isStale e = false
  away : e.cell ≠ q.goal
  funded : q.options.budget.any (· ≤ s.expanded) = false

/-- A search for `q` comes to `s`, and has expanded the entries `es` by then, in this order. -/
inductive Traces (q : RouteQuery) : List QueueEntry → Search → Prop
  | start : Traces q [] (Search.initial q)
  | skip {es : List QueueEntry} {s : Search} {rank : QueueRank} {e : QueueEntry} :
      Traces q es s → s.queue.minEntry? = some (rank, e) → s.isStale e = true →
      Traces q es (s.dequeue rank)
  | expand {es : List QueueEntry} {s : Search} {rank : QueueRank} {e : QueueEntry} :
      Traces q es s → Expansion q s rank e → Traces q (es ++ [e]) ((s.dequeue rank).expand q e)

theorem expand_eq_foldl (q : RouteQuery) (e : QueueEntry) (s : Search) :
    s.expand q e = q.options.steps.foldl (consider q e) (s.close e) := rfl

theorem next_dequeue (hfirst : s.queue.minEntry? = some (rank, e)) (hstale : s.isStale e = true) :
    Next q s (s.dequeue rank) := by
  unfold Next step
  rw [hfirst]
  exact if_pos hstale

/-- What becomes of an entry that has not been overtaken. -/
theorem step_of_fresh (hfirst : s.queue.minEntry? = some (rank, e)) (hfresh : s.isStale e = false) :
    s.step q =
      if e.cell = q.goal then .done ⟨s.routeTo q.goal, s.asked⟩
      else if q.options.budget.any (· ≤ s.expanded) then .done ⟨.unreachable, s.asked⟩
      else .next ((s.dequeue rank).expand q e) := by
  have hstale : ¬ s.isStale e = true := Bool.eq_false_iff.mp hfresh
  unfold step
  rw [hfirst]
  exact if_neg hstale

theorem Expansion.next (h : Expansion q s rank e) : Next q s ((s.dequeue rank).expand q e) := by
  have hfunded : ¬ q.options.budget.any (· ≤ s.expanded) = true := Bool.eq_false_iff.mp h.funded
  unfold Next
  rw [step_of_fresh h.first h.fresh, if_neg h.away, if_neg hfunded]

theorem next_cases (h : Next q s s') :
    ∃ rank e, (s.queue.minEntry? = some (rank, e) ∧ s.isStale e = true ∧ s' = s.dequeue rank) ∨
      Expansion q s rank e ∧ s' = (s.dequeue rank).expand q e := by
  obtain ⟨rank, e, hfirst, hcases⟩ := step_eq_next h
  refine ⟨rank, e, ?_⟩
  rcases hcases with ⟨hstale, heq⟩ | ⟨hfresh, haway, hfunded, heq⟩
  · exact Or.inl ⟨hfirst, hstale, heq⟩
  · exact Or.inr ⟨⟨hfirst, hfresh, haway, hfunded⟩, heq⟩

theorem Traces.visits (h : Traces q es s) : Visits q s := by
  induction h with
  | start => exact .refl
  | skip _ hfirst hstale ih => exact ih.tail (next_dequeue hfirst hstale)
  | expand _ he ih => exact ih.tail he.next

theorem Visits.exists_traces (h : Visits q s) : ∃ es, Traces q es s := by
  induction h with
  | refl => exact ⟨[], .start⟩
  | tail _ hnext ih =>
    obtain ⟨es, hes⟩ := ih
    obtain ⟨rank, e, hcases⟩ := next_cases hnext
    rcases hcases with ⟨hfirst, hstale, rfl⟩ | ⟨he, rfl⟩
    · exact ⟨es, hes.skip hfirst hstale⟩
    · exact ⟨es ++ [e], hes.expand he⟩

/-! ## 3. What is counted -/

theorem counters_consider (q : RouteQuery) (e : QueueEntry) (s : Search) (d : Int32 × Int32) :
    (consider q e s d).expanded = s.expanded ∧ (consider q e s d).queued ≤ s.queued + 1 ∧
      (consider q e s d).asked ≤ s.asked + 1 := by
  rcases consider_cases q e s d with ⟨asked, hasked, h, _⟩ | ⟨_, _, _, h⟩ <;> rw [h]
  · exact ⟨rfl, Nat.le_succ _, hasked⟩
  · exact ⟨rfl, Nat.le_refl _, Nat.le_refl _⟩

theorem counters_foldl_consider (q : RouteQuery) (e : QueueEntry) (ds : List (Int32 × Int32))
    (s : Search) :
    (ds.foldl (consider q e) s).expanded = s.expanded ∧
      (ds.foldl (consider q e) s).queued ≤ s.queued + ds.length ∧
      (ds.foldl (consider q e) s).asked ≤ s.asked + ds.length := by
  induction ds generalizing s with
  | nil => exact ⟨rfl, Nat.le_refl _, Nat.le_refl _⟩
  | cons d ds ih =>
    obtain ⟨hexpanded, hqueued, hasked⟩ := counters_consider q e s d
    obtain ⟨hexpanded', hqueued', hasked'⟩ := ih (consider q e s d)
    rw [List.foldl_cons, List.length_cons]
    omega

/-- The counters of a search, against the entries that it has expanded: their cells are the closed
ones, none of them twice, and each has led to eight questions and eight new entries at most. -/
structure Tally (q : RouteQuery) (es : List QueueEntry) (s : Search) : Prop where
  closed : ∀ c, c ∈ s.closed ↔ c ∈ es.map QueueEntry.cell
  nodup : (es.map QueueEntry.cell).Nodup
  expanded : s.expanded = es.length
  queued : s.queued ≤ 8 * es.length + 1
  asked : s.asked ≤ 8 * es.length + 1
  budget : ∀ b, q.options.budget = some b → es.length ≤ b

theorem Tally.initial (q : RouteQuery) : Tally q [] (Search.initial q) where
  closed c := by simp [Search.initial, enqueue]
  nodup := List.nodup_nil
  expanded := rfl
  queued := Nat.le_refl _
  asked := Nat.le_refl _
  budget _ _ := Nat.zero_le _

theorem Tally.expand (h : Tally q es s) (he : Expansion q s rank e) :
    Tally q (es ++ [e]) ((s.dequeue rank).expand q e) := by
  have hopen : e.cell ∉ s.closed := (not_isStale he.fresh).1
  have hsteps := q.options.length_steps_le
  obtain ⟨hexpanded, hqueued, hasked⟩ :=
    counters_foldl_consider q e q.options.steps ((s.dequeue rank).close e)
  change _ ≤ s.queued + _ at hqueued
  change _ ≤ s.asked + _ at hasked
  have hlen : (es ++ [e]).length = es.length + 1 := by
    rw [List.length_append, List.length_singleton]
  rw [expand_eq_foldl]
  refine ⟨?_, ?_, ?_, ?_, ?_, ?_⟩
  · intro c
    rw [closed_foldl_consider, mem_closed_close, List.map_append, List.mem_append,
      List.map_singleton, List.mem_singleton, ← h.closed c, or_comm]
  · rw [List.map_append, List.map_singleton, ← List.concat_eq_append]
    exact h.nodup.concat ((h.closed e.cell).not.mp hopen)
  · rw [hexpanded, hlen, ← h.expanded]
    rfl
  · have hcount := h.queued
    omega
  · have hcount := h.asked
    omega
  · -- the budget was not used up when the last entry was expanded
    intro b hb
    have hfunded := he.funded
    rw [hb, Option.any_some, h.expanded, decide_eq_false_iff_not] at hfunded
    omega

theorem Traces.tally (h : Traces q es s) : Tally q es s := by
  induction h with
  | start => exact .initial q
  | skip _ _ _ ih => exact ⟨ih.closed, ih.nodup, ih.expanded, ih.queued, ih.asked, ih.budget⟩
  | expand _ he ih => exact ih.expand he

theorem Traces.length_le (h : Traces q es s) : es.length ≤ q.passableCount + 1 := by
  rw [← List.length_map (f := QueueEntry.cell)]
  apply RouteQuery.length_le_passableCount_succ h.tally.nodup
  -- whatever is closed has been walked to
  intro c hc
  have hclosed := (h.tally.closed c).mpr hc
  obtain ⟨w, hw⟩ := h.visits.rooted.lineage c (h.visits.swept.labelled c hclosed)
  exact hw.walk.passable_or_start c (List.mem_of_getLast? hw.walk.last)

/-! ## 4. How large the numbers become -/

/-- While the search expands `e`, it works out what it costs to go on by the step `d`: the cell
behind the step is not closed and may be stepped onto. -/
structure Weighs (q : RouteQuery) (s : Search) (rank : QueueRank) (e : QueueEntry)
    (d : Int32 × Int32) : Prop extends Expansion q s rank e where
  step : d ∈ q.options.steps
  unclosed : e.reach d ∉ ((s.dequeue rank).close e).closed
  passable : q.passable (e.reach d) = true

/-- A cost that is worked out belongs to a walk that comes to no cell twice. Should the words have
run over by then, so much the smaller is the number. -/
theorem Weighs.cost_le (h : Weighs q s rank e d) (hs : Visits q s) :
    e.cost.toNat + (stepCost d.1 d.2).toNat ≤ 20 * q.passableCount := by
  have hmem := hs.rooted.queued rank e (getElem?_of_first h.first)
  obtain ⟨w, hw⟩ := hs.rooted.lineage e.cell hmem
  obtain ⟨l, hl, hcost⟩ := hw.cost
  rw [(not_isStale h.fresh).2 l hl] at hcost
  have hword : e.cost.toNat ≤ walkCost w := by
    rw [hcost, UInt32.toNat_ofNat']
    exact Nat.mod_le _ _
  have hnew : e.reach d ∉ w := by
    -- all cells of the walk but the last are closed, and the last is being closed
    intro hx
    apply h.unclosed
    apply mem_closed_close.mpr
    by_cases hcell : e.reach d = e.cell
    · exact Or.inl hcell
    · exact Or.inr (hw.mem_closed _ hx hcell)
  have hnodup : (w ++ [e.reach d]).Nodup := by
    rw [← List.concat_eq_append]
    exact hw.nodup.concat hnew
  have hwalk := hw.walk.concat (b := e.reach d) ⟨d, h.step, rfl, h.passable⟩
  have hbound := hwalk.cost_le hnodup
  rw [walkCost_concat hw.walk.last, QueueEntry.reach, legCost_offset] at hbound
  omega

/-- None of the numbers that a search for `q` works out runs over: neither the costs nor the
distances nor the sums of both by which the queue is ordered. -/
structure KeepsToWords (q : RouteQuery) : Prop where
  start : (q.start.blockDistance q.goal).toNat = q.start.separation q.goal
  cost : ∀ s rank e d, Visits q s → Weighs q s rank e d →
    (e.cost + stepCost d.1 d.2).toNat = e.cost.toNat + (stepCost d.1 d.2).toNat
  distance : ∀ s rank e d, Visits q s → Weighs q s rank e d →
    ((e.reach d).blockDistance q.goal).toNat = (e.reach d).separation q.goal
  estimate : ∀ s rank e d, Visits q s → Weighs q s rank e d →
    (e.cost + stepCost d.1 d.2 + (e.reach d).blockDistance q.goal).toNat =
      e.cost.toNat + (stepCost d.1 d.2).toNat + (e.reach d).separation q.goal

theorem keepsToWords_of_passableCount (h : ∀ c, c = q.start ∨ q.passable c = true →
    20 * q.passableCount + c.separation q.goal < 2 ^ 32) : KeepsToWords q := by
  have hstart := h q.start (Or.inl rfl)
  have hsum : ∀ s rank e d, Visits q s → Weighs q s rank e d →
      e.cost.toNat + (stepCost d.1 d.2).toNat + (e.reach d).separation q.goal < 2 ^ 32 := by
    intro s rank e d hs hd
    have hcost := hd.cost_le hs
    have hcell := h (e.reach d) (Or.inr hd.passable)
    omega
  have hcost : ∀ s rank e d, Visits q s → Weighs q s rank e d →
      (e.cost + stepCost d.1 d.2).toNat = e.cost.toNat + (stepCost d.1 d.2).toNat := by
    intro s rank e d hs hd
    have hroom := hsum s rank e d hs hd
    rw [UInt32.toNat_add, Nat.mod_eq_of_lt (by omega)]
  have hdistance : ∀ s rank e d, Visits q s → Weighs q s rank e d →
      ((e.reach d).blockDistance q.goal).toNat = (e.reach d).separation q.goal := by
    intro s rank e d hs hd
    have hroom := hsum s rank e d hs hd
    exact Position.toNat_blockDistance (by omega)
  refine ⟨Position.toNat_blockDistance (by omega), hcost, hdistance, ?_⟩
  intro s rank e d hs hd
  have hroom := hsum s rank e d hs hd
  rw [UInt32.toNat_add, hcost s rank e d hs hd, hdistance s rank e d hs hd,
    Nat.mod_eq_of_lt hroom]

end Search

/-! ## 5. Whole searches -/

namespace RouteQuery

variable {q : RouteQuery} {es : List QueueEntry} {queued : Nat}

/-- Until it has its answer, the search for `q` expands the entries `es`, in this order, and queues
so many entries. A search that has its answer at once does neither. -/
inductive Work (q : RouteQuery) : List QueueEntry → Nat → Prop
  | here : q.start = q.goal → Work q [] 0
  | barred : q.start ≠ q.goal → q.passable q.goal = false → Work q [] 0
  | searched {es : List QueueEntry} {s : Search} : q.start ≠ q.goal → q.passable q.goal = true →
      Search.Traces q es s → s.step q = .done q.search → Work q es s.queued

/-- Every search comes to its answer. -/
theorem exists_work (q : RouteQuery) : ∃ es queued, q.Work es queued := by
  by_cases hgoal : q.start = q.goal
  · exact ⟨[], 0, .here hgoal⟩
  · by_cases hpass : q.passable q.goal = true
    · obtain ⟨s, hs, hdone⟩ := exists_last hgoal hpass
      obtain ⟨es, hes⟩ := hs.exists_traces
      exact ⟨es, s.queued, .searched hgoal hpass hes hdone⟩
    · exact ⟨[], 0, .barred hgoal (Bool.eq_false_iff.mpr hpass)⟩

theorem asked_of_done {s : Search} {r : SearchResult} (h : s.step q = .done r) :
    r.asked = s.asked := by
  rcases Search.step_eq_done h with ⟨_, rfl⟩ | ⟨_, _, _, _, hcases⟩
  · rfl
  · rcases hcases with ⟨_, rfl⟩ | ⟨_, _, rfl⟩ <;> rfl

theorem Work.length_le (h : q.Work es queued) : es.length ≤ q.passableCount + 1 := by
  cases h with
  | here | barred => exact Nat.zero_le _
  | searched _ _ hes => exact hes.length_le

theorem Work.nodup (h : q.Work es queued) : (es.map QueueEntry.cell).Nodup := by
  cases h with
  | here | barred => exact List.nodup_nil
  | searched _ _ hes => exact hes.tally.nodup

theorem Work.length_le_budget (h : q.Work es queued) {b : Nat} (hb : q.options.budget = some b) :
    es.length ≤ b := by
  cases h with
  | here | barred => exact Nat.zero_le _
  | searched _ _ hes => exact hes.tally.budget b hb

theorem Work.queued_le (h : q.Work es queued) : queued ≤ 8 * es.length + 1 := by
  cases h with
  | here | barred => exact Nat.zero_le _
  | searched _ _ hes => exact hes.tally.queued

theorem Work.asked_le (h : q.Work es queued) : q.search.asked ≤ 8 * es.length + 1 := by
  cases h with
  | here hgoal =>
    rw [search, if_pos hgoal]
    exact Nat.zero_le _
  | barred hgoal hpass =>
    rw [search, if_neg hgoal, if_neg (Bool.eq_false_iff.mp hpass)]
    exact Nat.le_refl _
  | searched _ _ hes hdone =>
    rw [asked_of_done hdone]
    exact hes.tally.asked

/-- Every search comes to its answer, and the parents that it writes down on the way lead back to
the start. It expands each passable cell and the start once at most, and no more cells than its
budget allows, queues and asks eight times as often and once more at most, and works out no cost of
more than 20 for each passable cell. So if words can hold that cost with the distance that is left
to the goal from any cell, none of its numbers runs over. -/
theorem search_work (q : RouteQuery) :
    (∃ es queued, q.Work es queued) ∧
      (∀ es queued, q.Work es queued →
        (es.map QueueEntry.cell).Nodup ∧ es.length ≤ q.passableCount + 1 ∧
          queued ≤ 8 * (q.passableCount + 1) + 1 ∧
          ∀ b, q.options.budget = some b → es.length ≤ b) ∧
      q.search.asked ≤ 8 * (q.passableCount + 1) + 1 ∧
      (∀ s, Search.Visits q s → ∀ c ∈ s.labels, ∃ w, Search.Lineage q s.labels s.closed w c) ∧
      (∀ s rank e d, Search.Visits q s → Search.Weighs q s rank e d →
        e.cost.toNat + (stepCost d.1 d.2).toNat ≤ 20 * q.passableCount) ∧
      ((∀ c, c = q.start ∨ q.passable c = true →
          20 * q.passableCount + c.separation q.goal < 2 ^ 32) → Search.KeepsToWords q) := by
  obtain ⟨es, queued, hwork⟩ := q.exists_work
  refine ⟨⟨es, queued, hwork⟩, ?_, ?_, ?_, ?_, ?_⟩
  · intro es queued h
    have hlength := h.length_le
    have hqueued := h.queued_le
    exact ⟨h.nodup, hlength, by omega, fun b hb ↦ h.length_le_budget hb⟩
  · have hlength := hwork.length_le
    have hasked := hwork.asked_le
    omega
  · intro s hs c hc
    exact hs.rooted.lineage c hc
  · intro s rank e d hs hd
    exact hd.cost_le hs
  · exact Search.keepsToWords_of_passableCount

end RouteQuery

end Delve

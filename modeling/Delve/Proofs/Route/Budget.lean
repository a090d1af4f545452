import Delve.Proofs.Route.Work
/-!
# Searches with a budget

A budget is only ever looked at when a cell is about to be expanded, and it changes nothing but
whether the search goes on. So two searches for the same route under different budgets come through
the same states for as long as both go on, and the number of cells that the search expands without a
budget decides everything: a budget of at least so many changes nothing, and a smaller one finds
nothing (`RouteQuery.budget_threshold`).
-/

namespace Delve

/-! ## 1. The answer of a search -/

namespace Search

variable {q : RouteQuery} {s s' : Search} {r r' : SearchResult}

theorem next_unique : Relator.RightUnique (Next q) := by
  intro s s₁ s₂ h₁ h₂
  unfold Next at h₁ h₂
  rw [h₁] at h₂
  exact SearchStep.next.inj h₂

/-- Where a search stops, it stops for good. -/
theorem eq_of_done (h : Relation.ReflTransGen (Next q) s s') (hdone : s.step q = .done r) :
    s' = s := by
  rcases h.cases_head with heq | ⟨s₁, hnext, -⟩
  · exact heq.symm
  · unfold Next at hnext
    rw [hdone] at hnext
    cases hnext

theorem Visits.eq_of_done (hs : Visits q s) (hs' : Visits q s') (hdone : s.step q = .done r)
    (hdone' : s'.step q = .done r') : r = r' := by
  have hsame : s' = s := by
    rcases Relation.ReflTransGen.total_of_right_unique next_unique hs hs' with h | h
    · exact Search.eq_of_done h hdone
    · exact (Search.eq_of_done h hdone').symm
  rw [hsame, hdone] at hdone'
  exact SearchStep.done.inj hdone'

end Search

theorem RouteQuery.search_eq_of_done {q : RouteQuery} {s : Search} {r : SearchResult}
    (hgoal : q.start ≠ q.goal) (hpass : q.passable q.goal = true) (hs : Search.Visits q s)
    (hdone : s.step q = .done r) : q.search = r := by
  obtain ⟨s', hs', hdone'⟩ := exists_last hgoal hpass
  exact hs'.eq_of_done hs hdone' hdone

/-! ## 2. The same search under another budget -/

/-- The same question, with another budget. -/
def RouteQuery.withBudget (q : RouteQuery) (budget : Option Nat) : RouteQuery :=
  { q with options := { q.options with budget } }

namespace Search

variable {q : RouteQuery} {s : Search} {rank : QueueRank} {e : QueueEntry}
  {es : List QueueEntry} {r : SearchResult} {b : Nat}

theorem any_le_eq_false {budget : Option Nat} {n : Nat} (h : ∀ b, budget = some b → n < b) :
    budget.any (· ≤ n) = false := by
  cases budget with
  | none => rfl
  | some b =>
    have hlt := h b rfl
    rw [Option.any_some, decide_eq_false_iff_not]
    omega

theorem Expansion.withBudget (h : Expansion q s rank e) (budget : Option Nat)
    (hbudget : ∀ b, budget = some b → s.expanded < b) :
    Expansion (q.withBudget budget) s rank e :=
  ⟨h.first, h.fresh, h.away, any_le_eq_false hbudget⟩

/-- What a search has done it also does under a budget that is not smaller than that. -/
theorem Traces.withBudget (h : Traces q es s) (budget : Option Nat)
    (hbudget : ∀ b, budget = some b → es.length ≤ b) : Traces (q.withBudget budget) es s := by
  induction h with
  | start => exact .start
  | skip _ hfirst hstale ih => exact (ih hbudget).skip hfirst hstale
  | @expand es s rank e hes he ih =>
    have hlater : ∀ b, budget = some b → es.length < b := by
      intro b hb
      have hle := hbudget b hb
      rw [List.length_append, List.length_singleton] at hle
      omega
    have hexpands := he.withBudget budget (by
      rw [hes.tally.expanded]
      exact hlater)
    exact (ih fun b hb ↦ Nat.le_of_lt (hlater b hb)).expand hexpands

/-- Before it has expanded the last of its entries, a search has expanded any smaller number of
them and is about to expand one more. -/
theorem Traces.exists_expansion (h : Traces q es s) (hb : b < es.length) :
    ∃ es' s' rank e, Traces q es' s' ∧ es'.length = b ∧ Expansion q s' rank e := by
  induction h with
  | start => exact absurd hb (Nat.not_lt_zero b)
  | skip _ _ _ ih => exact ih hb
  | @expand es s rank e hes he ih =>
    rw [List.length_append, List.length_singleton] at hb
    by_cases hlast : b = es.length
    · exact ⟨es, s, rank, e, hes, hlast.symm, he⟩
    · exact ih (by omega)

/-- Without a budget a search only stops because the queue is empty or the goal is found, and then
it stops under every budget. -/
theorem step_withBudget_of_done (h : s.step (q.withBudget none) = .done r) (budget : Option Nat) :
    s.step (q.withBudget budget) = .done r := by
  rcases step_eq_done h with ⟨hfirst, rfl⟩ | ⟨rank, e, hfirst, hfresh, hcases⟩
  · unfold step
    rw [hfirst]
  · rcases hcases with ⟨hgoal, rfl⟩ | ⟨-, hover, -⟩
    · exact (step_of_fresh hfirst hfresh).trans (if_pos hgoal)
    · cases hover

/-- A budget that has been used up stops the search where it would expand one more cell. -/
theorem Expansion.step_withBudget (h : Expansion q s rank e) (hb : b ≤ s.expanded) :
    s.step (q.withBudget (some b)) = .done ⟨.unreachable, s.asked⟩ := by
  have hover : ((some b).any fun n ↦ decide (n ≤ s.expanded)) = true := by
    rw [Option.any_some]
    exact decide_eq_true hb
  exact (step_of_fresh h.first h.fresh).trans ((if_neg h.away).trans (if_pos hover))

end Search

/-! ## 3. The threshold -/

namespace RouteQuery

variable {q : RouteQuery} {es : List QueueEntry} {queued b : Nat}

/-- A budget of as many cells as the search expands without one changes nothing, not even how often
a cell is asked to be passable. -/
theorem Work.search_withBudget (h : (q.withBudget none).Work es queued) (hb : es.length ≤ b) :
    (q.withBudget (some b)).search = (q.withBudget none).search := by
  cases h with
  | here hgoal =>
    have hgoal : q.start = q.goal := hgoal
    exact (if_pos hgoal).trans (if_pos hgoal).symm
  | barred hgoal hpass =>
    have hgoal : q.start ≠ q.goal := hgoal
    have hpass : ¬ q.passable q.goal = true := Bool.eq_false_iff.mp hpass
    exact ((if_neg hgoal).trans (if_neg hpass)).trans ((if_neg hgoal).trans (if_neg hpass)).symm
  | searched hgoal hpass hes hdone =>
    have hsame : Search.Traces (q.withBudget (some b)) es _ :=
      hes.withBudget (some b) fun n hn ↦ Option.some.inj hn ▸ hb
    exact search_eq_of_done hgoal hpass hsame.visits
      (Search.step_withBudget_of_done hdone (some b))

/-- Under a smaller budget nothing is found. -/
theorem Work.route_withBudget (h : (q.withBudget none).Work es queued) (hb : b < es.length) :
    (q.withBudget (some b)).route = .unreachable := by
  cases h with
  | here | barred => exact absurd hb (Nat.not_lt_zero b)
  | searched hgoal hpass hes _ =>
    -- the search runs up to where it would expand one cell more than it may
    obtain ⟨es', s', rank, e, hes', hlen, he⟩ := hes.exists_expansion hb
    have hsame : Search.Traces (q.withBudget (some b)) es' s' :=
      hes'.withBudget (some b) fun n hn ↦ by
        rw [hlen]
        exact Nat.le_of_eq (Option.some.inj hn)
    have hused : b ≤ s'.expanded := by rw [hes'.tally.expanded, hlen]
    have hanswer : (q.withBudget (some b)).search = ⟨.unreachable, s'.asked⟩ :=
      search_eq_of_done hgoal hpass hsame.visits (he.step_withBudget hused)
    rw [route, hanswer]

/-- There is a budget from which on the answer is that of a search without a budget, and under which
nothing is found. It is the number of cells that the search expands without a budget: none if the
start is the goal, and one more than there are passable cells at most. So a budget never leads to
another route or to a part of one, and what is found under a budget is found under every larger
one. -/
theorem budget_threshold (q : RouteQuery) :
    ∃ threshold, (∃ es queued, (q.withBudget none).Work es queued ∧ es.length = threshold) ∧
      threshold ≤ q.passableCount + 1 ∧ (q.start = q.goal → threshold = 0) ∧
      (∀ b, threshold ≤ b → (q.withBudget (some b)).search = (q.withBudget none).search) ∧
      (∀ b < threshold, (q.withBudget (some b)).route = .unreachable) ∧
      (∀ b, (q.withBudget (some b)).route = (q.withBudget none).route ∨
        (q.withBudget (some b)).route = .unreachable) ∧
      ∀ b b', b ≤ b' → (q.withBudget (some b)).route.isEmpty = false →
        (q.withBudget (some b')).route = (q.withBudget (some b)).route := by
  obtain ⟨es, queued, hwork⟩ := (q.withBudget none).exists_work
  have hlarge : ∀ b, es.length ≤ b →
      (q.withBudget (some b)).search = (q.withBudget none).search :=
    fun b hb ↦ hwork.search_withBudget hb
  have hsmall : ∀ b < es.length, (q.withBudget (some b)).route = .unreachable :=
    fun b hb ↦ hwork.route_withBudget hb
  refine ⟨es.length, ⟨es, queued, hwork, rfl⟩, hwork.length_le, ?_, hlarge, hsmall, ?_, ?_⟩
  · intro hgoal
    cases hwork with
    | here | barred => rfl
    | searched hne => exact absurd hgoal hne
  · intro b
    by_cases hb : b < es.length
    · exact Or.inr (hsmall b hb)
    · exact Or.inl (congrArg SearchResult.route (hlarge b (by omega)))
  · intro b b' hle hfound
    by_cases hb : b < es.length
    · rw [hsmall b hb] at hfound
      cases hfound
    · exact congrArg SearchResult.route ((hlarge b' (by omega)).trans (hlarge b (by omega)).symm)

-- on the way around the pillar every cell but the goal is expanded
example : (aroundPillar.withBudget (some 3)).route = .unreachable ∧
    (aroundPillar.withBudget (some 4)).route = ⟨[⟨0, 0⟩, ⟨1, 1⟩, ⟨2, 0⟩], 40⟩ := by
  constructor <;> cbv

end RouteQuery

end Delve

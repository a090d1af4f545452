import Mathlib.Data.List.GetD
import Mathlib.Logic.Function.Iterate
import Delve.Proofs.Tree.Visit
import Delve.Tree.Rehearsal
/-!
# Repetition

A repeater answers by how often it was run since the last reset, whatever its child does, and runs
its child once each time. Its count is held at the largest word, which no count exceeds: with that
limit it never comes to an end.
-/

namespace Delve

variable {τ π γ ε : Type}

namespace Repeat

/-! ## 1. Counting -/

/-- What a repeater answers in its `k`-th run. -/
def report (limit : Repeat) (k : Nat) : Status :=
  match limit with
  | .forever => .running
  | .times n => if n.toNat < k ∧ n.toNat + 1 < UInt32.size then .success else .running

/-- What a repeater answers in the runs of a history, if it was run `k` times before. -/
def reports (limit : Repeat) : Nat → List (Tree.Event γ) → List Status
  | _, [] => []
  | k, .run _ :: es => limit.report (k + 1) :: limit.reports (k + 1) es
  | _, .reset :: es => limit.reports 0 es

theorem toNat_iterate_advance (n : UInt32) (k : Nat) :
    ((times n).advance^[k] 0).toNat = min k (UInt32.size - 1) := by
  induction k with
  | zero => rfl
  | succ k ih =>
    rw [Function.iterate_succ_apply', advance, UInt32.toNat_addClamp, ih]
    show min (min k (UInt32.size - 1) + 1) (UInt32.size - 1) = _
    omega

theorem status_iterate_advance (limit : Repeat) (k : Nat) :
    limit.status (limit.advance^[k] 0) = limit.report k := by
  cases limit with
  | forever => rfl
  | times n =>
    have hn := n.toNat_lt
    have hsize : UInt32.size = 2 ^ 32 := rfl
    have hcount := toNat_iterate_advance n k
    rw [status, report]
    refine if_ctx_congr ?_ (fun _ ↦ rfl) (fun _ ↦ rfl)
    rw [UInt32.lt_iff_toNat_lt, hcount]
    omega

/-- With the largest limit a repeater goes on and on. -/
theorem reports_of_largest {n : UInt32} (hn : n.toNat + 1 = UInt32.size)
    (es : List (Tree.Event γ)) (k : Nat) : ∀ s ∈ (times n).reports k es, s = .running := by
  have hreport : ∀ k, (times n).report k = .running := fun k ↦
    if_neg fun h ↦ absurd h.2 (by omega)
  induction es generalizing k with
  | nil => exact List.forall_mem_nil _
  | cons e es ih =>
    cases e with
    | run g => exact List.forall_mem_cons.mpr ⟨hreport (k + 1), ih (k + 1)⟩
    | reset => exact ih 0

end Repeat

namespace Node

/-! ## 2. A repeater and its child -/

variable {R : Repertoire τ π γ ε}

theorem run_repeater (R : Repertoire τ π γ ε) (v : Bool) (limit : Repeat) (count : UInt32)
    (child : Node τ π) (g : γ) :
    (repeater v limit count child).run R g = (child.run R g).map fun r ↦
      ⟨limit.status (limit.advance count), repeater true limit (limit.advance count) r.state,
        r.context⟩ := by
  rw [run]
  cases child.run R g <;> rfl

/-- By induction on the history, with the number of runs since the last reset. -/
theorem observe_repeater (limit : Repeat) (es : List (Tree.Event γ)) (v : Bool) (k : Nat)
    (child : Node τ π) :
    observe (run R) (reset R) (repeater v limit (limit.advance^[k] 0) child) es =
      (observe (run R) (reset R) child es).map
        (List.zipWith (fun s seen ↦ (s, seen.2)) (limit.reports k es)) := by
  induction es generalizing v k child with
  | nil => rfl
  | cons e es ih =>
    cases e with
    | run g =>
      have hrun := run_repeater R v limit (limit.advance^[k] 0) child g
      cases hr : child.run R g with
      | error e =>
        rw [hr] at hrun
        rw [observe_of_error hr, observe_of_error hrun]
        rfl
      | ok r =>
        rw [hr] at hrun
        rw [observe_of_ok hr, observe_of_ok hrun, ← Function.iterate_succ_apply' limit.advance,
          ih true (k + 1) r.state, Repeat.status_iterate_advance, Repeat.reports]
        cases observe (run R) (reset R) r.state es <;> rfl
    | reset => exact ih false 0 (child.reset R)

end Node

namespace Visit

variable {R : Repertoire τ π γ ε} {spot : Address} {v : Visit R}

theorem Rule.visits_of_repeater {b : Bool} {limit : Repeat} {count : UInt32} {child : Node τ π}
    {g : γ} {vs : List (Visit R)} {own : List (Note γ)} {r : Step (Node τ π) γ}
    (h : Rule R spot (.repeater b limit count child) g vs own r) :
    ∃ u : Visit R, vs = [u] ∧ own = [] ∧ u.before = g := by
  cases h with
  | repeater u => exact ⟨u, rfl, rfl, rfl⟩

/-- The child is entered right after the repeater, in the same surroundings, and then no more. -/
theorem Recorded.notes_of_repeater (h : Recorded spot v) {b : Bool} {limit : Repeat}
    {count : UInt32} {child : Node τ π} (hnode : v.node = .repeater b limit count child) :
    ∃ rest, v.notes = .entered spot v.before :: .entered (spot ++ [0]) v.before :: rest ∧
      ∀ x ∈ rest, spot ++ [0] <+: x.spot ∧ ∀ g, x ≠ .entered (spot ++ [0]) g := by
  obtain ⟨vs, own, hv⟩ := h.consists
  obtain ⟨u, rfl, rfl, hbefore⟩ := Rule.visits_of_repeater (hnode ▸ hv.rule)
  have hrec := hv.recorded 0 u rfl
  obtain ⟨vs, own, hu⟩ := hrec.consists
  refine ⟨own ++ vs.flatMap notes, ?_, fun x hx ↦ ⟨hrec.below_spot x ?_, fun g ↦ ?_⟩⟩
  · rw [hv.notes_eq, List.nil_append, List.flatMap_singleton, hu.notes_eq, hbefore]
  · rw [hu.notes_eq]
    exact List.mem_cons_of_mem _ hx
  · exact hu.ne_entered g x hx

end Visit

namespace Tree

/-! ## 3. Histories of a repeater -/

variable {R : Repertoire τ π γ ε}

/-- A repeater stays one, and its child has the history of its own. -/
theorem undergo_repeater (limit : Repeat) (es : List (Event γ)) (v : Bool) (count : UInt32)
    (child : Node τ π) :
    (undergo R ⟨some (.repeater v limit count child)⟩ es).Agree
      (fun t u ↦ ∃ w count' child', t = ⟨some (.repeater w limit count' child')⟩ ∧
        u = ⟨some child'⟩)
      (undergo R ⟨some child⟩ es) := by
  induction es generalizing v count child with
  | nil => exact ⟨v, count, child, rfl, rfl⟩
  | cons e es ih =>
    cases e with
    | run g =>
      rw [undergo, undergo, run_some, run_some, Node.run_repeater]
      cases child.run R g with
      | error e => rfl
      | ok r => exact ih true (limit.advance count) r.state
    | reset => exact ih false 0 (child.reset R)

/-- A repeater answers as often as its limit says that it goes on, and then that it has come to an
end; only the largest limit is never exceeded. Whatever the child answers does not matter: it has a
history of its own, of the same runs in the same surroundings and the same resets, and by the notes
of every run, even after the end, it was evaluated once. -/
theorem repeated_reports (R : Repertoire τ π γ ε) (limit : Repeat) (child : Node τ π)
    (es : List (Event γ)) :
    observe (run R) (reset R) ⟨some (.repeated limit child)⟩ es =
        (observe (run R) (reset R) ⟨some child⟩ es).map
          (List.zipWith (fun s seen ↦ (s, seen.2)) (limit.reports 0 es)) ∧
      (undergo R ⟨some (.repeated limit child)⟩ es).Agree
        (fun t u ↦ ∃ child', t.at? [0] = some child' ∧ u = ⟨some child'⟩ ∧
          ∀ g, (t.signposted.run R.noting (g, [])).ComesTo
            (fun r ↦ ∃ rest, r.context.2 = .entered [] g :: .entered [0] g :: rest ∧
              ∀ x ∈ rest, [0] <+: x.spot ∧ ∀ g', x ≠ .entered [0] g') R.StopsAt)
        (undergo R ⟨some child⟩ es) := by
  constructor
  · rw [observe_some, observe_some]
    exact Node.observe_repeater limit es false 0 child
  · refine (undergo_repeater limit es false 0 child).mono ?_
    rintro _ _ ⟨w, count, child', rfl, rfl⟩
    refine ⟨child', ?_, rfl, fun g ↦ run_signposted_comesTo fun r hr ↦ ?_⟩
    · rw [at?, Option.bind_some, Node.at?, Node.children, List.getElem?_cons_zero,
        Option.bind_some, Node.at?_nil]
    · rcases exists_record hr with ⟨hnone, -⟩ | ⟨v, hv, rfl, -, hnotes, hrec⟩
      · cases hnone
      · have hnode : .repeater w limit count child' = v.node := Option.some.inj (Tree.mk.inj hv)
        rw [hnotes]
        exact hrec.notes_of_repeater hnode.symm

/-- A child that always fails is run each time. -/
example :
    (Rehearsal.performTimes 4 ⟨some (.repeated (.times 2) .fail)⟩ 0).1 =
      [.running, .running, .success, .success] := by
  rfl

theorem running_of_largest {n : UInt32} {child : Node τ π} {es : List (Event γ)}
    {seen : List (Status × γ)} (hn : n.toNat + 1 = UInt32.size)
    (h : observe (run R) (reset R) ⟨some (.repeated (.times n) child)⟩ es = .ok seen) :
    ∀ o ∈ seen, o.1 = .running := by
  have hrepeater := Node.observe_repeater (R := R) (.times n) es false 0 child
  rw [observe_some, Node.repeated] at h
  rw [Function.iterate_zero_apply, h] at hrepeater
  intro o ho
  cases hchild : observe (Node.run R) (Node.reset R) child es with
  | error e =>
    rw [hchild] at hrepeater
    cases hrepeater
  | ok below =>
    rw [hchild] at hrepeater
    cases hrepeater
    obtain ⟨i, hi, rfl⟩ := List.getElem_of_mem ho
    rw [List.getElem_zipWith]
    exact Repeat.reports_of_largest hn es 0 _ (List.getElem_mem _)

theorem length_of_observe {σ : Type} {run : σ → γ → Except ε (Step σ γ)} {reset : σ → σ} {x : σ}
    {g : γ} {k : Nat} {seen : List (Status × γ)}
    (h : observe run reset x (List.replicate k (.run g)) = .ok seen) : seen.length = k := by
  induction k generalizing x seen with
  | zero =>
    cases h
    rfl
  | succ k ih =>
    rw [List.replicate_succ, observe] at h
    obtain ⟨r, -, h⟩ := bind_eq_ok.mp h
    obtain ⟨later, hlater, heq⟩ := bind_eq_ok.mp h
    cases heq
    exact congrArg (· + 1) (ih hlater)

theorem exists_observe {R : Repertoire τ π γ Empty} (t : Tree τ π) (es : List (Event γ)) :
    ∃ seen, observe (run R) (reset R) t es = .ok seen := by
  cases observe (run R) (reset R) t es with
  | error e => exact e.elim
  | ok seen => exact ⟨seen, rfl⟩

/-- After as many runs as the largest limit says, the next one does not come to an end either. -/
theorem largest_limit_never_ends :
    let play : Tree Rehearsal.Role Rehearsal.Cue := ⟨some (.repeated (.times 4294967295) .fail)⟩
    let stage : Rehearsal.Stage := { value := 0 }
    ∃ seen, observe (run Rehearsal.repertoire) (reset Rehearsal.repertoire) play
        (List.replicate 4294967296 (.run stage)) = .ok seen ∧
      seen.length = 4294967296 ∧ ∀ o ∈ seen, o.1 = .running := by
  intro play stage
  obtain ⟨seen, hseen⟩ := play.exists_observe (R := Rehearsal.repertoire)
    (List.replicate 4294967296 (.run stage))
  exact ⟨seen, hseen, length_of_observe hseen, running_of_largest rfl hseen⟩

end Tree

end Delve

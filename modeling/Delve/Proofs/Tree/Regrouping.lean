import Delve.Proofs.Tree.Equivalence
import Delve.Tree.Rehearsal
/-!
# Regrouping a tree

A sequence in a sequence is as good as its children in its place, and so is a selector in a
selector, unless it is empty: an empty one fails, where no children are passed over. A single child
needs neither, a failure need not be forgiven twice, and what stands behind a certain failure in a
sequence never runs. Wherever in a tree it is done, none of this can be observed.
-/

namespace Delve

variable {τ π γ ε : Type}

namespace Node

variable {R : Repertoire τ π γ ε} {on : Status} {make : Bool → List (Node τ π) → Node τ π}

/-! ## 1. Children in two parts -/

/-- The second part is run if all of the first part come to `on`. -/
theorem runWhile_append (xs ys : List (Node τ π)) (g : γ) :
    runWhile R on (xs ++ ys) g = (runWhile R on xs g).bind fun r ↦
      if r.status = on then
        (runWhile R on ys r.context).map fun s ↦ ⟨s.status, r.state ++ s.state, s.context⟩
      else .ok ⟨r.status, r.state ++ ys, r.context⟩ := by
  induction xs generalizing g with
  | nil =>
    simp only [List.nil_append, runWhile, Except.bind, ↓reduceIte]
    cases runWhile R on ys g <;> rfl
  | cons x xs ih =>
    rw [List.cons_append, runWhile, runWhile]
    cases x.run R g with
    | error e => rfl
    | ok r =>
      by_cases hr : r.status = on
      · simp only [bind, Except.bind, hr, ↓reduceIte, ih]
        cases runWhile R on xs r.context with
        | error e => rfl
        | ok q =>
          by_cases hq : q.status = on
          · simp only [hq, ↓reduceIte]
            cases runWhile R on ys q.context <;> rfl
          · simp only [hq, ↓reduceIte, List.cons_append]
      · simp only [bind, Except.bind, hr, ↓reduceIte, List.cons_append]

theorem length_of_runWhile {cs : List (Node τ π)} {g : γ} {r : Step (List (Node τ π)) γ}
    (hr : runWhile R on cs g = .ok r) : r.state.length = cs.length := by
  induction cs generalizing g r with
  | nil =>
    cases hr
    rfl
  | cons c cs ih =>
    rw [runWhile] at hr
    obtain ⟨q, -, hrest⟩ := bind_eq_ok.mp hr
    split at hrest
    · obtain ⟨q', hq', heq⟩ := bind_eq_ok.mp hrest
      cases heq
      exact congrArg (· + 1) (ih hq')
    · cases hrest
      rfl

/-! ## 2. The laws -/

/-- Children that stand together on the left and by themselves on the right. -/
inductive Grouped (make : Bool → List (Node τ π) → Node τ π) :
    List (Node τ π) → List (Node τ π) → Prop
  | group {v : Bool} {xs ys zs : List (Node τ π)} : ys ≠ [] →
      Grouped make (xs ++ make v ys :: zs) (xs ++ (ys ++ zs))

theorem Grouped.ne_nil {cs ds : List (Node τ π)} (h : Grouped make cs ds) : cs ≠ [] ∧ ds ≠ [] := by
  cases h with | group hys =>
  exact ⟨by simp, by simp [hys]⟩

/-- One run of the children goes through them in the same order, and leaves the same ones out. -/
theorem runWhile_grouped (h : Composes R on make) {cs ds : List (Node τ π)}
    (hcs : Grouped make cs ds) (g : γ) :
    (runWhile R on cs g).Agree (Step.Corresponds (Grouped make)) (runWhile R on ds g) := by
  obtain @⟨v, xs, ys, zs, hys⟩ := hcs
  obtain ⟨y, ys, rfl⟩ := List.exists_cons_of_ne_nil hys
  rw [runWhile_append, runWhile_append xs]
  cases runWhile R on xs g with
  | error e => rfl
  | ok r =>
    by_cases hr : r.status = on
    · simp only [Except.bind, hr, ↓reduceIte]
      rw [runWhile, h.run_cons, runWhile_append]
      cases hq : runWhile R on (y :: ys) r.context with
      | error e => rfl
      | ok q =>
        have hne : q.state ≠ [] := List.ne_nil_of_length_eq_add_one (length_of_runWhile hq)
        by_cases hon : q.status = on
        · simp only [bind, Except.bind, Except.map, Step.mapState, hon, ↓reduceIte]
          cases runWhile R on zs q.context with
          | error e => rfl
          | ok s => exact ⟨rfl, rfl, .group hne⟩
        · simp only [bind, Except.bind, Except.map, Step.mapState, hon, ↓reduceIte]
          exact ⟨rfl, rfl, .group hne⟩
    · simp only [Except.bind, hr, ↓reduceIte]
      exact ⟨rfl, rfl, .group hys⟩

/-- One node put together differently from the same subtrees. Which nodes have been visited does
not matter. -/
inductive Regroups (R : Repertoire τ π γ ε) : Node τ π → Node τ π → Prop
  | nested {on : Status} {make : Bool → List (Node τ π) → Node τ π} {v w : Bool}
    {cs ds : List (Node τ π)} : Composes R on make → Grouped make cs ds →
      Regroups R (make v cs) (make w ds)
  | single {on : Status} {make : Bool → List (Node τ π) → Node τ π} {v : Bool} {n : Node τ π} :
    Composes R on make → Regroups R (make v [n]) n
  | forgiven {u v w : Bool} {n : Node τ π} :
    Regroups R (ignoreFailure u (ignoreFailure v n)) (ignoreFailure w n)
  | cut {u v w x : Bool} {xs zs : List (Node τ π)} :
    Regroups R (sequence u (xs ++ failure v :: zs)) (sequence w (xs ++ [failure x]))

theorem regroups_bisimulates (R : Repertoire τ π γ ε) : Bisimulates R (Regroups R) where
  run {_ m} g h := by
    cases h with
    | nested hmake hcs =>
      rw [hmake.run_of_ne_nil hcs.ne_nil.1, hmake.run_of_ne_nil hcs.ne_nil.2]
      refine (runWhile_grouped hmake hcs g).map fun r q hrq ↦ ?_
      exact ⟨hrq.status_eq, hrq.context_eq, .nested hmake hrq.state⟩
    | single hmake =>
      rw [hmake.run_cons, runWhile]
      cases m.run R g with
      | error e => rfl
      | ok r =>
        simp only [bind, Except.bind]
        split
        · next hon => exact ⟨hon.symm, rfl, .single hmake⟩
        · exact ⟨rfl, rfl, .single hmake⟩
    | @forgiven _ _ _ n =>
      rw [run, run, run]
      cases n.run R g with
      | error e => rfl
      | ok r =>
        simp only [bind, Except.bind]
        refine ⟨?_, rfl, .forgiven⟩
        cases r.status <;> rfl
    | @cut _ v _ x xs zs =>
      have hmake := sequence_composes R
      rw [hmake.run_of_ne_nil (by simp), hmake.run_of_ne_nil (by simp), runWhile_append,
        runWhile_append xs]
      cases runWhile R .success xs g with
      | error e => rfl
      | ok r =>
        by_cases hr : r.status = .success
        · simp only [Except.bind, hr, ↓reduceIte]
          exact ⟨rfl, rfl, .cut⟩
        · simp only [Except.bind, hr, ↓reduceIte]
          exact ⟨rfl, rfl, .cut⟩
  reset h := by
    cases h with
    | nested hmake hcs =>
      rw [hmake.reset, hmake.reset]
      obtain @⟨v, xs, ys, zs, hys⟩ := hcs
      simp only [List.map_append, List.map_cons, hmake.reset]
      refine .nested hmake (.group ?_)
      simpa using hys
    | single hmake =>
      rw [hmake.reset]
      exact .single hmake
    | forgiven => exact .forgiven
    | cut =>
      simp only [(sequence_composes R).reset, List.map_append, List.map_cons, List.map_nil]
      exact .cut

/-! ## 3. Anywhere in a tree -/

/-- A sequence in a sequence and a selector in a selector, unless they are empty, are as good as
their children in their place; a composite with one child is as good as the child; forgiving twice
is as good as forgiving once; behind a certain failure in a sequence nothing matters; and a subtree
of any tree can be replaced by any equivalent one. -/
theorem regrouping_equivalent (R : Repertoire τ π γ ε) :
    (∀ (xs ys zs : List (Node τ π)) (u v w : Bool), ys ≠ [] →
      (sequence u (xs ++ [sequence v ys] ++ zs)).Equivalent R (sequence w (xs ++ ys ++ zs)) ∧
      (selector u (xs ++ [selector v ys] ++ zs)).Equivalent R (selector w (xs ++ ys ++ zs))) ∧
    (∀ (n : Node τ π) (v w : Bool),
      (sequence v [n]).Equivalent R n ∧ (selector w [n]).Equivalent R n ∧
      (sequence v [n]).Equivalent R (selector w [n])) ∧
    (∀ (n : Node τ π) (u v w : Bool),
      (ignoreFailure u (ignoreFailure v n)).Equivalent R (ignoreFailure w n)) ∧
    (∀ (xs zs : List (Node τ π)) (u v w x : Bool),
      (sequence u (xs ++ [failure v] ++ zs)).Equivalent R (sequence w (xs ++ [failure x]))) ∧
    ∀ (place : Place τ π) (n m : Node τ π), n.Equivalent R m →
      (place.fill n).Equivalent R (place.fill m) ∧
      Tree.Equivalent R ⟨some (place.fill n)⟩ ⟨some (place.fill m)⟩ := by
  have hlaw : ∀ {n m : Node τ π}, Regroups R n m → n.Equivalent R m :=
    fun h ↦ (regroups_bisimulates R).equivalent h
  refine ⟨?nested, ?single, fun n u v w ↦ hlaw .forgiven, ?cut, ?replaced⟩
  case nested =>
    intro xs ys zs u v w hys
    simp only [List.append_assoc, List.singleton_append]
    exact ⟨hlaw (.nested (sequence_composes R) (.group hys)),
      hlaw (.nested (selector_composes R) (.group hys))⟩
  case single =>
    intro n v w
    have hseq : (sequence v [n]).Equivalent R n := hlaw (.single (sequence_composes R))
    have hsel : (selector w [n]).Equivalent R n := hlaw (.single (selector_composes R))
    exact ⟨hseq, hsel, hseq.trans hsel.symm⟩
  case cut =>
    intro xs zs u v w x
    rw [List.append_assoc]
    exact hlaw .cut
  case replaced =>
    intro place n m h
    exact ⟨h.fill place, (h.fill place).tree⟩

/-- A failing script behind another one, in a sequence that is forgiven and repeated: without the
inner sequence the same is seen. -/
theorem rehearsed_regrouping :
    let opening : Node Rehearsal.Role Rehearsal.Cue :=
      leaf (.probe { id := "opening", first := .success })
    let ending : Node Rehearsal.Role Rehearsal.Cue :=
      leaf (.probe { id := "ending", first := .failure })
    let place : Place Rehearsal.Role Rehearsal.Cue :=
      .repeater false (.times 1) 0 (.ignoreFailure false .here)
    let nested := seq ([opening] ++ [seq [ending, opening]] ++ [fail])
    let plain := seq ([opening] ++ [ending, opening] ++ [fail])
    [ending, opening] ≠ [] ∧ nested.Equivalent Rehearsal.repertoire plain ∧
      (place.fill nested).Equivalent Rehearsal.repertoire (place.fill plain) ∧
      observe (run Rehearsal.repertoire) (reset Rehearsal.repertoire) (place.fill nested)
          [.run { value := 0 }, .run { value := 1 }] =
        .ok [(.running, ⟨0, ["ending:tick", "ending:setup", "opening:tick", "opening:setup"]⟩),
          (.success, ⟨1, ["ending:tick", "opening:tick"]⟩)] := by
  intro opening ending place nested plain
  have hne : [ending, opening] ≠ [] := List.cons_ne_nil _ _
  obtain ⟨hflat, -, -, -, hreplaced⟩ := regrouping_equivalent Rehearsal.repertoire
  have hnested : nested.Equivalent Rehearsal.repertoire plain :=
    (hflat [opening] [ending, opening] [fail] false false false hne).1
  exact ⟨hne, hnested, (hreplaced place nested plain hnested).1, rfl⟩

end Node

end Delve

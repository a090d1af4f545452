import Delve.Proofs.Tree.Leaves
/-!
# Trees seen through a map of their tasks

If tasks seen through a map do by one repertoire what they do by another, then so do whole trees:
an evaluation of the tree that is seen is what is seen of the evaluation. So a tree can be made to
keep more than it does, or less, without a change to what comes of it.
-/

namespace Delve

variable {τ υ π γ ε : Type}

/-- An outcome with its state seen through `f`. -/
def Step.mapState {σ ρ : Type} (f : σ → ρ) (r : Step σ γ) : Step ρ γ :=
  ⟨r.status, f r.state, r.context⟩

/-- Tasks seen through `f` do by `Q` what they do by `R`, and predicates are the same. -/
structure Repertoire.Renders (Q : Repertoire υ π γ ε) (R : Repertoire τ π γ ε) (f : τ → υ) :
    Prop where
  setup : ∀ (t : τ) (g : γ), Q.setup (f t) g = (f (R.setup t g).1, (R.setup t g).2)
  tick : ∀ (t : τ) (g : γ), Q.tick (f t) g = (R.tick t g).map (Step.mapState f)
  rewind : ∀ t : τ, Q.rewind (f t) = f (R.rewind t)
  test : ∀ (p : π) (g : γ), Q.test p g = R.test p g

namespace Node

/-! ## 1. Nodes -/

mutual

def mapTask (f : τ → υ) : Node τ π → Node υ π
  | sequence v cs => sequence v (mapTasks f cs)
  | selector v cs => selector v (mapTasks f cs)
  | condition v p none => condition v p none
  | condition v p (some c) => condition v p (some (c.mapTask f))
  | failure v => failure v
  | ignoreFailure v c => ignoreFailure v (c.mapTask f)
  | repeater v limit count c => repeater v limit count (c.mapTask f)
  | task v t => task v (f t)

def mapTasks (f : τ → υ) : List (Node τ π) → List (Node υ π)
  | [] => []
  | c :: cs => c.mapTask f :: mapTasks f cs

end

theorem mapTasks_eq_map (f : τ → υ) (cs : List (Node τ π)) : mapTasks f cs = cs.map (mapTask f) := by
  induction cs with
  | nil => rfl
  | cons c cs ih => rw [mapTasks, ih, List.map_cons]

mutual

theorem mapTask_mapTask {g : υ → τ} {f : τ → υ} (h : ∀ t, g (f t) = t) :
    ∀ n : Node τ π, (n.mapTask f).mapTask g = n
  | sequence _ cs => by rw [mapTask, mapTask, mapTasks_mapTasks h cs]
  | selector _ cs => by rw [mapTask, mapTask, mapTasks_mapTasks h cs]
  | condition _ _ none => rfl
  | condition _ _ (some c) => by rw [mapTask, mapTask, mapTask_mapTask h c]
  | failure _ => rfl
  | ignoreFailure _ c => by rw [mapTask, mapTask, mapTask_mapTask h c]
  | repeater _ _ _ c => by rw [mapTask, mapTask, mapTask_mapTask h c]
  | task _ t => by rw [mapTask, mapTask, h]

theorem mapTasks_mapTasks {g : υ → τ} {f : τ → υ} (h : ∀ t, g (f t) = t) :
    ∀ cs : List (Node τ π), mapTasks g (mapTasks f cs) = cs
  | [] => rfl
  | c :: cs => by rw [mapTasks, mapTasks, mapTask_mapTask h c, mapTasks_mapTasks h cs]

end

/-- A subtree looks the same if each of its tasks does. -/
theorem Built.mapTask_eq {S : τ → Prop} {K : π → Prop} {f : τ → τ} {n : Node τ π}
    (h : n.Built S K) (hS : ∀ t, S t → f t = t) : n.mapTask f = n := by
  induction h with
  | seq _ ih =>
    rw [Node.seq, mapTask, mapTasks_eq_map, List.map_congr_left ih, List.map_id']
  | sel _ ih =>
    rw [Node.sel, mapTask, mapTasks_eq_map, List.map_congr_left ih, List.map_id']
  | @condition _ child _ _ ih =>
    cases child with
    | none => rfl
    | some c => rw [mapTask, ih c rfl]
  | fail => rfl
  | lenient _ ih => rw [Node.lenient, mapTask, ih]
  | repeated _ ih => rw [Node.repeated, mapTask, ih]
  | leaf h => rw [Node.leaf, mapTask, hS _ h]

variable {Q : Repertoire υ π γ ε} {R : Repertoire τ π γ ε} {f : τ → υ}

mutual

/-- By induction on the node: the same child is next on both sides, for the statuses are the
same. -/
theorem run_mapTask (h : Q.Renders R f) : ∀ (n : Node τ π) (g : γ),
    (n.mapTask f).run Q g = (n.run R g).map (Step.mapState (mapTask f))
  | sequence _ [], g => rfl
  | sequence _ (c :: cs), g => by
    rw [mapTask, mapTasks, run, run, ← mapTasks, runSequence_mapTasks h (c :: cs)]
    cases runSequence R (c :: cs) g <;> rfl
  | selector _ cs, g => by
    rw [mapTask, run, run, runSelector_mapTasks h cs]
    cases runSelector R cs g <;> rfl
  | condition _ none child, g => by
    cases child <;> rfl
  | condition _ (some p) none, g => by
    rw [mapTask, run, run, h.test]
    cases R.test p g <;> rfl
  | condition _ (some p) (some child), g => by
    rw [mapTask, run, run, h.test]
    cases R.test p g with
    | error e => rfl
    | ok q =>
      by_cases hon : q.status = .success
      · simp only [bind, Except.bind, hon, ↓reduceIte, run_mapTask h child]
        cases child.run R q.context <;> rfl
      · simp only [bind, Except.bind, hon, ↓reduceIte]
        rfl
  | failure _, g => rfl
  | ignoreFailure _ child, g => by
    rw [mapTask, run, run, run_mapTask h child]
    cases child.run R g <;> rfl
  | repeater _ limit count child, g => by
    rw [mapTask, run, run, run_mapTask h child]
    cases child.run R g <;> rfl
  | task true t, g => by
    show (Q.tick (f t) g).bind _ = Except.map _ ((R.tick t g).bind _)
    rw [h.tick]
    cases R.tick t g <;> rfl
  | task false t, g => by
    show (Q.tick (Q.setup (f t) g).1 (Q.setup (f t) g).2).bind _ =
      Except.map _ ((R.tick (R.setup t g).1 (R.setup t g).2).bind _)
    rw [h.setup, h.tick]
    cases R.tick (R.setup t g).1 (R.setup t g).2 <;> rfl

theorem runSequence_mapTasks (h : Q.Renders R f) : ∀ (cs : List (Node τ π)) (g : γ),
    runSequence Q (mapTasks f cs) g = (runSequence R cs g).map (Step.mapState (mapTasks f))
  | [], g => rfl
  | c :: cs, g => by
    rw [mapTasks, runSequence, runSequence, run_mapTask h c]
    cases c.run R g with
    | error e => rfl
    | ok q =>
      by_cases hon : q.status = .success
      · simp only [bind, Except.bind, Except.map, Step.mapState, hon, ↓reduceIte,
          runSequence_mapTasks h cs]
        cases runSequence R cs q.context <;> rfl
      · simp only [bind, Except.bind, Except.map, Step.mapState, hon, ↓reduceIte, mapTasks]

theorem runSelector_mapTasks (h : Q.Renders R f) : ∀ (cs : List (Node τ π)) (g : γ),
    runSelector Q (mapTasks f cs) g = (runSelector R cs g).map (Step.mapState (mapTasks f))
  | [], g => rfl
  | c :: cs, g => by
    rw [mapTasks, runSelector, runSelector, run_mapTask h c]
    cases c.run R g with
    | error e => rfl
    | ok q =>
      by_cases hon : q.status = .failure
      · simp only [bind, Except.bind, Except.map, Step.mapState, hon, ↓reduceIte,
          runSelector_mapTasks h cs]
        cases runSelector R cs q.context <;> rfl
      · simp only [bind, Except.bind, Except.map, Step.mapState, hon, ↓reduceIte, mapTasks]

end

mutual

theorem reset_mapTask (h : Q.Renders R f) :
    ∀ n : Node τ π, (n.mapTask f).reset Q = (n.reset R).mapTask f
  | sequence _ cs => by rw [mapTask, reset, reset, mapTask, resetAll_mapTasks h cs]
  | selector _ cs => by rw [mapTask, reset, reset, mapTask, resetAll_mapTasks h cs]
  | condition _ _ none => rfl
  | condition _ _ (some c) => by rw [mapTask, reset, reset, mapTask, reset_mapTask h c]
  | failure _ => rfl
  | ignoreFailure _ c => by rw [mapTask, reset, reset, mapTask, reset_mapTask h c]
  | repeater _ _ _ c => by rw [mapTask, reset, reset, mapTask, reset_mapTask h c]
  | task _ t => by rw [mapTask, reset, reset, mapTask, h.rewind]

theorem resetAll_mapTasks (h : Q.Renders R f) :
    ∀ cs : List (Node τ π), resetAll Q (mapTasks f cs) = mapTasks f (resetAll R cs)
  | [] => rfl
  | c :: cs => by
    rw [mapTasks, resetAll, resetAll, mapTasks, reset_mapTask h c, resetAll_mapTasks h cs]

end

end Node

namespace Tree

/-! ## 2. Whole trees -/

def mapTask (f : τ → υ) (t : Tree τ π) : Tree υ π := ⟨t.body.map (·.mapTask f)⟩

theorem mapTask_mapTask {g : υ → τ} {f : τ → υ} (h : ∀ t, g (f t) = t) (t : Tree τ π) :
    (t.mapTask f).mapTask g = t := by
  obtain ⟨body⟩ := t
  cases body with
  | none => rfl
  | some n => simp only [mapTask, Option.map_some, n.mapTask_mapTask h]

theorem Built.mapTask_eq {S : τ → Prop} {K : π → Prop} {f : τ → τ} {t : Tree τ π}
    (h : t.Built S K) (hS : ∀ a, S a → f a = a) : t.mapTask f = t := by
  obtain ⟨body⟩ := t
  cases body with
  | none => rfl
  | some n => rw [mapTask, Option.map_some, (h n rfl).mapTask_eq hS]

variable {Q : Repertoire υ π γ ε} {R : Repertoire τ π γ ε} {f : τ → υ}

/-- What is seen of an evaluation is the evaluation of what is seen. -/
theorem run_mapTask (h : Q.Renders R f) (t : Tree τ π) (g : γ) :
    (t.mapTask f).run Q g = (t.run R g).map (Step.mapState (mapTask f)) := by
  obtain ⟨body⟩ := t
  cases body with
  | none => rfl
  | some n =>
    show Except.bind ((n.mapTask f).run Q g) _ = Except.map _ (Except.bind (n.run R g) _)
    rw [n.run_mapTask h]
    cases n.run R g <;> rfl

theorem reset_mapTask (h : Q.Renders R f) (t : Tree τ π) :
    (t.mapTask f).reset Q = (t.reset R).mapTask f := by
  obtain ⟨body⟩ := t
  cases body with
  | none => rfl
  | some n => simp only [mapTask, reset, Option.map_some, n.reset_mapTask h]

end Tree

end Delve

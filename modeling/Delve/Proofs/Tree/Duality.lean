import Delve.Proofs.Tree.Activation
import Delve.Proofs.Tree.Equivalence
/-!
# Duality of sequences and selectors

A selector does with failure what a sequence does with success. So if all sequences of a tree
become selectors, all selectors become sequences, and every task answers with failure where it
answered with success and the other way round, then the same tasks are ticked in the same
surroundings, and the tree answers the other way round as well.
-/

namespace Delve

variable {τ υ π γ ε : Type}

/-! ## 1. The other way round -/

namespace Status

/-- Success and failure exchanged. -/
def flip : Status → Status
  | success => failure
  | failure => success
  | running => running
  | undefined => undefined

theorem flip_flip (s : Status) : s.flip.flip = s := by cases s <;> rfl

theorem flip_inj {s s' : Status} : s.flip = s'.flip ↔ s = s' :=
  ⟨fun h ↦ by rw [← flip_flip s, h, flip_flip], congrArg flip⟩

end Status

/-- An outcome the other way round, with what is kept seen through `f`. -/
def Step.opposed {σ ρ : Type} (f : σ → ρ) (r : Step σ γ) : Step ρ γ :=
  ⟨r.status.flip, f r.state, r.context⟩

/-- Tasks seen through `f` do by `Q` what they do by `R`, and answer the other way round. -/
structure Repertoire.Opposes (Q : Repertoire υ π γ ε) (R : Repertoire τ π γ ε) (f : τ → υ) :
    Prop where
  setup : ∀ (t : τ) (g : γ), Q.setup (f t) g = (f (R.setup t g).1, (R.setup t g).2)
  tick : ∀ (t : τ) (g : γ), Q.tick (f t) g = (R.tick t g).map (Step.opposed f)
  rewind : ∀ t : τ, Q.rewind (f t) = f (R.rewind t)

/-- The same tasks with opposite answers. -/
def Repertoire.opposite (R : Repertoire τ π γ ε) : Repertoire τ π γ ε :=
  { R with tick := fun t g ↦ (R.tick t g).map (Step.opposed id) }

theorem Repertoire.opposite_opposes (R : Repertoire τ π γ ε) : R.opposite.Opposes R id where
  setup _ _ := rfl
  tick _ _ := rfl
  rewind _ := rfl

namespace Node

mutual

/-- Sequences and selectors exchanged, and each task seen through `f`. -/
def dual (f : τ → υ) : Node τ π → Node υ π
  | sequence v cs => selector v (duals f cs)
  | selector v cs => sequence v (duals f cs)
  | condition v p none => condition v p none
  | condition v p (some c) => condition v p (some (c.dual f))
  | failure v => failure v
  | ignoreFailure v c => ignoreFailure v (c.dual f)
  | repeater v limit count c => repeater v limit count (c.dual f)
  | task v t => task v (f t)

def duals (f : τ → υ) : List (Node τ π) → List (Node υ π)
  | [] => []
  | c :: cs => c.dual f :: duals f cs

end

theorem duals_eq_map (f : τ → υ) (cs : List (Node τ π)) : duals f cs = cs.map (dual f) := by
  induction cs with
  | nil => rfl
  | cons c cs ih => rw [duals, ih, List.map_cons]

theorem dual_sequence (f : τ → υ) (v : Bool) (cs : List (Node τ π)) :
    (sequence v cs).dual f = selector v (cs.map (dual f)) := by
  rw [dual, duals_eq_map]

theorem dual_selector (f : τ → υ) (v : Bool) (cs : List (Node τ π)) :
    (selector v cs).dual f = sequence v (cs.map (dual f)) := by
  rw [dual, duals_eq_map]

/-- A node over tasks with nothing but sequences and selectors that have children. -/
inductive Composed : Node τ π → Prop
  | sequence {v : Bool} {cs : List (Node τ π)} : cs ≠ [] → (∀ c ∈ cs, Composed c) →
    Composed (sequence v cs)
  | selector {v : Bool} {cs : List (Node τ π)} : cs ≠ [] → (∀ c ∈ cs, Composed c) →
    Composed (selector v cs)
  | task {v : Bool} {t : τ} : Composed (task v t)

/-! ## 2. One evaluation -/

variable {Q : Repertoire υ π γ ε} {R : Repertoire τ π γ ε} {f : τ → υ} {n n' : Node τ π}

/-- By induction on the children: the same one is next on both sides, for one side goes on where
the other one does. -/
theorem runWhile_dual (on : Status) {cs : List (Node τ π)}
    (hcs : ∀ c ∈ cs, ∀ g, (c.dual f).run Q g = (c.run R g).map (Step.opposed (dual f))) (g : γ) :
    runWhile Q on.flip (cs.map (dual f)) g =
      (runWhile R on cs g).map (Step.opposed (List.map (dual f))) := by
  induction cs generalizing g with
  | nil => rfl
  | cons c cs ih =>
    obtain ⟨hc, hcs⟩ := List.forall_mem_cons.mp hcs
    rw [List.map_cons, runWhile, runWhile, hc]
    cases c.run R g with
    | error e => rfl
    | ok r =>
      simp only [bind, Except.bind, Except.map, Step.opposed, Status.flip_inj]
      by_cases hon : r.status = on
      · simp only [hon, ↓reduceIte, ih hcs]
        cases runWhile R on cs r.context <;> rfl
      · simp only [hon, ↓reduceIte, List.map_cons]

/-- A node that goes on while its children come to `on`, and its dual that goes on while theirs
come to the opposite. -/
theorem run_dual_of_composes {on : Status} {make : Bool → List (Node τ π) → Node τ π}
    {make' : Bool → List (Node υ π) → Node υ π} (hmake : Composes R on make)
    (hmake' : Composes Q on.flip make')
    (hdual : ∀ v cs, (make v cs).dual f = make' v (cs.map (dual f))) {cs : List (Node τ π)}
    (hne : cs ≠ [])
    (hcs : ∀ c ∈ cs, ∀ g, (c.dual f).run Q g = (c.run R g).map (Step.opposed (dual f)))
    (v : Bool) (g : γ) :
    ((make v cs).dual f).run Q g = ((make v cs).run R g).map (Step.opposed (dual f)) := by
  have hne' : cs.map (dual f) ≠ [] := by simpa using hne
  rw [hdual, hmake'.run_of_ne_nil hne', hmake.run_of_ne_nil hne, runWhile_dual on hcs g]
  cases runWhile R on cs g with
  | error e => rfl
  | ok r => simp only [Except.map, Step.mapState, Step.opposed, hdual]

/-- By induction on the node. -/
theorem run_dual (h : Q.Opposes R f) (hn : n.Composed) (g : γ) :
    (n.dual f).run Q g = (n.run R g).map (Step.opposed (dual f)) := by
  induction hn generalizing g with
  | @sequence v cs hne _ ih =>
    exact run_dual_of_composes (sequence_composes R) (selector_composes Q) (dual_sequence f) hne ih
      v g
  | @selector v cs hne _ ih =>
    exact run_dual_of_composes (selector_composes R) (sequence_composes Q) (dual_selector f) hne ih
      v g
  | @task v t =>
    cases v with
    | true =>
      show (Q.tick (f t) g).bind _ = Except.map _ ((R.tick t g).bind _)
      rw [h.tick]
      cases R.tick t g <;> rfl
    | false =>
      show (Q.tick (Q.setup (f t) g).1 (Q.setup (f t) g).2).bind _ =
        Except.map _ ((R.tick (R.setup t g).1 (R.setup t g).2).bind _)
      rw [h.setup, h.tick]
      cases R.tick (R.setup t g).1 (R.setup t g).2 <;> rfl

theorem reset_dual (h : Q.Opposes R f) (hn : n.Composed) :
    (n.dual f).reset Q = (n.reset R).dual f := by
  induction hn with
  | sequence _ _ ih =>
    rw [dual_sequence, reset, reset, dual_sequence, resetAll_eq_map, resetAll_eq_map, List.map_map,
      List.map_map]
    exact congrArg _ (List.map_congr_left ih)
  | selector _ _ ih =>
    rw [dual_selector, reset, reset, dual_selector, resetAll_eq_map, resetAll_eq_map, List.map_map,
      List.map_map]
    exact congrArg _ (List.map_congr_left ih)
  | task => rw [dual, reset, reset, dual, h.rewind]

theorem Evolves.composed (hn : n.Evolves R n') (h : n.Composed) : n'.Composed := by
  induction hn with
  | skipped => exact h
  | sequence hlen _ ih =>
    cases h with | sequence hne hcs =>
    refine .sequence (fun hnil ↦ hne ?_) (forall_mem_of_getElem hlen ih hcs)
    exact List.eq_nil_of_length_eq_zero (hlen.trans (congrArg _ hnil))
  | selector hlen _ ih =>
    cases h with | selector hne hcs =>
    refine .selector (fun hnil ↦ hne ?_) (forall_mem_of_getElem hlen ih hcs)
    exact List.eq_nil_of_length_eq_zero (hlen.trans (congrArg _ hnil))
  | task => exact .task
  | unset | asked | granted | failure | ignoreFailure | repeater => cases h

theorem Composed.reset (h : n.Composed) : (n.reset R).Composed := by
  induction h with
  | sequence hne _ ih =>
    rw [Node.reset, resetAll_eq_map]
    exact .sequence (by simpa using hne) (List.forall_mem_map.mpr ih)
  | selector hne _ ih =>
    rw [Node.reset, resetAll_eq_map]
    exact .selector (by simpa using hne) (List.forall_mem_map.mpr ih)
  | task => exact .task

theorem leavesOf_map_dual {cs : List (Node τ π)}
    (ih : ∀ c ∈ cs, (c.dual f).leaves = c.leaves.map fun l ↦ (l.1, f l.2)) :
    leavesOf (cs.map (dual f)) = (leavesOf cs).map fun l ↦ (l.1, f l.2) := by
  rw [leavesOf_eq_flatMap, leavesOf_eq_flatMap, List.flatMap_map, List.map_flatMap]
  exact List.flatMap_congr ih

/-- The same leaves in the same order. -/
theorem Composed.leaves_dual (h : n.Composed) :
    (n.dual f).leaves = n.leaves.map fun l ↦ (l.1, f l.2) := by
  induction h with
  | sequence _ _ ih => rw [dual_sequence, leaves, leaves, leavesOf_map_dual ih]
  | selector _ _ ih => rw [dual_selector, leaves, leaves, leavesOf_map_dual ih]
  | task => rfl

end Node

namespace Tree

/-! ## 3. Histories -/

def dual (f : τ → υ) (t : Tree τ π) : Tree υ π := ⟨t.body.map (·.dual f)⟩

/-- A tree with a body that is composed. The empty tree fails, and has no dual that does not. -/
def Composed (t : Tree τ π) : Prop := ∃ n, t = ⟨some n⟩ ∧ n.Composed

variable {Q : Repertoire υ π γ ε} {R : Repertoire τ π γ ε} {f : τ → υ} {t t' : Tree τ π}

theorem Composed.run (ht : t.Composed) {g : γ} {r : Step (Tree τ π) γ} (hr : t.run R g = .ok r) :
    r.state.Composed := by
  obtain ⟨n, rfl, hn⟩ := ht
  rcases run_evolves hr with ⟨hnone, -⟩ | ⟨_, n', ⟨⟩, hstate, hevolves⟩
  · cases hnone
  · exact ⟨n', hstate, hevolves.composed hn⟩

theorem Composed.reset (ht : t.Composed) : (t.reset R).Composed := by
  obtain ⟨n, rfl, hn⟩ := ht
  exact ⟨n.reset R, rfl, hn.reset⟩

theorem run_dual (h : Q.Opposes R f) (ht : t.Composed) (g : γ) :
    (t.dual f).run Q g = (t.run R g).map (Step.opposed (dual f)) := by
  obtain ⟨n, rfl, hn⟩ := ht
  show (⟨some (n.dual f)⟩ : Tree υ π).run Q g = _
  rw [run_some, run_some, Node.run_dual h hn]
  cases n.run R g <;> rfl

theorem reset_dual (h : Q.Opposes R f) (ht : t.Composed) :
    (t.dual f).reset Q = (t.reset R).dual f := by
  obtain ⟨n, rfl, hn⟩ := ht
  exact congrArg (fun m ↦ Tree.mk (some m)) (Node.reset_dual h hn)

theorem observe_dual (h : Q.Opposes R f) (ht : t.Composed) (es : List (Event γ)) :
    observe (run Q) (reset Q) (t.dual f) es =
      (observe (run R) (reset R) t es).map (List.map fun seen ↦ (seen.1.flip, seen.2)) := by
  induction es generalizing t with
  | nil => rfl
  | cons e es ih =>
    cases e with
    | run g =>
      have hdual := run_dual h ht g
      cases hr : t.run R g with
      | error e =>
        rw [hr] at hdual
        rw [observe_of_error hr, observe_of_error hdual]
        rfl
      | ok r =>
        rw [hr] at hdual
        rw [observe_of_ok hr, observe_of_ok hdual]
        show Except.map _ (observe (run Q) (reset Q) (r.state.dual f) es) = _
        rw [ih (ht.run hr)]
        cases observe (run R) (reset R) r.state es <;> rfl
    | reset =>
      rw [observe, observe, reset_dual h ht]
      exact ih ht.reset

theorem undergo_dual (h : Q.Opposes R f) (ht : t.Composed) (es : List (Event γ)) :
    (t.dual f).undergo Q es = (t.undergo R es).map (dual f) := by
  induction es generalizing t with
  | nil => rfl
  | cons e es ih =>
    cases e with
    | run g =>
      rw [undergo, undergo, run_dual h ht]
      cases hr : t.run R g with
      | error e => rfl
      | ok r => exact ih (ht.run hr)
    | reset =>
      rw [undergo, undergo, reset_dual h ht]
      exact ih ht.reset

theorem Composed.leaves_dual (ht : t.Composed) :
    (t.dual f).leaves = t.leaves.map fun l ↦ (l.1, f l.2) := by
  obtain ⟨n, rfl, hn⟩ := ht
  exact hn.leaves_dual

/-- In every history a tree and its dual leave the same surroundings and opposite statuses, and
where they come to an end of it they are dual again, so their leaves have come to the same. -/
theorem dual_opposes (h : Q.Opposes R f) (ht : t.Composed) (es : List (Event γ)) :
    observe (run Q) (reset Q) (t.dual f) es =
        (observe (run R) (reset R) t es).map (List.map fun seen ↦ (seen.1.flip, seen.2)) ∧
      (t.dual f).undergo Q es = (t.undergo R es).map (dual f) ∧
      ∀ t', t.undergo R es = .ok t' →
        (t'.dual f).leaves = t'.leaves.map fun l ↦ (l.1, f l.2) :=
  ⟨observe_dual h ht es, undergo_dual h ht es, fun _ hes ↦
    (undergo_keeps (fun _ _ _ ht hr ↦ ht.run hr) (fun _ ht ↦ ht.reset) ht hes).leaves_dual⟩

/-- What stands behind the first script is only ticked where that answers for the first time. -/
theorem rehearsed_dual :
    let play : Tree Rehearsal.Role Rehearsal.Cue :=
      ⟨some (.seq [.leaf (.probe { id := "opening", first := .success, later := [.failure] }),
        .sel [.leaf (.probe { id := "ending", first := .running, gain := 1 }), .leaf .plain]])⟩
    let stage : Rehearsal.Stage := { value := 0 }
    let scenes : List (Event Rehearsal.Stage) := [.run stage, .run stage, .reset, .run stage]
    play.Composed ∧
      (observe (run Rehearsal.repertoire.opposite) (reset Rehearsal.repertoire.opposite)
        (play.dual id) scenes).map (List.map fun seen ↦ (seen.1, seen.2.value)) =
          .ok [(.running, 1), (.success, 0), (.running, 1)] := by
  intro play stage scenes
  have hplay : play.Composed := by
    refine ⟨_, rfl, .sequence nofun fun c hc ↦ ?_⟩
    rcases List.mem_pair.mp hc with rfl | rfl
    · exact .task
    · refine .selector nofun fun c hc ↦ ?_
      rcases List.mem_pair.mp hc with rfl | rfl <;> exact .task
  refine ⟨hplay, ?_⟩
  rw [(dual_opposes Rehearsal.repertoire.opposite_opposes hplay scenes).1]
  rfl

end Tree

end Delve

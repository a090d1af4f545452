import Mathlib.Logic.Relation
import Delve.Proofs.Tree.Leaves
/-!
# Where a tree comes from

Evaluations and resets change what nodes and tasks keep from turn to turn, and nothing else. So if
nothing that happens to the tasks of a tree outlasts a stricter rewinding, then whatever the tree
becomes, the stricter reset sends it back to what it sends the tree itself back to.
-/

namespace Delve

variable {τ π γ ε : Type}

namespace Repertoire

/-! ## 1. What becomes of a leaf -/

/-- What one step of `R` can make of a task. -/
inductive Alters (R : Repertoire τ π γ ε) : τ → τ → Prop
  | setup (t : τ) (g : γ) : R.Alters t (R.setup t g).1
  | tick {t : τ} {g : γ} {r : Step τ γ} : R.tick t g = .ok r → R.Alters t r.state
  | rewind (t : τ) : R.Alters t (R.rewind t)

/-- Whatever becomes of the task by steps of `R`, the rewinding of `Q` takes it back to where it
takes the task itself. -/
def UndoneAt (R Q : Repertoire τ π γ ε) (t : τ) : Prop :=
  ∀ t', Relation.ReflTransGen R.Alters t t' → Q.rewind t' = Q.rewind t

/-- Asking leaves the predicate as it was. -/
def Stateless (R : Repertoire τ π γ ε) (p : π) : Prop :=
  ∀ (g : γ) (r : Step π γ), R.test p g = .ok r → r.state = p

/-- Nothing that `R` does to a leaf outlasts the rewinding of `Q`. -/
structure UndoneBy (R Q : Repertoire τ π γ ε) : Prop where
  setup : ∀ (t : τ) (g : γ), Q.rewind (R.setup t g).1 = Q.rewind t
  tick : ∀ (t : τ) (g : γ) (r : Step τ γ), R.tick t g = .ok r → Q.rewind r.state = Q.rewind t
  rewind : ∀ t : τ, Q.rewind (R.rewind t) = Q.rewind t
  test : ∀ (p : π) (g : γ) (r : Step π γ), R.test p g = .ok r → r.state = p

variable {R Q : Repertoire τ π γ ε} {t t' : τ}

theorem UndoneBy.undoneAt (h : R.UndoneBy Q) (t : τ) : R.UndoneAt Q t := by
  intro t' ht'
  induction ht' with
  | refl => rfl
  | tail _ hstep ih =>
    cases hstep with
    | setup => rw [h.setup, ih]
    | tick hr => rw [h.tick _ _ _ hr, ih]
    | rewind => rw [h.rewind, ih]

theorem UndoneAt.rewind_eq (h : R.UndoneAt Q t) (hstep : R.Alters t t') :
    Q.rewind t' = Q.rewind t :=
  h t' (.single hstep)

theorem UndoneAt.of_alters (h : R.UndoneAt Q t) (hstep : R.Alters t t') : R.UndoneAt Q t' := by
  intro t'' ht''
  rw [h t'' (.head hstep ht''), h.rewind_eq hstep]

theorem Visits.rewind_eq {l l' : Bool × τ} (h : R.Visits l l') (hl : R.UndoneAt Q l.2) :
    Q.rewind l'.2 = Q.rewind l.2 := by
  cases h with
  | skipped => rfl
  | @first t g r hr =>
    have hready := hl.of_alters (.setup t g)
    rw [hready.rewind_eq (.tick hr), hl.rewind_eq (.setup t g)]
  | again hr => exact hl.rewind_eq (.tick hr)

theorem UndoneAt.preserved : R.Preserves (R.UndoneAt Q) R.Stateless where
  setup t g h := h.of_alters (.setup t g)
  tick _ _ _ h hr := h.of_alters (.tick hr)
  rewind t h := h.of_alters (.rewind t)
  test p g r h hr := by
    rw [h g r hr]
    exact h

end Repertoire

namespace Node

/-! ## 2. Nodes -/

variable {R Q : Repertoire τ π γ ε}

theorem resetAll_congr {cs ds : List (Node τ π)} (hlen : cs.length = ds.length)
    (h : ∀ (i : Nat) (hc : i < cs.length) (hd : i < ds.length), ds[i].reset Q = cs[i].reset Q) :
    resetAll Q ds = resetAll Q cs := by
  rw [resetAll_eq_map, resetAll_eq_map]
  refine List.ext_getElem (by rw [List.length_map, List.length_map, hlen]) fun i hd hc ↦ ?_
  rw [List.getElem_map, List.getElem_map]
  rw [List.length_map] at hd hc
  exact h i hc hd

/-- By induction on what has become of the node: marks and counts are reset in any case, and every
leaf that has been visited is taken back. -/
theorem Evolves.reset_eq {n n' : Node τ π} (hn : n.Evolves R n')
    (hover : n.Over (R.UndoneAt Q) R.Stateless) : n'.reset Q = n.reset Q := by
  induction hn with
  | skipped => rfl
  | sequence hlen _ ih =>
    cases hover with | sequence hcs =>
    rw [reset, reset, resetAll_congr hlen fun i hc hd ↦
      ih i hc hd (hcs _ (List.getElem_mem _))]
  | selector hlen _ ih =>
    cases hover with | selector hcs =>
    rw [reset, reset, resetAll_congr hlen fun i hc hd ↦
      ih i hc hd (hcs _ (List.getElem_mem _))]
  | @unset _ child => cases child <;> rw [reset, reset]
  | @asked _ p child g r hr =>
    cases hover with | condition hp _ =>
    rw [hp p rfl g r hr]
    cases child <;> rw [reset, reset]
  | @granted _ p c _ g r hr _ ih =>
    cases hover with | condition hp hc =>
    rw [reset, reset, hp p rfl g r hr, ih (hc c rfl)]
  | failure => rfl
  | ignoreFailure _ ih =>
    cases hover with | ignoreFailure hc =>
    rw [reset, reset, ih hc]
  | repeater _ ih =>
    cases hover with | repeater hc =>
    rw [reset, reset, ih hc]
  | task hvisit =>
    cases hover with | task ht =>
    rw [reset, reset, hvisit.rewind_eq ht]

theorem reset_reset_of_over {n : Node τ π} (hn : n.Over (R.UndoneAt Q) R.Stateless) :
    (n.reset R).reset Q = n.reset Q := by
  induction hn with
  | sequence _ ih =>
    simp only [reset, resetAll_eq_map, List.map_map]
    exact congrArg _ (List.map_congr_left ih)
  | selector _ ih =>
    simp only [reset, resetAll_eq_map, List.map_map]
    exact congrArg _ (List.map_congr_left ih)
  | @condition _ _ child _ _ ih =>
    cases child with
    | none => rfl
    | some c => rw [reset, reset, reset, ih c rfl]
  | failure => rfl
  | ignoreFailure _ ih => rw [reset, reset, reset, ih]
  | repeater _ ih => rw [reset, reset, reset, ih]
  | task ht => rw [reset, reset, reset, ht.rewind_eq (.rewind _)]

end Node

namespace Tree

/-! ## 3. Trees -/

variable {R Q : Repertoire τ π γ ε} {t : Tree τ π}

theorem reset_run_of_over {g : γ} {r : Step (Tree τ π) γ}
    (ht : t.Over (R.UndoneAt Q) R.Stateless) (hr : t.run R g = .ok r) :
    r.state.reset Q = t.reset Q := by
  rcases run_evolves hr with ⟨-, hsame⟩ | ⟨n, n', rfl, hstate, hn⟩
  · rw [hsame]
  · rw [hstate, reset, reset, Option.map_some, Option.map_some, hn.reset_eq (ht n rfl)]

theorem reset_reset_of_over (ht : t.Over (R.UndoneAt Q) R.Stateless) :
    (t.reset R).reset Q = t.reset Q := by
  obtain ⟨body⟩ := t
  cases body with
  | none => rfl
  | some n => simp only [reset, Option.map_some, Node.reset_reset_of_over (ht n rfl)]

theorem over_of_undoneBy (h : R.UndoneBy Q) (t : Tree τ π) :
    t.Over (R.UndoneAt Q) R.Stateless :=
  over_of_forall h.undoneAt h.test t

theorem reset_run (h : R.UndoneBy Q) {g : γ} {r : Step (Tree τ π) γ}
    (hr : t.run R g = .ok r) : r.state.reset Q = t.reset Q :=
  reset_run_of_over (t.over_of_undoneBy h) hr

theorem reset_reset (h : R.UndoneBy Q) (t : Tree τ π) : (t.reset R).reset Q = t.reset Q :=
  reset_reset_of_over (t.over_of_undoneBy h)

end Tree

end Delve

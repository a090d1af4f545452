import Delve.Proofs.Tree.History
/-!
# Equivalent nodes

Two nodes are equivalent if no history tells them apart: whenever both are run in the same
surroundings and reset at the same times, they answer with the same statuses and leave the same
surroundings. What they keep for themselves may differ. To show it a relation is enough that runs
and resets keep, and a subtree can be replaced by an equivalent one wherever it stands.
-/

namespace Delve

variable {τ π γ ε : Type}

/-- Two outcomes that differ in what is kept at most, and there as `ρ` allows. -/
structure Step.Corresponds {σ σ' : Type} (ρ : σ → σ' → Prop) (r : Step σ γ) (q : Step σ' γ) :
    Prop where
  status_eq : r.status = q.status
  context_eq : r.context = q.context
  state : ρ r.state q.state

/-! ## 1. What can be observed -/

/-- What can be observed in a history of something that is run and reset: of every run the status,
and what has become of the surroundings. A fault ends the history. -/
def observe {σ : Type} (run : σ → γ → Except ε (Step σ γ)) (reset : σ → σ) :
    σ → List (Tree.Event γ) → Except ε (List (Status × γ))
  | _, [] => .ok []
  | x, .run g :: es => do
    let r ← run x g
    let later ← observe run reset r.state es
    .ok ((r.status, r.context) :: later)
  | x, .reset :: es => observe run reset (reset x) es

/-- No history tells the two nodes apart. -/
def Node.Equivalent (R : Repertoire τ π γ ε) (n m : Node τ π) : Prop :=
  ∀ es : List (Tree.Event γ), observe (run R) (reset R) n es = observe (run R) (reset R) m es

/-- No history tells the two trees apart. -/
def Tree.Equivalent (R : Repertoire τ π γ ε) (t u : Tree τ π) : Prop :=
  ∀ es : List (Event γ), observe (run R) (reset R) t es = observe (run R) (reset R) u es

section Observation

variable {σ : Type} {run : σ → γ → Except ε (Step σ γ)} {reset : σ → σ} {x : σ} {g : γ}

theorem observe_of_ok {r : Step σ γ} (h : run x g = .ok r) (es : List (Tree.Event γ)) :
    observe run reset x (.run g :: es) =
      (observe run reset r.state es).map fun later ↦ (r.status, r.context) :: later := by
  rw [observe, h]
  show (observe run reset r.state es).bind _ = _
  cases observe run reset r.state es <;> rfl

theorem observe_of_error {e : ε} (h : run x g = .error e) (es : List (Tree.Event γ)) :
    observe run reset x (.run g :: es) = .error e := by
  rw [observe, h]
  rfl

end Observation

namespace Node

section Observation

variable {R : Repertoire τ π γ ε} {n m l : Node τ π}

theorem Equivalent.refl (n : Node τ π) : n.Equivalent R n := fun _ ↦ rfl

theorem Equivalent.symm (h : n.Equivalent R m) : m.Equivalent R n := fun es ↦ (h es).symm

theorem Equivalent.trans (h : n.Equivalent R m) (h' : m.Equivalent R l) : n.Equivalent R l :=
  fun es ↦ (h es).trans (h' es)

theorem Equivalent.reset (h : n.Equivalent R m) : (n.reset R).Equivalent R (m.reset R) :=
  fun es ↦ h (.reset :: es)

/-- What is left of equivalent nodes after a run is equivalent again: its future is the later part
of theirs. -/
theorem Equivalent.run (h : n.Equivalent R m) (g : γ) :
    (n.run R g).Agree (Step.Corresponds (Equivalent R)) (m.run R g) := by
  have hnow := h [.run g]
  cases hn : n.run R g with
  | error e =>
    rw [observe_of_error hn] at hnow
    cases hm : m.run R g with
    | error e' =>
      rw [observe_of_error hm] at hnow
      exact Except.error.inj hnow
    | ok q =>
      rw [observe_of_ok hm] at hnow
      cases hnow
  | ok r =>
    rw [observe_of_ok hn] at hnow
    cases hm : m.run R g with
    | error e' =>
      rw [observe_of_error hm] at hnow
      cases hnow
    | ok q =>
      rw [observe_of_ok hm] at hnow
      have hfirst : (r.status, r.context) = (q.status, q.context) :=
        (List.cons.inj (Except.ok.inj hnow)).1
      obtain ⟨hstatus, hcontext⟩ := Prod.mk.inj hfirst
      refine ⟨hstatus, hcontext, fun es ↦ ?_⟩
      have hlater := h (.run g :: es)
      rw [observe_of_ok hn, observe_of_ok hm, hfirst] at hlater
      exact Except.map_inj (fun _ _ hcons ↦ (List.cons.inj hcons).2) hlater

end Observation

/-! ## 2. Relations that show equivalence -/

/-- Nodes that `ρ` relates answer alike, and `ρ` relates what becomes of them. -/
structure Bisimulates (R : Repertoire τ π γ ε) (ρ : Node τ π → Node τ π → Prop) : Prop where
  run : ∀ {n m : Node τ π} (g : γ), ρ n m → (n.run R g).Agree (Step.Corresponds ρ) (m.run R g)
  reset : ∀ {n m : Node τ π}, ρ n m → ρ (n.reset R) (m.reset R)

variable {R : Repertoire τ π γ ε} {ρ : Node τ π → Node τ π → Prop} {n m : Node τ π}

/-- By induction on the history. -/
theorem Bisimulates.equivalent (h : Bisimulates R ρ) (hnm : ρ n m) : n.Equivalent R m := by
  intro es
  induction es generalizing n m with
  | nil => rfl
  | cons e es ih =>
    cases e with
    | run g =>
      rcases (h.run g hnm).elim with ⟨r, q, hr, hq, hrq⟩ | ⟨e, hr, hq⟩
      · rw [observe_of_ok hr, observe_of_ok hq, hrq.status_eq, hrq.context_eq, ih hrq.state]
      · rw [observe_of_error hr, observe_of_error hq]
    | reset => exact ih (h.reset hnm)

/-! ## 3. Children -/

/-- The children in turn, for as long as they come to `on`. -/
def runWhile (R : Repertoire τ π γ ε) (on : Status) :
    List (Node τ π) → γ → Except ε (Step (List (Node τ π)) γ)
  | [], g => .ok ⟨on, [], g⟩
  | c :: cs, g => do
    let r ← c.run R g
    if r.status = on then
      let s ← runWhile R on cs r.context
      .ok ⟨s.status, r.state :: s.state, s.context⟩
    else .ok ⟨r.status, r.state :: cs, r.context⟩

theorem runSequence_eq_runWhile (cs : List (Node τ π)) (g : γ) :
    runSequence R cs g = runWhile R .success cs g := by
  induction cs generalizing g with
  | nil => rfl
  | cons c cs ih => simp only [runSequence, runWhile, ih]

theorem runSelector_eq_runWhile (cs : List (Node τ π)) (g : γ) :
    runSelector R cs g = runWhile R .failure cs g := by
  induction cs generalizing g with
  | nil => rfl
  | cons c cs ih => simp only [runSelector, runWhile, ih]

/-- What sequences and selectors have in common: `make` runs its children for as long as they come
to `on`, and fails if it has none. -/
structure Composes (R : Repertoire τ π γ ε) (on : Status)
    (make : Bool → List (Node τ π) → Node τ π) : Prop where
  run_nil : ∀ (v : Bool) (g : γ), (make v []).run R g = .ok ⟨.failure, make true [], g⟩
  run_cons : ∀ (v : Bool) (c : Node τ π) (cs : List (Node τ π)) (g : γ),
    (make v (c :: cs)).run R g = (runWhile R on (c :: cs) g).map (Step.mapState (make true))
  reset : ∀ (v : Bool) (cs : List (Node τ π)),
    (make v cs).reset R = make false (cs.map (Node.reset R))

theorem sequence_composes (R : Repertoire τ π γ ε) : Composes R .success sequence where
  run_nil _ _ := rfl
  run_cons _ c cs g := by
    rw [run, runSequence_eq_runWhile]
    cases runWhile R .success (c :: cs) g <;> rfl
  reset v cs := by rw [Node.reset, resetAll_eq_map]

theorem selector_composes (R : Repertoire τ π γ ε) : Composes R .failure selector where
  run_nil _ _ := rfl
  run_cons _ c cs g := by
    rw [run, runSelector_eq_runWhile]
    cases runWhile R .failure (c :: cs) g <;> rfl
  reset v cs := by rw [Node.reset, resetAll_eq_map]

theorem Composes.run_of_ne_nil {on : Status} {make : Bool → List (Node τ π) → Node τ π}
    (h : Composes R on make) {cs : List (Node τ π)} (hcs : cs ≠ []) (v : Bool) (g : γ) :
    (make v cs).run R g = (runWhile R on cs g).map (Step.mapState (make true)) := by
  obtain ⟨c, cs, rfl⟩ := List.exists_cons_of_ne_nil hcs
  exact h.run_cons v c cs g

/-! ## 4. Equivalent children -/

/-- By induction on the children: the same one is next on both sides, for the statuses are the
same. -/
theorem runWhile_equivalent {cs ds : List (Node τ π)} (on : Status)
    (hcs : List.Forall₂ (Equivalent R) cs ds) (g : γ) :
    (runWhile R on cs g).Agree (Step.Corresponds (List.Forall₂ (Equivalent R)))
      (runWhile R on ds g) := by
  induction hcs generalizing g with
  | nil => exact ⟨rfl, rfl, .nil⟩
  | cons hcd hrest ih =>
    rw [runWhile, runWhile]
    refine (hcd.run g).bind fun r q hrq ↦ ?_
    rw [hrq.status_eq, hrq.context_eq]
    split
    · refine (ih q.context).bind fun r' q' hrq' ↦ ?_
      exact ⟨hrq'.status_eq, hrq'.context_eq, .cons hrq.state hrq'.state⟩
    · exact ⟨rfl, rfl, .cons hrq.state hrest⟩

/-- Nodes of one kind with equivalent children. Whether they have been visited does not matter. -/
inductive Alike (R : Repertoire τ π γ ε) : Node τ π → Node τ π → Prop
  | composite {on : Status} {make : Bool → List (Node τ π) → Node τ π} {v w : Bool}
    {cs ds : List (Node τ π)} : Composes R on make → List.Forall₂ (Equivalent R) cs ds →
      Alike R (make v cs) (make w ds)
  | condition {v w : Bool} {p : Option π} {c d : Node τ π} : c.Equivalent R d →
      Alike R (condition v p (some c)) (condition w p (some d))
  | ignoreFailure {v w : Bool} {c d : Node τ π} : c.Equivalent R d →
      Alike R (ignoreFailure v c) (ignoreFailure w d)
  | repeater {v w : Bool} {limit : Repeat} {count : UInt32} {c d : Node τ π} : c.Equivalent R d →
      Alike R (repeater v limit count c) (repeater w limit count d)

theorem alike_bisimulates (R : Repertoire τ π γ ε) : Bisimulates R (Alike R) where
  run g h := by
    cases h with
    | composite hmake hcs =>
      cases hcs with
      | nil =>
        rw [hmake.run_nil, hmake.run_nil]
        exact ⟨rfl, rfl, .composite hmake .nil⟩
      | cons hcd hrest =>
        rw [hmake.run_cons, hmake.run_cons]
        refine (runWhile_equivalent _ (.cons hcd hrest) g).map fun r q hrq ↦ ?_
        exact ⟨hrq.status_eq, hrq.context_eq, .composite hmake hrq.state⟩
    | @condition _ _ p _ _ hcd =>
      cases p with
      | none => exact ⟨rfl, rfl, .condition hcd⟩
      | some p =>
        rw [run, run]
        cases R.test p g with
        | error e => rfl
        | ok r =>
          simp only [bind, Except.bind]
          split
          · refine (hcd.run r.context).bind fun r' q' hrq ↦ ?_
            exact ⟨hrq.status_eq, hrq.context_eq, .condition hrq.state⟩
          · exact ⟨rfl, rfl, .condition hcd⟩
    | ignoreFailure hcd =>
      rw [run, run]
      refine (hcd.run g).bind fun r q hrq ↦ ?_
      rw [hrq.status_eq]
      exact ⟨rfl, hrq.context_eq, .ignoreFailure hrq.state⟩
    | repeater hcd =>
      -- a repeater counts its runs, and not what comes of them
      rw [run, run]
      refine (hcd.run g).bind fun r q hrq ↦ ?_
      exact ⟨rfl, hrq.context_eq, .repeater hrq.state⟩
  reset h := by
    cases h with
    | composite hmake hcs =>
      rw [hmake.reset, hmake.reset]
      refine .composite hmake ?_
      rw [List.forall₂_map_left_iff, List.forall₂_map_right_iff]
      exact hcs.imp fun _ _ hcd ↦ hcd.reset
    | condition hcd => exact .condition hcd.reset
    | ignoreFailure hcd => exact .ignoreFailure hcd.reset
    | repeater hcd => exact .repeater hcd.reset

/-! ## 5. Any place in a tree -/

/-- A node with one subtree left out. -/
inductive Place (τ π : Type) where
  | here
  | sequence (visited : Bool) (before : List (Node τ π)) (place : Place τ π)
    (after : List (Node τ π))
  | selector (visited : Bool) (before : List (Node τ π)) (place : Place τ π)
    (after : List (Node τ π))
  | condition (visited : Bool) (predicate : Option π) (place : Place τ π)
  | ignoreFailure (visited : Bool) (place : Place τ π)
  | repeater (visited : Bool) (limit : Repeat) (count : UInt32) (place : Place τ π)

def Place.fill : Place τ π → Node τ π → Node τ π
  | here, n => n
  | sequence v before place after, n => .sequence v (before ++ place.fill n :: after)
  | selector v before place after, n => .selector v (before ++ place.fill n :: after)
  | condition v p place, n => .condition v p (some (place.fill n))
  | ignoreFailure v place, n => .ignoreFailure v (place.fill n)
  | repeater v limit count place, n => .repeater v limit count (place.fill n)

theorem forall₂_equivalent_at (h : n.Equivalent R m) (before after : List (Node τ π)) :
    List.Forall₂ (Equivalent R) (before ++ n :: after) (before ++ m :: after) := by
  have hsame : ∀ cs : List (Node τ π), List.Forall₂ (Equivalent R) cs cs :=
    fun cs ↦ List.forall₂_same.mpr fun c _ ↦ .refl c
  exact List.rel_append (hsame before) (.cons h (hsame after))

theorem Equivalent.fill (h : n.Equivalent R m) (place : Place τ π) :
    (place.fill n).Equivalent R (place.fill m) := by
  induction place with
  | here => exact h
  | sequence v before _ after ih =>
    have hcs := forall₂_equivalent_at ih before after
    exact (alike_bisimulates R).equivalent (.composite (sequence_composes R) hcs)
  | selector v before _ after ih =>
    have hcs := forall₂_equivalent_at ih before after
    exact (alike_bisimulates R).equivalent (.composite (selector_composes R) hcs)
  | condition v p _ ih => exact (alike_bisimulates R).equivalent (.condition ih)
  | ignoreFailure v _ ih => exact (alike_bisimulates R).equivalent (.ignoreFailure ih)
  | repeater v limit count _ ih => exact (alike_bisimulates R).equivalent (.repeater ih)

end Node

/-! ## 6. Whole trees -/

theorem Tree.run_some (R : Repertoire τ π γ ε) (n : Node τ π) (g : γ) :
    (⟨some n⟩ : Tree τ π).run R g = (n.run R g).map (Step.mapState fun n ↦ ⟨some n⟩) := by
  show (n.run R g).bind _ = _
  cases n.run R g <;> rfl

/-- What can be observed of a tree is what can be observed of its body. -/
theorem Tree.observe_some (R : Repertoire τ π γ ε) (n : Node τ π) (es : List (Event γ)) :
    observe (run R) (reset R) (⟨some n⟩ : Tree τ π) es =
      observe (Node.run R) (Node.reset R) n es := by
  induction es generalizing n with
  | nil => rfl
  | cons e es ih =>
    cases e with
    | run g =>
      cases hn : n.run R g with
      | error e =>
        have ht : (⟨some n⟩ : Tree τ π).run R g = .error e := by
          rw [run_some, hn]
          rfl
        rw [observe_of_error hn, observe_of_error ht]
      | ok r =>
        have ht : (⟨some n⟩ : Tree τ π).run R g = .ok (r.mapState fun n ↦ ⟨some n⟩) := by
          rw [run_some, hn]
          rfl
        rw [observe_of_ok hn, observe_of_ok ht, Step.mapState, ih r.state]
    | reset => exact ih (n.reset R)

theorem Node.Equivalent.tree {R : Repertoire τ π γ ε} {n m : Node τ π} (h : n.Equivalent R m) :
    Tree.Equivalent R ⟨some n⟩ ⟨some m⟩ := by
  intro es
  rw [Tree.observe_some, Tree.observe_some, h es]

end Delve

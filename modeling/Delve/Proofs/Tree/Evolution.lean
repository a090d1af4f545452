import Mathlib.Data.List.Forall2
import Delve.Tree.Run
import Delve.Proofs.Except
/-!
# What becomes of a tree

An evaluation goes through some of the nodes of a tree. It leaves all of them in their places, and
what it changes is marks, counts, and what the leaves keep that it comes to. This is said once here,
so that what an evaluation makes of a tree can be shown without evaluating.
-/

namespace Delve

variable {τ π γ ε : Type}

/-- What an evaluation makes of a leaf with its mark. A task that has not been visited is prepared,
and ticked in what that has led to; any other one is ticked; and both may be passed over. -/
inductive Repertoire.Visits (R : Repertoire τ π γ ε) : Bool × τ → Bool × τ → Prop
  | skipped (l : Bool × τ) : R.Visits l l
  | first {t : τ} {g : γ} {r : Step τ γ} :
    R.tick (R.setup t g).1 (R.setup t g).2 = .ok r → R.Visits (false, t) (true, r.state)
  | again {t : τ} {g : γ} {r : Step τ γ} : R.tick t g = .ok r → R.Visits (true, t) (true, r.state)

namespace Node

/-- What an evaluation can make of a node, and of the children that it comes to. -/
inductive Evolves (R : Repertoire τ π γ ε) : Node τ π → Node τ π → Prop
  | skipped (n : Node τ π) : Evolves R n n
  | sequence {v : Bool} {cs ds : List (Node τ π)} : cs.length = ds.length →
    (∀ (i : Nat) (hc : i < cs.length) (hd : i < ds.length), Evolves R cs[i] ds[i]) →
      Evolves R (sequence v cs) (sequence true ds)
  | selector {v : Bool} {cs ds : List (Node τ π)} : cs.length = ds.length →
    (∀ (i : Nat) (hc : i < cs.length) (hd : i < ds.length), Evolves R cs[i] ds[i]) →
      Evolves R (selector v cs) (selector true ds)
  | unset {v : Bool} {child : Option (Node τ π)} :
    Evolves R (condition v none child) (condition true none child)
  /-- Asked, and left without a look at the child. -/
  | asked {v : Bool} {p : π} {child : Option (Node τ π)} {g : γ} {r : Step π γ} :
    R.test p g = .ok r →
      Evolves R (condition v (some p) child) (condition true (some r.state) child)
  | granted {v : Bool} {p : π} {c d : Node τ π} {g : γ} {r : Step π γ} :
    R.test p g = .ok r → Evolves R c d →
      Evolves R (condition v (some p) (some c)) (condition true (some r.state) (some d))
  | failure {v : Bool} : Evolves R (failure v) (failure true)
  | ignoreFailure {v : Bool} {c d : Node τ π} :
    Evolves R c d → Evolves R (ignoreFailure v c) (ignoreFailure true d)
  | repeater {v : Bool} {limit : Repeat} {count count' : UInt32} {c d : Node τ π} :
    Evolves R c d → Evolves R (repeater v limit count c) (repeater true limit count' d)
  | task {v : Bool} {t t' : τ} :
    R.Visits (v, t) (true, t') → Evolves R (task v t) (task true t')

variable {R : Repertoire τ π γ ε} {cs ds : List (Node τ π)}

theorem Evolves.sequence_of_forall₂ (v : Bool) (h : List.Forall₂ (Evolves R) cs ds) :
    Evolves R (.sequence v cs) (.sequence true ds) :=
  .sequence h.length_eq (List.forall₂_iff_get.mp h).2

theorem Evolves.selector_of_forall₂ (v : Bool) (h : List.Forall₂ (Evolves R) cs ds) :
    Evolves R (.selector v cs) (.selector true ds) :=
  .selector h.length_eq (List.forall₂_iff_get.mp h).2

/-- What becomes of children keeps what becomes of each of them keeps. -/
theorem forall_mem_of_getElem {P : Node τ π → Prop} (hlen : cs.length = ds.length)
    (h : ∀ (i : Nat) (hc : i < cs.length) (hd : i < ds.length), P cs[i] → P ds[i])
    (hcs : ∀ c ∈ cs, P c) : ∀ d ∈ ds, P d := by
  intro d hd
  obtain ⟨i, hi, rfl⟩ := List.getElem_of_mem hd
  exact h i (hlen ▸ hi) hi (hcs _ (List.getElem_mem _))

theorem forall₂_evolves_self (cs : List (Node τ π)) : List.Forall₂ (Evolves R) cs cs :=
  List.forall₂_same.mpr fun c _ ↦ .skipped c

mutual

/-- By induction on the node, with its list of children as a second case of the induction. -/
theorem run_evolves : ∀ (n : Node τ π) {g : γ} {r : Step (Node τ π) γ},
    n.run R g = .ok r → n.Evolves R r.state
  | sequence v [], g, r, hr => by
    cases hr
    exact .sequence_of_forall₂ v .nil
  | sequence v (c :: cs), g, r, hr => by
    rw [run] at hr
    obtain ⟨q, hq, heq⟩ := bind_eq_ok.mp hr
    cases heq
    exact .sequence_of_forall₂ v (runSequence_evolves (c :: cs) hq)
  | selector v cs, g, r, hr => by
    rw [run] at hr
    obtain ⟨q, hq, heq⟩ := bind_eq_ok.mp hr
    cases heq
    exact .selector_of_forall₂ v (runSelector_evolves cs hq)
  | condition _ none child, g, r, hr => by
    rw [run] at hr
    cases hr
    exact .unset
  | condition _ (some p) none, g, r, hr => by
    rw [run] at hr
    obtain ⟨q, hq, heq⟩ := bind_eq_ok.mp hr
    cases heq
    exact .asked hq
  | condition _ (some p) (some child), g, r, hr => by
    rw [run] at hr
    obtain ⟨q, hq, hrest⟩ := bind_eq_ok.mp hr
    -- the child is only evaluated if the predicate succeeds
    split at hrest
    · obtain ⟨q', hq', heq⟩ := bind_eq_ok.mp hrest
      cases heq
      exact .granted hq (run_evolves child hq')
    · cases hrest
      exact .asked hq
  | failure _, g, r, hr => by
    cases hr
    exact .failure
  | ignoreFailure _ child, g, r, hr => by
    rw [run] at hr
    obtain ⟨q, hq, heq⟩ := bind_eq_ok.mp hr
    cases heq
    exact .ignoreFailure (run_evolves child hq)
  | repeater _ limit count child, g, r, hr => by
    rw [run] at hr
    obtain ⟨q, hq, heq⟩ := bind_eq_ok.mp hr
    cases heq
    exact .repeater (run_evolves child hq)
  | task true t, g, r, hr => by
    have hr : (R.tick t g).bind _ = .ok r := hr
    obtain ⟨q, hq, heq⟩ := bind_eq_ok.mp hr
    cases heq
    exact .task (.again hq)
  | task false t, g, r, hr => by
    have hr : (R.tick (R.setup t g).1 (R.setup t g).2).bind _ = .ok r := hr
    obtain ⟨q, hq, heq⟩ := bind_eq_ok.mp hr
    cases heq
    exact .task (.first hq)

theorem runSequence_evolves : ∀ (cs : List (Node τ π)) {g : γ} {r : Step (List (Node τ π)) γ},
    runSequence R cs g = .ok r → List.Forall₂ (Evolves R) cs r.state
  | [], g, r, hr => by
    cases hr
    exact .nil
  | c :: cs, g, r, hr => by
    rw [runSequence] at hr
    obtain ⟨q, hq, hrest⟩ := bind_eq_ok.mp hr
    have hc := run_evolves c hq
    split at hrest
    · obtain ⟨q', hq', heq⟩ := bind_eq_ok.mp hrest
      cases heq
      exact .cons hc (runSequence_evolves cs hq')
    · -- what comes after a child that does not succeed is passed over
      cases hrest
      exact .cons hc (forall₂_evolves_self cs)

theorem runSelector_evolves : ∀ (cs : List (Node τ π)) {g : γ} {r : Step (List (Node τ π)) γ},
    runSelector R cs g = .ok r → List.Forall₂ (Evolves R) cs r.state
  | [], g, r, hr => by
    cases hr
    exact .nil
  | c :: cs, g, r, hr => by
    rw [runSelector] at hr
    obtain ⟨q, hq, hrest⟩ := bind_eq_ok.mp hr
    have hc := run_evolves c hq
    split at hrest
    · obtain ⟨q', hq', heq⟩ := bind_eq_ok.mp hrest
      cases heq
      exact .cons hc (runSelector_evolves cs hq')
    · -- and so is what comes after a child that does not fail
      cases hrest
      exact .cons hc (forall₂_evolves_self cs)

end

end Node

/-- A tree stays empty, or its body evolves. -/
theorem Tree.run_evolves {R : Repertoire τ π γ ε} {t : Tree τ π} {g : γ} {r : Step (Tree τ π) γ}
    (hr : t.run R g = .ok r) :
    (t.body = none ∧ r.state = t) ∨
      ∃ n n', t = ⟨some n⟩ ∧ r.state = ⟨some n'⟩ ∧ n.Evolves R n' := by
  obtain ⟨body⟩ := t
  cases body with
  | none =>
    cases hr
    exact Or.inl ⟨rfl, rfl⟩
  | some n =>
    obtain ⟨q, hq, heq⟩ := bind_eq_ok.mp hr
    cases heq
    exact Or.inr ⟨n, q.state, rfl, rfl, n.run_evolves hq⟩

end Delve

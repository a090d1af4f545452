import Delve.Proofs.Tree.Evolution
/-!
# The leaves of a tree

Beyond marks and counts, tasks and predicates are all that changes in a tree. What every step of a
leaf keeps of the leaf, evaluations and resets keep of all leaves of a tree.
-/

namespace Delve

variable {τ π γ ε : Type}

namespace Node

/-! ## 1. What all leaves have in common -/

/-- Every task of the subtree has `S` and every predicate has `K`. -/
inductive Over (S : τ → Prop) (K : π → Prop) : Node τ π → Prop
  | sequence {v : Bool} {cs : List (Node τ π)} : (∀ c ∈ cs, Over S K c) → Over S K (sequence v cs)
  | selector {v : Bool} {cs : List (Node τ π)} : (∀ c ∈ cs, Over S K c) → Over S K (selector v cs)
  | condition {v : Bool} {predicate : Option π} {child : Option (Node τ π)} :
    (∀ p ∈ predicate, K p) → (∀ c ∈ child, Over S K c) → Over S K (condition v predicate child)
  | failure {v : Bool} : Over S K (failure v)
  | ignoreFailure {v : Bool} {child : Node τ π} : Over S K child → Over S K (ignoreFailure v child)
  | repeater {v : Bool} {limit : Repeat} {count : UInt32} {child : Node τ π} :
    Over S K child → Over S K (repeater v limit count child)
  | task {v : Bool} {t : τ} : S t → Over S K (task v t)

variable {S : τ → Prop} {K : π → Prop}

mutual

theorem over_of_forall (hS : ∀ t, S t) (hK : ∀ p, K p) : ∀ n : Node τ π, n.Over S K
  | .sequence _ cs => .sequence (overAll_of_forall hS hK cs)
  | .selector _ cs => .selector (overAll_of_forall hS hK cs)
  | .condition _ _ none => .condition (fun p _ ↦ hK p) (by simp)
  | .condition _ _ (some child) =>
    .condition (fun p _ ↦ hK p) (by rintro _ ⟨⟩; exact over_of_forall hS hK child)
  | .failure _ => .failure
  | .ignoreFailure _ child => .ignoreFailure (over_of_forall hS hK child)
  | .repeater _ _ _ child => .repeater (over_of_forall hS hK child)
  | .task _ t => .task (hS t)

theorem overAll_of_forall (hS : ∀ t, S t) (hK : ∀ p, K p) :
    ∀ cs : List (Node τ π), ∀ c ∈ cs, c.Over S K
  | [] => by simp
  | c :: cs =>
    List.forall_mem_cons.mpr ⟨over_of_forall hS hK c, overAll_of_forall hS hK cs⟩

end

theorem Over.children {n : Node τ π} (h : n.Over S K) : ∀ c ∈ n.children, c.Over S K := by
  cases h <;> simp_all [Node.children]

/-! ## 2. Nodes as they are built -/

/-- A subtree as it is built from tasks with `S` and predicates with `K`: nothing in it has been
visited or counted. -/
inductive Built (S : τ → Prop) (K : π → Prop) : Node τ π → Prop
  | seq {cs : List (Node τ π)} : (∀ c ∈ cs, Built S K c) → Built S K (seq cs)
  | sel {cs : List (Node τ π)} : (∀ c ∈ cs, Built S K c) → Built S K (sel cs)
  /-- Both what is asked for and what it is asked for may be missing. -/
  | condition {predicate : Option π} {child : Option (Node τ π)} :
    (∀ p ∈ predicate, K p) → (∀ c ∈ child, Built S K c) →
      Built S K (condition false predicate child)
  | fail : Built S K fail
  | lenient {child : Node τ π} : Built S K child → Built S K (lenient child)
  | repeated {limit : Repeat} {child : Node τ π} :
    Built S K child → Built S K (repeated limit child)
  | leaf {t : τ} : S t → Built S K (leaf t)

theorem Built.mono {S' : τ → Prop} {K' : π → Prop} {n : Node τ π} (h : n.Built S K)
    (hS : ∀ t, S t → S' t) (hK : ∀ p, K p → K' p) : n.Built S' K' := by
  induction h with
  | seq _ ih => exact .seq ih
  | sel _ ih => exact .sel ih
  | condition hp _ ih => exact .condition (fun p h ↦ hK p (hp p h)) ih
  | fail => exact .fail
  | lenient _ ih => exact .lenient ih
  | repeated _ ih => exact .repeated ih
  | leaf h => exact .leaf (hS _ h)

theorem Built.over {n : Node τ π} (h : n.Built S K) : n.Over S K := by
  induction h with
  | seq _ ih => exact .sequence ih
  | sel _ ih => exact .selector ih
  | condition hp _ ih => exact .condition hp ih
  | fail => exact .failure
  | lenient _ ih => exact .ignoreFailure ih
  | repeated _ ih => exact .repeater ih
  | leaf h => exact .task h

theorem Built.children {n : Node τ π} (h : n.Built S K) : ∀ c ∈ n.children, c.Built S K := by
  cases h <;> simp_all [Node.children, Node.seq, Node.sel, Node.fail, Node.lenient, Node.repeated,
    Node.leaf]

/-- Resetting a subtree right after it has been built changes nothing. -/
theorem Built.reset_eq {R : Repertoire τ π γ ε} {n : Node τ π} (h : n.Built S K)
    (hS : ∀ t, S t → R.rewind t = t) : n.reset R = n := by
  induction h with
  | seq _ ih =>
    rw [Node.seq, reset, resetAll_eq_map, List.map_congr_left ih, List.map_id']
  | sel _ ih =>
    rw [Node.sel, reset, resetAll_eq_map, List.map_congr_left ih, List.map_id']
  | @condition _ child _ _ ih =>
    cases child with
    | none => rfl
    | some c => rw [reset, ih c rfl]
  | fail => rfl
  | lenient _ ih => rw [Node.lenient, reset, ih]
  | repeated _ ih => rw [Node.repeated, reset, ih]
  | leaf h => rw [Node.leaf, reset, hS _ h]

end Node

/-! ## 3. Evaluations and resets -/

/-- Every step of a leaf keeps what tasks have by `S` and predicates by `K`. -/
structure Repertoire.Preserves (R : Repertoire τ π γ ε) (S : τ → Prop) (K : π → Prop) : Prop where
  setup : ∀ (t : τ) (g : γ), S t → S (R.setup t g).1
  tick : ∀ (t : τ) (g : γ) (r : Step τ γ), S t → R.tick t g = .ok r → S r.state
  rewind : ∀ t : τ, S t → S (R.rewind t)
  test : ∀ (p : π) (g : γ) (r : Step π γ), K p → R.test p g = .ok r → K r.state

theorem Repertoire.Visits.preserved {R : Repertoire τ π γ ε} {S : τ → Prop} {K : π → Prop}
    {l l' : Bool × τ} (h : R.Visits l l') (hR : R.Preserves S K) (hl : S l.2) : S l'.2 := by
  cases h with
  | skipped => exact hl
  | first hr => exact hR.tick _ _ _ (hR.setup _ _ hl) hr
  | again hr => exact hR.tick _ _ _ hl hr

namespace Node

variable {R : Repertoire τ π γ ε} {S : τ → Prop} {K : π → Prop}

/-- By induction on what has become of the node. -/
theorem Evolves.over {n n' : Node τ π} (hn : n.Evolves R n') (h : R.Preserves S K)
    (hover : n.Over S K) : n'.Over S K := by
  induction hn with
  | skipped => exact hover
  | sequence hlen _ ih =>
    cases hover with | sequence hcs =>
    exact .sequence (forall_mem_of_getElem hlen ih hcs)
  | selector hlen _ ih =>
    cases hover with | selector hcs =>
    exact .selector (forall_mem_of_getElem hlen ih hcs)
  | unset =>
    cases hover with | condition hp hc =>
    exact .condition hp hc
  | @asked _ p _ g r hr =>
    cases hover with | condition hp hc =>
    have hkept := h.test p g r (hp p rfl) hr
    exact .condition (by rintro _ ⟨⟩; exact hkept) hc
  | @granted _ p c _ g r hr _ ih =>
    cases hover with | condition hp hc =>
    have hkept := h.test p g r (hp p rfl) hr
    have hchild := ih (hc c rfl)
    exact .condition (by rintro _ ⟨⟩; exact hkept) (by rintro _ ⟨⟩; exact hchild)
  | failure => exact .failure
  | ignoreFailure _ ih =>
    cases hover with | ignoreFailure hc =>
    exact .ignoreFailure (ih hc)
  | repeater _ ih =>
    cases hover with | repeater hc =>
    exact .repeater (ih hc)
  | task hvisit =>
    cases hover with | task ht =>
    exact .task (hvisit.preserved h ht)

/-- Whatever has become of a subtree, a reset leaves it as one that is built. -/
theorem Over.reset_built {n : Node τ π} (hn : n.Over S K) (h : ∀ t, S t → S (R.rewind t)) :
    (n.reset R).Built S K := by
  induction hn with
  | sequence _ ih =>
    rw [reset, resetAll_eq_map]
    exact .seq (List.forall_mem_map.mpr ih)
  | selector _ ih =>
    rw [reset, resetAll_eq_map]
    exact .sel (List.forall_mem_map.mpr ih)
  | @condition _ _ child hp _ ih =>
    cases child with
    | none => exact .condition hp (by simp)
    | some c =>
      rw [reset]
      exact .condition hp (by rintro _ ⟨⟩; exact ih c rfl)
  | failure => exact .fail
  | ignoreFailure _ ih =>
    rw [reset]
    exact .lenient ih
  | repeater _ ih =>
    rw [reset]
    exact .repeated ih
  | task ht =>
    rw [reset]
    exact .leaf (h _ ht)

theorem reset_over (h : R.Preserves S K) {n : Node τ π} (hn : n.Over S K) :
    (n.reset R).Over S K :=
  (hn.reset_built h.rewind).over

end Node

namespace Tree

/-! ## 4. Whole trees -/

def Over (S : τ → Prop) (K : π → Prop) (t : Tree τ π) : Prop := ∀ n ∈ t.body, n.Over S K

/-- A tree as it is built from tasks with `S` and predicates with `K`. -/
def Built (S : τ → Prop) (K : π → Prop) (t : Tree τ π) : Prop := ∀ n ∈ t.body, n.Built S K

variable {S : τ → Prop} {K : π → Prop} {t : Tree τ π}
  {R : Repertoire τ π γ ε}

theorem over_of_forall (hS : ∀ a, S a) (hK : ∀ p, K p) (t : Tree τ π) : t.Over S K :=
  fun n _ ↦ n.over_of_forall hS hK

theorem Built.mono {S' : τ → Prop} {K' : π → Prop} (h : t.Built S K) (hS : ∀ a, S a → S' a)
    (hK : ∀ p, K p → K' p) : t.Built S' K' :=
  fun n hn ↦ (h n hn).mono hS hK

theorem Built.over (h : t.Built S K) : t.Over S K := fun n hn ↦ (h n hn).over

theorem Built.reset_eq (h : t.Built S K) (hS : ∀ a, S a → R.rewind a = a) : t.reset R = t := by
  obtain ⟨body⟩ := t
  cases body with
  | none => rfl
  | some n => rw [reset, Option.map_some, (h n rfl).reset_eq hS]

theorem run_over (h : R.Preserves S K) {g : γ} {r : Step (Tree τ π) γ} (ht : t.Over S K)
    (hr : t.run R g = .ok r) : r.state.Over S K := by
  rcases run_evolves hr with ⟨-, hsame⟩ | ⟨n, n', rfl, hstate, hn⟩
  · rw [hsame]
    exact ht
  · rw [hstate]
    rintro _ ⟨⟩
    exact hn.over h (ht n rfl)

theorem reset_over (h : R.Preserves S K) (ht : t.Over S K) : (t.reset R).Over S K := by
  obtain ⟨body⟩ := t
  cases body with
  | none => exact ht
  | some n =>
    rintro _ ⟨⟩
    exact Node.reset_over h (ht n rfl)

end Tree

end Delve

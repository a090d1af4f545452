import Delve.Proofs.Tree.Equivalence
/-!
# Signposts

To see which way an evaluation takes through a tree, a gate that always opens is put before every
node, and whoever comes through it is noted; predicates and tasks note their answers. The tree is
evaluated as every other tree is, and without the signposts it is the tree that it was.
-/

namespace Delve

variable {τ π γ ε : Type}

/-! ## 1. Addresses -/

/-- Where a node stands in a tree: which child to turn to at every level, from the root. -/
abbrev Address := List Nat

namespace Node

def at? : Node τ π → Address → Option (Node τ π)
  | n, [] => some n
  | n, i :: spot => n.children[i]?.bind (·.at? spot)

@[simp] theorem at?_nil (n : Node τ π) : n.at? [] = some n := by rw [at?]

theorem at?_append (n : Node τ π) (spot later : Address) :
    n.at? (spot ++ later) = (n.at? spot).bind (·.at? later) := by
  induction spot generalizing n with
  | nil => rw [List.nil_append, at?_nil, Option.bind_some]
  | cons i spot ih =>
    rw [List.cons_append, at?, at?]
    cases n.children[i]? with
    | none => rfl
    | some c => exact ih c

/-- The children of a node stand one level below it. -/
theorem at?_concat {n m : Node τ π} {spot : Address} (h : n.at? spot = some m) (i : Nat) :
    n.at? (spot ++ [i]) = m.children[i]? := by
  rw [at?_append, h, Option.bind_some, at?]
  cases m.children[i]? with
  | none => rfl
  | some c => rw [Option.bind_some, at?_nil]

/-- What children take over from their parents holds wherever they stand. -/
theorem at?_of_children {P : Node τ π → Prop} (hP : ∀ n, P n → ∀ c ∈ n.children, P c)
    {n m : Node τ π} (hn : P n) {spot : Address} (hm : n.at? spot = some m) : P m := by
  induction spot generalizing n with
  | nil =>
    obtain rfl : n = m := Option.some.inj ((at?_nil n).symm.trans hm)
    exact hn
  | cons i spot ih =>
    rw [at?] at hm
    obtain ⟨c, hc, hm⟩ := Option.bind_eq_some_iff.mp hm
    exact ih (hP n hn c (List.mem_of_getElem? hc)) hm

end Node

/-! ## 2. Notes -/

/-- What is noted of an evaluation. -/
inductive Note (γ : Type) where
  /-- The evaluation of a node begins, in the given surroundings. -/
  | entered (spot : Address) (g : γ)
  /-- The predicate of a condition answers. -/
  | asked (spot : Address) (status : Status)
  /-- A task answers. -/
  | ticked (spot : Address) (status : Status)
deriving DecidableEq

/-- The node that a note is about. -/
def Note.spot : Note γ → Address
  | entered spot _ | asked spot _ | ticked spot _ => spot

/-- A signpost, or a predicate that knows the address of its condition. -/
inductive Sign (π : Type) where
  | post (spot : Address)
  | ask (spot : Address) (p : π)

/-- The repertoire that keeps notes beside the surroundings, the last one last. -/
def Repertoire.noting (R : Repertoire τ π γ ε) :
    Repertoire (Address × τ) (Sign π) (γ × List (Note γ)) ε where
  setup t g :=
    let (task, after) := R.setup t.2 g.1
    ((t.1, task), after, g.2)
  tick t g := do
    let r ← R.tick t.2 g.1
    .ok ⟨r.status, (t.1, r.state), r.context, g.2 ++ [.ticked t.1 r.status]⟩
  rewind t := (t.1, R.rewind t.2)
  test
    | .post spot, g => .ok ⟨.success, .post spot, g.1, g.2 ++ [.entered spot g.1]⟩
    | .ask spot p, g => do
      let r ← R.test p g.1
      .ok ⟨r.status, .ask spot r.state, r.context, g.2 ++ [.asked spot r.status]⟩
  name t := R.name t.2

namespace Node

/-! ## 3. A subtree with signposts -/

/-- The node behind a gate that opens to everyone. -/
def signpost (spot : Address) (n : Node (Address × τ) (Sign π)) : Node (Address × τ) (Sign π) :=
  condition false (some (.post spot)) (some n)

mutual

/-- The subtree, which stands at `spot`, with a signpost before each of its nodes. -/
def signposted (spot : Address) : Node τ π → Node (Address × τ) (Sign π)
  | sequence v cs => signpost spot (sequence v (signpostedFrom spot 0 cs))
  | selector v cs => signpost spot (selector v (signpostedFrom spot 0 cs))
  | condition v p none => signpost spot (condition v (p.map (.ask spot)) none)
  | condition v p (some c) =>
    signpost spot (condition v (p.map (.ask spot)) (some (c.signposted (spot ++ [0]))))
  | failure v => signpost spot (failure v)
  | ignoreFailure v c => signpost spot (ignoreFailure v (c.signposted (spot ++ [0])))
  | repeater v limit count c =>
    signpost spot (repeater v limit count (c.signposted (spot ++ [0])))
  | task v t => signpost spot (task v (spot, t))

/-- The children at `spot` from the `i`-th on. -/
def signpostedFrom (spot : Address) (i : Nat) :
    List (Node τ π) → List (Node (Address × τ) (Sign π))
  | [] => []
  | c :: cs => c.signposted (spot ++ [i]) :: signpostedFrom spot (i + 1) cs

end

mutual

/-- The subtree without its signposts. -/
def plain : Node (Address × τ) (Sign π) → Node τ π
  | condition _ (some (.post _)) (some c) => c.plain
  | condition v (some (.ask _ p)) none => condition v (some p) none
  | condition v (some (.ask _ p)) (some c) => condition v (some p) (some c.plain)
  | condition v _ none => condition v none none
  | condition v none (some c) => condition v none (some c.plain)
  | sequence v cs => sequence v (plainAll cs)
  | selector v cs => selector v (plainAll cs)
  | failure v => failure v
  | ignoreFailure v c => ignoreFailure v c.plain
  | repeater v limit count c => repeater v limit count c.plain
  | task v t => task v t.2

def plainAll : List (Node (Address × τ) (Sign π)) → List (Node τ π)
  | [] => []
  | c :: cs => c.plain :: plainAll cs

end

mutual

theorem plain_signposted (spot : Address) : ∀ n : Node τ π, (n.signposted spot).plain = n
  | sequence _ cs => by rw [signposted, signpost, plain, plain, plainAll_signpostedFrom spot 0 cs]
  | selector _ cs => by rw [signposted, signpost, plain, plain, plainAll_signpostedFrom spot 0 cs]
  | condition _ none none => rfl
  | condition _ (some p) none => rfl
  | condition _ none (some c) => by
    rw [signposted, signpost, plain, Option.map_none, plain, plain_signposted _ c]
  | condition _ (some p) (some c) => by
    rw [signposted, signpost, plain, Option.map_some, plain, plain_signposted _ c]
  | failure _ => rfl
  | ignoreFailure _ c => by rw [signposted, signpost, plain, plain, plain_signposted _ c]
  | repeater _ _ _ c => by rw [signposted, signpost, plain, plain, plain_signposted _ c]
  | task _ _ => rfl

theorem plainAll_signpostedFrom (spot : Address) (i : Nat) :
    ∀ cs : List (Node τ π), plainAll (signpostedFrom spot i cs) = cs
  | [] => rfl
  | c :: cs => by
    rw [signpostedFrom, plainAll, plain_signposted _ c, plainAll_signpostedFrom spot (i + 1) cs]

end

/-- Whoever comes through a gate is noted. -/
theorem run_signpost (R : Repertoire τ π γ ε) (spot : Address) (n : Node (Address × τ) (Sign π))
    (g : γ × List (Note γ)) :
    (signpost spot n).run R.noting g = (n.run R.noting (g.1, g.2 ++ [.entered spot g.1])).map
      (Step.mapState fun n ↦ condition true (some (.post spot)) (some n)) := by
  have htest : R.noting.test (.post spot) g =
      .ok ⟨.success, .post spot, g.1, g.2 ++ [.entered spot g.1]⟩ := rfl
  rw [signpost, run, htest]
  simp only [bind, Except.bind, ↓reduceIte]
  cases n.run R.noting (g.1, g.2 ++ [.entered spot g.1]) <;> rfl

end Node

/-! ## 4. A tree with signposts -/

namespace Tree

def at? (t : Tree τ π) (spot : Address) : Option (Node τ π) := t.body.bind (·.at? spot)

def signposted (t : Tree τ π) : Tree (Address × τ) (Sign π) := ⟨t.body.map (·.signposted [])⟩

def plain (t : Tree (Address × τ) (Sign π)) : Tree τ π := ⟨t.body.map Node.plain⟩

end Tree

/-- An outcome without the notes and the signposts. -/
def Step.unsigned (r : Step (Tree (Address × τ) (Sign π)) (γ × List (Note γ))) :
    Step (Tree τ π) γ :=
  ⟨r.status, r.state.plain, r.context.1⟩

end Delve

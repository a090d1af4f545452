import Delve.Tree.Status
/-!
# Behavior trees

A tree decides what an actor does. Its inner nodes are of six kinds and its leaves are tasks; what
tasks and predicates do is told by a `Repertoire`, so a tree can be run on a world as well as on a
rehearsal stage. Running a tree evaluates it once, from the left, and answers with the tree as it
is afterwards: nodes remember that they have been visited, repeaters count, and tasks may keep
notes of their own until the tree is reset.
-/

namespace Delve

inductive Repeat where
  | times (n : UInt32)
  | forever
deriving DecidableEq, Repr, Inhabited

/-- A node over tasks of type `τ` and predicates of type `π`. Every node knows whether it has been
`visited` since the last reset. -/
inductive Node (τ π : Type) where
  /-- All children in turn, as long as they succeed. -/
  | sequence (visited : Bool) (children : List (Node τ π))
  /-- The children in turn, until one does not fail. -/
  | selector (visited : Bool) (children : List (Node τ π))
  /-- A child behind a predicate. Either may be missing. -/
  | condition (visited : Bool) (predicate : Option π) (child : Option (Node τ π))
  | failure (visited : Bool)
  /-- A child whose failure counts as success. -/
  | ignoreFailure (visited : Bool) (child : Node τ π)
  /-- A child that is run once per turn, whatever comes of it. -/
  | repeater (visited : Bool) (limit : Repeat) (count : UInt32) (child : Node τ π)
  | task (visited : Bool) (task : τ)
deriving Repr, Inhabited

/-- A tree with a body, or the empty tree. -/
structure Tree (τ π : Type) where
  body : Option (Node τ π)
deriving Repr

/-- An evaluation's outcome, with what was evaluated and its surroundings as they are after it. -/
structure Step (σ γ : Type) where
  status : Status
  state : σ
  context : γ
deriving Repr

/-- What tasks and predicates do in surroundings of type `γ`. A fault of type `ε` stops the whole
evaluation. -/
structure Repertoire (τ π γ ε : Type) where
  /-- Prepares a task right before its first tick since the last reset. -/
  setup : τ → γ → τ × γ
  tick : τ → γ → Except ε (Step τ γ)
  /-- Makes a task forget what belongs to one activation. -/
  rewind : τ → τ
  test : π → γ → Except ε (Step π γ)
  name : τ → String

variable {τ π γ ε : Type}

namespace Node

def visited : Node τ π → Bool
  | sequence v _ | selector v _ | condition v _ _ | failure v | ignoreFailure v _
  | repeater v _ _ _ | task v _ => v

def children : Node τ π → List (Node τ π)
  | sequence _ cs | selector _ cs => cs
  | condition _ _ c => c.toList
  | ignoreFailure _ c | repeater _ _ _ c => [c]
  | failure _ | task _ _ => []

/-! ## Nodes that have not been visited -/

def seq (children : List (Node τ π)) : Node τ π := sequence false children

def sel (children : List (Node τ π)) : Node τ π := selector false children

def gate (predicate : π) (child : Node τ π) : Node τ π :=
  condition false (some predicate) (some child)

def fail : Node τ π := failure false

def lenient (child : Node τ π) : Node τ π := ignoreFailure false child

def repeated (limit : Repeat) (child : Node τ π) : Node τ π := repeater false limit 0 child

def leaf (t : τ) : Node τ π := task false t

end Node

end Delve

import Delve.Clamp
import Delve.Tree.Node
/-!
# Running and resetting trees
-/

namespace Delve

variable {τ π γ ε : Type}

/-- What a repeater reports when its count has come to `count`. -/
def Repeat.status (limit : Repeat) (count : UInt32) : Status :=
  match limit with
  | .forever => .running
  | .times n => if n < count then .success else .running

/-- The count after one more run. An endless repeater does not count. -/
def Repeat.advance (limit : Repeat) (count : UInt32) : UInt32 :=
  match limit with
  | .forever => count
  | .times _ => count.addClamp 1

namespace Node

mutual

/-- Evaluates a node once.

A sequence or a selector without children fails. A condition without predicate is undefined; one
whose predicate succeeds answers for its child, and is undefined without one; any other answer of
the predicate is the condition's own. -/
def run (R : Repertoire τ π γ ε) : Node τ π → γ → Except ε (Step (Node τ π) γ)
  | sequence _ [], g => .ok ⟨.failure, sequence true [], g⟩
  | sequence _ (c :: cs), g => do
    let r ← runSequence R (c :: cs) g
    .ok ⟨r.status, sequence true r.state, r.context⟩
  | selector _ cs, g => do
    let r ← runSelector R cs g
    .ok ⟨r.status, selector true r.state, r.context⟩
  | condition _ none child, g => .ok ⟨.undefined, condition true none child, g⟩
  | condition _ (some p) none, g => do
    let r ← R.test p g
    let status := if r.status = .success then .undefined else r.status
    .ok ⟨status, condition true (some r.state) none, r.context⟩
  | condition _ (some p) (some child), g => do
    let r ← R.test p g
    if r.status = .success then
      let s ← child.run R r.context
      .ok ⟨s.status, condition true (some r.state) (some s.state), s.context⟩
    else .ok ⟨r.status, condition true (some r.state) (some child), r.context⟩
  | failure _, g => .ok ⟨.failure, failure true, g⟩
  | ignoreFailure _ child, g => do
    let r ← child.run R g
    let status := if r.status = .failure then .success else r.status
    .ok ⟨status, ignoreFailure true r.state, r.context⟩
  | repeater _ limit count child, g => do
    let r ← child.run R g
    let count := limit.advance count
    .ok ⟨limit.status count, repeater true limit count r.state, r.context⟩
  | task visited t, g => do
    let (t, g) := if visited then (t, g) else R.setup t g
    let r ← R.tick t g
    .ok ⟨r.status, task true r.state, r.context⟩

def runSequence (R : Repertoire τ π γ ε) :
    List (Node τ π) → γ → Except ε (Step (List (Node τ π)) γ)
  | [], g => .ok ⟨.success, [], g⟩
  | c :: cs, g => do
    let r ← c.run R g
    if r.status = .success then
      let s ← runSequence R cs r.context
      .ok ⟨s.status, r.state :: s.state, s.context⟩
    else .ok ⟨r.status, r.state :: cs, r.context⟩

def runSelector (R : Repertoire τ π γ ε) :
    List (Node τ π) → γ → Except ε (Step (List (Node τ π)) γ)
  | [], g => .ok ⟨.failure, [], g⟩
  | c :: cs, g => do
    let r ← c.run R g
    if r.status = .failure then
      let s ← runSelector R cs r.context
      .ok ⟨s.status, r.state :: s.state, s.context⟩
    else .ok ⟨r.status, r.state :: cs, r.context⟩

end

/-! ## Children one by one -/

section Children

variable {R : Repertoire τ π γ ε} {c : Node τ π} {g : γ} {r : Step (Node τ π) γ}

theorem runSequence_of_success (h : c.run R g = .ok r) (hon : r.status = .success)
    (cs : List (Node τ π)) :
    runSequence R (c :: cs) g =
      (runSequence R cs r.context).map fun q => ⟨q.status, r.state :: q.state, q.context⟩ := by
  rw [runSequence, h]
  simp only [bind, Except.bind, hon, ↓reduceIte]
  cases runSequence R cs r.context <;> rfl

theorem runSequence_of_ne_success (h : c.run R g = .ok r) (hoff : r.status ≠ .success)
    (cs : List (Node τ π)) :
    runSequence R (c :: cs) g = .ok ⟨r.status, r.state :: cs, r.context⟩ := by
  rw [runSequence, h]
  simp only [bind, Except.bind, hoff, ↓reduceIte]

theorem runSelector_of_failure (h : c.run R g = .ok r) (hon : r.status = .failure)
    (cs : List (Node τ π)) :
    runSelector R (c :: cs) g =
      (runSelector R cs r.context).map fun q => ⟨q.status, r.state :: q.state, q.context⟩ := by
  rw [runSelector, h]
  simp only [bind, Except.bind, hon, ↓reduceIte]
  cases runSelector R cs r.context <;> rfl

theorem runSelector_of_ne_failure (h : c.run R g = .ok r) (hoff : r.status ≠ .failure)
    (cs : List (Node τ π)) :
    runSelector R (c :: cs) g = .ok ⟨r.status, r.state :: cs, r.context⟩ := by
  rw [runSelector, h]
  simp only [bind, Except.bind, hoff, ↓reduceIte]

end Children

mutual

/-- Makes a whole subtree forget that it was visited. Counts go back to zero and tasks are
rewound. Predicates keep what they know. -/
def reset (R : Repertoire τ π γ ε) : Node τ π → Node τ π
  | sequence _ cs => sequence false (resetAll R cs)
  | selector _ cs => selector false (resetAll R cs)
  | condition _ p none => condition false p none
  | condition _ p (some child) => condition false p (some (child.reset R))
  | failure _ => failure false
  | ignoreFailure _ child => ignoreFailure false (child.reset R)
  | repeater _ limit _ child => repeater false limit 0 (child.reset R)
  | task _ t => task false (R.rewind t)

def resetAll (R : Repertoire τ π γ ε) : List (Node τ π) → List (Node τ π)
  | [] => []
  | c :: cs => c.reset R :: resetAll R cs

end

theorem resetAll_eq_map (R : Repertoire τ π γ ε) (cs : List (Node τ π)) :
    resetAll R cs = cs.map (reset R) := by
  induction cs with
  | nil => rfl
  | cons c cs ih => simp [resetAll, ih]

end Node

namespace Tree

def empty : Tree τ π := ⟨none⟩

instance : Inhabited (Tree τ π) := ⟨empty⟩

/-- Evaluates a tree once. The empty tree fails. -/
def run (R : Repertoire τ π γ ε) (t : Tree τ π) (g : γ) : Except ε (Step (Tree τ π) γ) :=
  match t.body with
  | none => .ok ⟨.failure, t, g⟩
  | some body => do
    let r ← body.run R g
    .ok ⟨r.status, ⟨some r.state⟩, r.context⟩

def reset (R : Repertoire τ π γ ε) (t : Tree τ π) : Tree τ π := ⟨t.body.map (·.reset R)⟩

end Tree

end Delve

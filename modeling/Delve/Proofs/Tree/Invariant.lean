import Delve.Tree.Run
import Delve.Proofs.Except
/-!
# What an evaluation keeps

An evaluation of a tree prepares, ticks and tests some of its leaves, one after another. Whatever
every one of these steps keeps, the evaluation keeps, and it comes to an end if all of them do. If
steps in related surroundings agree, so do evaluations in related surroundings. So an evaluation
can be made to keep a record of its surroundings, to speak of what lies between two steps.
-/

namespace Delve

variable {τ π γ ε : Type}

/-! ## 1. Invariants -/

/-- In surroundings with `P`, every step of a leaf keeps `P` or stops at a fault with `E`. -/
structure Repertoire.Maintains (R : Repertoire τ π γ ε) (P : γ → Prop) (E : ε → Prop) : Prop where
  setup : ∀ (t : τ) (g : γ), P g → P (R.setup t g).2
  tick : ∀ (t : τ) (g : γ), P g → (R.tick t g).ComesTo (fun r ↦ P r.context) E
  test : ∀ (p : π) (g : γ), P g → (R.test p g).ComesTo (fun r ↦ P r.context) E

/-- In surroundings with `P`, every step of a leaf has an answer and keeps `P`. -/
structure Repertoire.Keeps (R : Repertoire τ π γ ε) (P : γ → Prop) : Prop where
  setup : ∀ (t : τ) (g : γ), P g → P (R.setup t g).2
  tick : ∀ (t : τ) (g : γ), P g → ∃ r, R.tick t g = .ok r ∧ P r.context
  test : ∀ (p : π) (g : γ), P g → ∃ r, R.test p g = .ok r ∧ P r.context

theorem Repertoire.Keeps.maintains {R : Repertoire τ π γ ε} {P : γ → Prop} (h : R.Keeps P) :
    R.Maintains P fun _ ↦ False where
  setup := h.setup
  tick t g hg := Except.comesTo_of_exists_ok (h.tick t g hg)
  test p g hg := Except.comesTo_of_exists_ok (h.test p g hg)

namespace Node

variable {R : Repertoire τ π γ ε} {P : γ → Prop} {E : ε → Prop}

mutual

/-- By induction on the node, with its list of children as a second case of the induction. -/
theorem run_maintains (h : R.Maintains P E) :
    ∀ (n : Node τ π) {g : γ}, P g → (n.run R g).ComesTo (fun r ↦ P r.context) E
  | sequence _ [], g, hg => hg
  | sequence _ (c :: cs), g, hg => by
    rw [run]
    exact (runSequence_maintains h (c :: cs) hg).bind fun _ hkept ↦ hkept
  | selector _ cs, g, hg => by
    rw [run]
    exact (runSelector_maintains h cs hg).bind fun _ hkept ↦ hkept
  | condition _ none child, g, hg => by
    rw [run]
    exact hg
  | condition _ (some p) none, g, hg => by
    rw [run]
    exact (h.test p g hg).bind fun _ hkept ↦ hkept
  | condition _ (some p) (some child), g, hg => by
    rw [run]
    refine (h.test p g hg).bind fun r hkept ↦ ?_
    split
    · exact (run_maintains h child hkept).bind fun _ hafter ↦ hafter
    · exact hkept
  | failure _, g, hg => hg
  | ignoreFailure _ child, g, hg => by
    rw [run]
    exact (run_maintains h child hg).bind fun _ hkept ↦ hkept
  | repeater _ limit count child, g, hg => by
    rw [run]
    exact (run_maintains h child hg).bind fun _ hkept ↦ hkept
  | task visited t, g, hg => by
    rw [run]
    -- only a task that has not been visited yet is prepared
    cases visited with
    | true => exact (h.tick t g hg).bind fun _ hkept ↦ hkept
    | false => exact (h.tick _ _ (h.setup t g hg)).bind fun _ hkept ↦ hkept

theorem runSequence_maintains (h : R.Maintains P E) :
    ∀ (cs : List (Node τ π)) {g : γ}, P g →
      (runSequence R cs g).ComesTo (fun r ↦ P r.context) E
  | [], g, hg => hg
  | c :: cs, g, hg => by
    rw [runSequence]
    refine (run_maintains h c hg).bind fun r hkept ↦ ?_
    split
    · exact (runSequence_maintains h cs hkept).bind fun _ hafter ↦ hafter
    · exact hkept

theorem runSelector_maintains (h : R.Maintains P E) :
    ∀ (cs : List (Node τ π)) {g : γ}, P g →
      (runSelector R cs g).ComesTo (fun r ↦ P r.context) E
  | [], g, hg => hg
  | c :: cs, g, hg => by
    rw [runSelector]
    refine (run_maintains h c hg).bind fun r hkept ↦ ?_
    split
    · exact (runSelector_maintains h cs hkept).bind fun _ hafter ↦ hafter
    · exact hkept

end

end Node

namespace Tree

variable {R : Repertoire τ π γ ε} {P : γ → Prop} {E : ε → Prop} {g : γ}

theorem run_maintains (h : R.Maintains P E) (t : Tree τ π) (hg : P g) :
    (t.run R g).ComesTo (fun r ↦ P r.context) E := by
  obtain ⟨body⟩ := t
  cases body with
  | none => exact hg
  | some n => exact (n.run_maintains h hg).bind fun _ hkept ↦ hkept

theorem run_keeps (h : R.Keeps P) (t : Tree τ π) (hg : P g) :
    ∃ r, t.run R g = .ok r ∧ P r.context :=
  (t.run_maintains h.maintains hg).exists_ok

end Tree

/-! ## 2. Two evaluations -/

/-- Two outcomes that differ in their surroundings at most, and there as `ρ` allows. -/
structure Step.Matches {σ δ : Type} (ρ : δ → γ → Prop) (r : Step σ δ) (q : Step σ γ) : Prop where
  status_eq : r.status = q.status
  state_eq : r.state = q.state
  context : ρ r.context q.context

/-- In surroundings that `ρ` relates, the steps of `Q` are those of `R`, and lead to surroundings
that `ρ` relates. -/
structure Repertoire.Mirrors {δ : Type} (Q : Repertoire τ π δ ε) (R : Repertoire τ π γ ε)
    (ρ : δ → γ → Prop) : Prop where
  setup : ∀ (t : τ) {d : δ} {g : γ}, ρ d g →
    (Q.setup t d).1 = (R.setup t g).1 ∧ ρ (Q.setup t d).2 (R.setup t g).2
  tick : ∀ (t : τ) {d : δ} {g : γ}, ρ d g → (Q.tick t d).Agree (Step.Matches ρ) (R.tick t g)
  test : ∀ (p : π) {d : δ} {g : γ}, ρ d g → (Q.test p d).Agree (Step.Matches ρ) (R.test p g)

namespace Node

variable {δ : Type} {Q : Repertoire τ π δ ε} {R : Repertoire τ π γ ε} {ρ : δ → γ → Prop}

mutual

/-- By induction on the node: the same child is next in both evaluations, for the statuses are the
same. -/
theorem run_mirrors (h : Q.Mirrors R ρ) : ∀ (n : Node τ π) {d : δ} {g : γ}, ρ d g →
    (n.run Q d).Agree (Step.Matches ρ) (n.run R g)
  | sequence _ [], d, g, hg => ⟨rfl, rfl, hg⟩
  | sequence _ (c :: cs), d, g, hg => by
    rw [run, run]
    refine (runSequence_mirrors h (c :: cs) hg).bind fun r q hm ↦ ?_
    exact ⟨hm.status_eq, congrArg _ hm.state_eq, hm.context⟩
  | selector _ cs, d, g, hg => by
    rw [run, run]
    refine (runSelector_mirrors h cs hg).bind fun r q hm ↦ ?_
    exact ⟨hm.status_eq, congrArg _ hm.state_eq, hm.context⟩
  | condition _ none child, d, g, hg => by
    rw [run, run]
    exact ⟨rfl, rfl, hg⟩
  | condition _ (some p) none, d, g, hg => by
    rw [run, run]
    refine (h.test p hg).bind fun r q hm ↦ ?_
    rw [hm.status_eq, hm.state_eq]
    exact ⟨rfl, rfl, hm.context⟩
  | condition _ (some p) (some child), d, g, hg => by
    rw [run, run]
    refine (h.test p hg).bind fun r q hm ↦ ?_
    rw [hm.status_eq, hm.state_eq]
    split
    · refine (run_mirrors h child hm.context).bind fun r' q' hm' ↦ ?_
      exact ⟨hm'.status_eq, congrArg (fun c ↦ condition true _ (some c)) hm'.state_eq, hm'.context⟩
    · exact ⟨rfl, rfl, hm.context⟩
  | failure _, d, g, hg => ⟨rfl, rfl, hg⟩
  | ignoreFailure _ child, d, g, hg => by
    rw [run, run]
    refine (run_mirrors h child hg).bind fun r q hm ↦ ?_
    rw [hm.status_eq, hm.state_eq]
    exact ⟨rfl, rfl, hm.context⟩
  | repeater _ limit count child, d, g, hg => by
    rw [run, run]
    refine (run_mirrors h child hg).bind fun r q hm ↦ ?_
    exact ⟨rfl, congrArg _ hm.state_eq, hm.context⟩
  | task visited t, d, g, hg => by
    rw [run, run]
    cases visited with
    | true =>
      refine (h.tick t hg).bind fun r q hm ↦ ?_
      exact ⟨hm.status_eq, congrArg _ hm.state_eq, hm.context⟩
    | false =>
      obtain ⟨hsame, hready⟩ := h.setup t hg
      show Except.Agree _ ((Q.tick (Q.setup t d).1 (Q.setup t d).2) >>= _) _
      rw [hsame]
      refine (h.tick _ hready).bind fun r q hm ↦ ?_
      exact ⟨hm.status_eq, congrArg _ hm.state_eq, hm.context⟩

theorem runSequence_mirrors (h : Q.Mirrors R ρ) :
    ∀ (cs : List (Node τ π)) {d : δ} {g : γ}, ρ d g →
      (runSequence Q cs d).Agree (Step.Matches ρ) (runSequence R cs g)
  | [], d, g, hg => ⟨rfl, rfl, hg⟩
  | c :: cs, d, g, hg => by
    rw [runSequence, runSequence]
    refine (run_mirrors h c hg).bind fun r q hm ↦ ?_
    rw [hm.status_eq, hm.state_eq]
    split
    · refine (runSequence_mirrors h cs hm.context).bind fun r' q' hm' ↦ ?_
      exact ⟨hm'.status_eq, congrArg _ hm'.state_eq, hm'.context⟩
    · exact ⟨rfl, rfl, hm.context⟩

theorem runSelector_mirrors (h : Q.Mirrors R ρ) :
    ∀ (cs : List (Node τ π)) {d : δ} {g : γ}, ρ d g →
      (runSelector Q cs d).Agree (Step.Matches ρ) (runSelector R cs g)
  | [], d, g, hg => ⟨rfl, rfl, hg⟩
  | c :: cs, d, g, hg => by
    rw [runSelector, runSelector]
    refine (run_mirrors h c hg).bind fun r q hm ↦ ?_
    rw [hm.status_eq, hm.state_eq]
    split
    · refine (runSelector_mirrors h cs hm.context).bind fun r' q' hm' ↦ ?_
      exact ⟨hm'.status_eq, congrArg _ hm'.state_eq, hm'.context⟩
    · exact ⟨rfl, rfl, hm.context⟩

end

end Node

/-- What is true of two steps of leaves is true of two whole evaluations. -/
theorem Tree.run_mirrors {δ : Type} {Q : Repertoire τ π δ ε} {R : Repertoire τ π γ ε}
    {ρ : δ → γ → Prop} (h : Q.Mirrors R ρ) (t : Tree τ π) {d : δ} {g : γ} (hg : ρ d g) :
    (t.run Q d).Agree (Step.Matches ρ) (t.run R g) := by
  obtain ⟨body⟩ := t
  cases body with
  | none => exact ⟨rfl, rfl, hg⟩
  | some n =>
    refine (n.run_mirrors h hg).bind fun r q hm ↦ ?_
    exact ⟨hm.status_eq, congrArg (fun n ↦ Tree.mk (some n)) hm.state_eq, hm.context⟩

/-! ## 3. Shadows -/

/-- An outcome with its surroundings seen through `f`. -/
def Step.view {σ δ : Type} (f : δ → γ) (r : Step σ δ) : Step σ γ := ⟨r.status, r.state, f r.context⟩

theorem Step.view_eq_iff {σ δ : Type} {f : δ → γ} {r : Step σ δ} {q : Step σ γ} :
    r.view f = q ↔ r.Matches (fun d g ↦ f d = g) q := by
  constructor
  · rintro rfl
    exact ⟨rfl, rfl, rfl⟩
  · rintro ⟨hstatus, hstate, hcontext⟩
    rw [view, hstatus, hstate, hcontext]

/-- Seen through `f`, the steps of `Q` are the steps of `R`. -/
structure Repertoire.Shadows {δ : Type} (Q : Repertoire τ π δ ε) (R : Repertoire τ π γ ε)
    (f : δ → γ) : Prop where
  setup : ∀ (t : τ) (d : δ), R.setup t (f d) = ((Q.setup t d).1, f (Q.setup t d).2)
  tick : ∀ (t : τ) (d : δ), (Q.tick t d).map (Step.view f) = R.tick t (f d)
  test : ∀ (p : π) (d : δ), (Q.test p d).map (Step.view f) = R.test p (f d)

theorem Repertoire.Shadows.mirrors {δ : Type} {Q : Repertoire τ π δ ε} {R : Repertoire τ π γ ε}
    {f : δ → γ} (h : Q.Shadows R f) : Q.Mirrors R fun d g ↦ f d = g where
  setup t d g hg := by
    subst hg
    rw [h.setup t d]
    exact ⟨rfl, rfl⟩
  tick t d g hg := by
    subst hg
    have htick := Except.map_eq_iff_agree.mp (h.tick t d)
    simpa only [Step.view_eq_iff] using htick
  test p d g hg := by
    subst hg
    have htest := Except.map_eq_iff_agree.mp (h.test p d)
    simpa only [Step.view_eq_iff] using htest

/-- Seen through `f`, whole evaluations by `Q` are evaluations by `R`. -/
theorem Tree.run_shadows {δ : Type} {Q : Repertoire τ π δ ε} {R : Repertoire τ π γ ε} {f : δ → γ}
    (h : Q.Shadows R f) (t : Tree τ π) (d : δ) :
    (t.run Q d).map (Step.view f) = t.run R (f d) := by
  rw [Except.map_eq_iff_agree]
  simpa only [Step.view_eq_iff] using t.run_mirrors h.mirrors rfl

/-! ## 4. Records -/

/-- The repertoire with a record of the surroundings, to which every step of a leaf adds what it
has led to. -/
def Repertoire.recording (R : Repertoire τ π γ ε) : Repertoire τ π (γ × List γ) ε where
  setup t g :=
    let (t, after) := R.setup t g.1
    (t, after, g.2 ++ [after])
  tick t g := do
    let r ← R.tick t g.1
    .ok ⟨r.status, r.state, r.context, g.2 ++ [r.context]⟩
  rewind := R.rewind
  test p g := do
    let r ← R.test p g.1
    .ok ⟨r.status, r.state, r.context, g.2 ++ [r.context]⟩
  name := R.name

/-- An outcome without the record. -/
def Step.plain {σ : Type} (r : Step σ (γ × List γ)) : Step σ γ := ⟨r.status, r.state, r.context.1⟩

theorem Repertoire.recording_shadows (R : Repertoire τ π γ ε) :
    R.recording.Shadows R Prod.fst where
  setup _ _ := rfl
  tick t g := by
    show Except.map _ ((R.tick t g.1).bind _) = _
    cases R.tick t g.1 <;> rfl
  test p g := by
    show Except.map _ ((R.test p g.1).bind _) = _
    cases R.test p g.1 <;> rfl

/-- Keeping a record does not change what an evaluation does. -/
theorem Tree.run_recording {R : Repertoire τ π γ ε} (t : Tree τ π) (g : γ × List γ) :
    (t.run R.recording g).map Step.plain = t.run R g.1 :=
  t.run_shadows R.recording_shadows g

/-! ## 5. Journals -/

/-- A tick of a task: what the task was before it, and what the tick has come to. -/
structure Tick (τ γ : Type) where
  task : τ
  before : γ
  status : Status
  after : γ

/-- The repertoire with a journal of all ticks, the last one last. -/
def Repertoire.journaling (R : Repertoire τ π γ ε) :
    Repertoire τ π (γ × List (Tick τ γ)) ε where
  setup t g :=
    let (t, after) := R.setup t g.1
    (t, after, g.2)
  tick t g := do
    let r ← R.tick t g.1
    .ok ⟨r.status, r.state, r.context, g.2 ++ [⟨t, g.1, r.status, r.context⟩]⟩
  rewind := R.rewind
  test p g := do
    let r ← R.test p g.1
    .ok ⟨r.status, r.state, r.context, g.2⟩
  name := R.name

theorem Repertoire.journaling_shadows (R : Repertoire τ π γ ε) :
    R.journaling.Shadows R Prod.fst where
  setup _ _ := rfl
  tick t g := by
    show Except.map _ ((R.tick t g.1).bind _) = _
    cases R.tick t g.1 <;> rfl
  test p g := by
    show Except.map _ ((R.test p g.1).bind _) = _
    cases R.test p g.1 <;> rfl

end Delve

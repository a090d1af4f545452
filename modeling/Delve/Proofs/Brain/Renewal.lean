import Delve.Brain.Vocabulary
import Delve.Proofs.Brain.Frame
import Delve.Proofs.Brain.Origin
import Delve.Proofs.Tree.History
import Delve.Tree.Rehearsal
/-!
# Trees as good as new

A tree that is reset is as good as new: if the leaves' own rewinding restores them, it is the very
tree that was built, whatever happened to it since. The tasks of a brain are not restored by
rewinding. A chase goes on counting its searches, and the last blow stays on record. But nothing
that a brain does depends on either, so its conduct is that of a new brain all the same.
-/

namespace Delve

variable {τ π γ ε : Type}

/-! ## 1. Leaves that are restored -/

/-- Whatever becomes of the task by steps of `R`, rewinding makes it the same task again. -/
def Repertoire.Restores (R : Repertoire τ π γ ε) (t : τ) : Prop :=
  ∀ t', Relation.ReflTransGen R.Alters t t' → R.rewind t' = t

namespace Repertoire.Restores

variable {R : Repertoire τ π γ ε} {t : τ}

theorem rewind_eq (h : R.Restores t) : R.rewind t = t := h t .refl

theorem undoneAt (h : R.Restores t) : R.UndoneAt R t := by
  intro t' ht'
  rw [h t' ht', h.rewind_eq]

theorem of_undoneBy (h : R.UndoneBy R) (ht : R.rewind t = t) : R.Restores t := by
  intro t' ht'
  rw [h.undoneAt t t' ht', ht]

end Repertoire.Restores

/-- A reset takes a tree back to what it was built as, through any history. -/
theorem Tree.reset_of_history {R : Repertoire τ π γ ε} {t t' : Tree τ π} {es : List (Event γ)}
    (ht : t.Built R.Restores R.Stateless) (hes : t.undergo R es = .ok t') : t'.reset R = t := by
  have hundone : t.Over (R.UndoneAt R) R.Stateless :=
    (ht.mono (fun _ h ↦ h.undoneAt) fun _ h ↦ h).over
  calc
    t'.reset R = t.reset R := reset_undergo hundone hes
    _ = t := ht.reset_eq fun _ h ↦ h.rewind_eq

/-! ## 2. Brains without keepsakes -/

/-- The task without what outlasts an activation: how often a chase has looked for a route, and
what the last blow came to. -/
def Task.bare : Task → Task
  | chase c => chase { c with searches := 0 }
  | attack _ => attack none
  | t => t

/-- What tasks and senses do to an actor if tasks keep nothing beyond an activation. -/
def bareRepertoire : Repertoire Task Sense Scene Fault where
  setup t s := (t, s)
  tick t s := (t.tick s).map (Step.mapState Task.bare)
  rewind := Task.renew
  test sense s := .ok (sense.test s)
  name := Task.name

namespace Chase

variable {c d : Chase} {s : Scene}

theorem trail_aim (h : c.trail = d.trail) (own target : Position) :
    (c.aim s own target).trail = (d.aim s own target).trail := by
  unfold aim
  rw [h]
  split
  · exact h
  · rfl

theorem follow_trail (h : c.trail = d.trail) (target : Position) :
    (c.follow s target).1 = (d.follow s target).1 ∧
      (c.follow s target).2.1.trail = (d.follow s target).2.1.trail ∧
      (c.follow s target).2.2 = (d.follow s target).2.2 := by
  unfold follow
  rw [h]
  split
  · split
    · exact ⟨rfl, rfl, rfl⟩
    · split <;> exact ⟨rfl, rfl, rfl⟩
  · exact ⟨rfl, rfl, rfl⟩

/-- A chase goes by its route alone. -/
theorem tick_trail (h : c.trail = d.trail) :
    (c.tick s).1 = (d.tick s).1 ∧ (c.tick s).2.1.trail = (d.tick s).2.1.trail ∧
      (c.tick s).2.2 = (d.tick s).2.2 := by
  unfold tick
  split
  · exact ⟨rfl, h, rfl⟩
  · exact ⟨rfl, rfl, rfl⟩
  · exact follow_trail (trail_aim h _ _) _

end Chase

theorem Task.bare_tick (t : Task) (s : Scene) :
    (t.bare.tick s).map (Step.mapState bare) = (t.tick s).map (Step.mapState bare) := by
  cases t with
  | chase c =>
    obtain ⟨hstatus, htrail, hscene⟩ :=
      Chase.tick_trail (c := { c with searches := 0 }) (d := c) (s := s) rfl
    simp only [Task.bare, Task.tick, Except.map, Step.mapState, hstatus, htrail, hscene]
  | attack last =>
    show Except.map _ ((Delve.attack s).bind _) = Except.map _ ((Delve.attack s).bind _)
    cases Delve.attack s with
    | error e => rfl
    | ok out =>
      obtain ⟨blow, after⟩ := out
      cases blow <;> rfl
  | _ => rfl

theorem bare_renders : bareRepertoire.Renders brainRepertoire Task.bare where
  setup _ _ := rfl
  tick t s := t.bare_tick s
  rewind t := by cases t <;> rfl
  test _ _ := rfl

theorem Task.renew_bare (t : Task) : t.bare.renew = t.renew := by
  cases t <;> rfl

theorem Task.renew_renew (t : Task) : t.renew.renew = t.renew := by
  cases t <;> rfl

theorem bare_undoneBy : bareRepertoire.UndoneBy bareRepertoire where
  setup _ _ := rfl
  tick t s r h := by
    have h : (t.tick s).map (Step.mapState Task.bare) = .ok r := h
    cases hq : t.tick s with
    | error e =>
      rw [hq] at h
      cases h
    | ok q =>
      rw [hq] at h
      cases h
      show q.state.bare.renew = t.renew
      rw [Task.renew_bare, Task.renew_tick hq]
  rewind := Task.renew_renew
  test _ _ _ h := by
    cases h
    rfl

/-! ## 3. Brains from the vocabulary -/

/-- The task is one that a word of the vocabulary stands for. -/
def Vocabulary.HasTask (t : Task) : Prop := ∃ name params, Vocabulary.task name params = .ok t

theorem Vocabulary.HasTask.renew_eq {t : Task} (h : HasTask t) : t.renew = t := by
  obtain ⟨name, params, h⟩ := h
  unfold task at h
  split at h
  -- the two tasks that read parameters
  case h_10 | h_11 =>
    obtain ⟨_, -, h⟩ := bind_eq_ok.mp h
    cases h
    rfl
  all_goals
    cases h <;> rfl

theorem Vocabulary.HasTask.bare_eq {t : Task} (h : HasTask t) : t.bare = t := by
  have hnew := h.renew_eq
  cases t with
  | chase c =>
    cases hnew
    rfl
  | attack last =>
    cases hnew
    rfl
  | _ => rfl

/-- A brain that is reset conducts itself like the one that was built, through any history. -/
theorem Brain.outcomes_reset {b b' : Brain} {es : List (Tree.Event Scene)}
    (hb : b.Built Vocabulary.HasTask fun _ ↦ True) (hes : b.undergo brainRepertoire es = .ok b')
    (gs : List Scene) :
    (b'.reset brainRepertoire).outcomes brainRepertoire gs = b.outcomes brainRepertoire gs := by
  have hbare : b.mapTask Task.bare = b := hb.mapTask_eq fun _ h ↦ h.bare_eq
  have hseen : b.undergo bareRepertoire es = .ok (b'.mapTask Task.bare) := by
    have h := Tree.undergo_mapTask bare_renders b es
    rwa [hbare, hes] at h
  have hrestored : b.Built bareRepertoire.Restores bareRepertoire.Stateless :=
    hb.mono (fun t h ↦ .of_undoneBy bare_undoneBy h.renew_eq) fun p _ ↦ bare_undoneBy.test p
  calc
    _ = ((b'.reset brainRepertoire).mapTask Task.bare).outcomes bareRepertoire gs :=
      (Tree.outcomes_mapTask bare_renders _ gs).symm
    _ = ((b'.mapTask Task.bare).reset bareRepertoire).outcomes bareRepertoire gs := by
      rw [Tree.reset_mapTask bare_renders]
    _ = b.outcomes bareRepertoire gs := by rw [Tree.reset_of_history hrestored hseen]
    _ = (b.mapTask Task.bare).outcomes bareRepertoire gs := by rw [hbare]
    _ = b.outcomes brainRepertoire gs := Tree.outcomes_mapTask bare_renders b gs

/-! ## 4. Renewal -/

/-- Reset makes a tree fresh. Over leaves that their rewinding restores it is the tree that was
built, so whatever it is evaluated in comes out as it does with a new tree. Over the tasks of a
brain it is not quite that tree, but evaluations come out the same all the same. -/
theorem Tree.reset_renews :
    (∀ {τ π γ ε : Type} {R : Repertoire τ π γ ε} {t t' : Tree τ π} {es : List (Tree.Event γ)},
      t.Built R.Restores R.Stateless → t.undergo R es = .ok t' →
        t'.reset R = t ∧ ∀ gs, (t'.reset R).outcomes R gs = t.outcomes R gs) ∧
    ∀ {b b' : Brain} {es : List (Tree.Event Scene)},
      b.Built Vocabulary.HasTask (fun _ ↦ True) → b.undergo brainRepertoire es = .ok b' →
        ∀ gs, (b'.reset brainRepertoire).outcomes brainRepertoire gs =
          b.outcomes brainRepertoire gs := by
  refine ⟨fun {_ _ _ _ R t t' es} ht hes ↦ ?_, fun hb hes gs ↦ Brain.outcomes_reset hb hes gs⟩
  have hback : t'.reset R = t := Tree.reset_of_history ht hes
  refine ⟨hback, fun gs ↦ ?_⟩
  rw [hback]

/-- A script is restored from any number of ticks. -/
theorem Rehearsal.repertoire_undoneBy :
    Rehearsal.repertoire.UndoneBy Rehearsal.repertoire where
  setup t _ := by cases t <;> rfl
  tick t _ _ h := by
    cases t <;> cases h <;> rfl
  rewind t := by cases t <;> rfl
  test p _ _ h := by
    cases p <;> cases h <;> rfl

/-- Two scripts in a row, of which the second one is only reached in the second run; and a rat
that keeps what its blow has come to, reset or not. -/
theorem Tree.rehearsed_renews :
    let opening : Rehearsal.Script := { id := "opening", first := .failure, later := [.success] }
    let ending : Rehearsal.Script := { id := "ending", first := .running }
    let play : Tree Rehearsal.Role Rehearsal.Cue :=
      ⟨some (.seq [.leaf (.probe opening), .leaf (.probe ending)])⟩
    let played : Tree Rehearsal.Role Rehearsal.Cue :=
      ⟨some (.sequence true [.task true (.probe { opening with ticks := 2 }),
        .task true (.probe { ending with ticks := 1 })])⟩
    let rat : Brain := .of (.leaf (.attack none))
    (play.undergo Rehearsal.repertoire [.run { value := 0 }, .run { value := 0 }] = .ok played ∧
        played.reset Rehearsal.repertoire = play) ∧
      ∃ later, rat.undergo brainRepertoire [.run ambush] = .ok later ∧
        later.reset brainRepertoire = Brain.of (.leaf (.attack (some ⟨false, 50, 0, true⟩))) ∧
        ∀ gs, (later.reset brainRepertoire).outcomes brainRepertoire gs =
          rat.outcomes brainRepertoire gs := by
  intro opening ending play played rat
  have hplay : play.Built Rehearsal.repertoire.Restores Rehearsal.repertoire.Stateless := by
    rintro _ ⟨⟩
    refine .seq fun c hc ↦ ?_
    rcases List.mem_pair.mp hc with rfl | rfl
    · exact .leaf (.of_undoneBy Rehearsal.repertoire_undoneBy rfl)
    · exact .leaf (.of_undoneBy Rehearsal.repertoire_undoneBy rfl)
  have hplayed : play.undergo Rehearsal.repertoire [.run { value := 0 }, .run { value := 0 }] =
      .ok played := rfl
  have hrat : rat.Built Vocabulary.HasTask fun _ ↦ True := by
    rintro _ ⟨⟩
    exact .leaf ⟨"attack", [], rfl⟩
  obtain ⟨r, hr, -⟩ := (Task.attack none).tick_outcome ambush_seated ambush_fair
  have hrun : rat.run brainRepertoire ambush =
      .ok ⟨r.status, ⟨some (.task true r.state)⟩, r.context⟩ := by
    simp only [rat, Brain.of, Node.leaf, Tree.run, Node.run]
    show Except.bind (Except.bind ((Task.attack none).tick ambush) _) _ = _
    rw [hr]
    rfl
  have hstruck : rat.undergo brainRepertoire [.run ambush] = .ok ⟨some (.task true r.state)⟩ := by
    rw [Tree.undergo, hrun]
    rfl
  have hblow : ((Task.attack none).tick ambush).map (·.state) =
      .ok (.attack (some ⟨false, 50, 0, true⟩)) := by
    decide +kernel
  rw [hr] at hblow
  refine ⟨⟨hplayed, (Tree.reset_renews.1 hplay hplayed).1⟩, _, hstruck, ?_,
    Tree.reset_renews.2 hrat hstruck⟩
  rw [show r.state = _ from Except.ok.inj hblow]
  rfl

end Delve

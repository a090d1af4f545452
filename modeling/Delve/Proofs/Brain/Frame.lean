import Delve.Brain.Basic
import Delve.Proofs.Task.Commit
import Delve.Proofs.Task.Frame
import Delve.Proofs.Tree.Invariant
/-!
# What a brain can touch

An evaluation of a brain is a row of acts of one actor, so it touches what an act may touch and no
pile but those under the cells that the actor has stood on. This holds of every brain, by induction
over the tree.
-/

namespace Delve

variable {s s' : Scene}

/-! ## 1. Evaluations -/

/-- What an evaluation relies on: a world whose tables agree, fair rules, and an actor in focus. -/
structure Scene.InPlay (s : Scene) : Prop where
  seated : s.world.Seated
  fair : s.rules.Fair
  present : ∃ a, s.actor? = some a

theorem Scene.InPlay.act (h : s.InPlay) (hact : s.Act s') (hworld : s'.world.Seated) :
    s'.InPlay where
  seated := hworld
  fair := by
    rw [hact.touched.rules_eq]
    exact h.fair
  present := by
    obtain ⟨a, ha⟩ := h.present
    have hown := hact.touched.world.own
    rw [show s.world.actor? s.focus = some a from ha, ← hact.focus_eq] at hown
    obtain ⟨b, hb, -⟩ := exists_of_some_rel hown
    exact ⟨b, hb⟩

/-- A scene with the record that led to it, in the middle of an evaluation that began in `s`. -/
structure Scene.Passed (s : Scene) (now : Scene × List Scene) : Prop where
  inPlay : now.1.InPlay
  knowsPlayer : now.1.world.KnowsPlayer
  focus_eq : now.1.focus = s.focus
  touched : s.TouchedBy s.focus now.1
  recorded : now.1 ∈ now.2
  piles : ∀ p ∉ now.2.filterMap Scene.position?, now.1.world.piles[p]? = s.world.piles[p]?

theorem Scene.Passed.refl (h : s.InPlay) (hplayer : s.world.KnowsPlayer) : s.Passed (s, [s]) :=
  ⟨h, hplayer, rfl, .refl s.focus s, List.mem_singleton_self s, fun _ _ ↦ rfl⟩

/-- Every further act is recorded, so the pile that it can reach is one of those excepted. -/
theorem Scene.Passed.act {now : Scene × List Scene} (h : s.Passed now) (hact : now.1.Act s')
    (hworld : s'.world.Seated) : s.Passed (s', now.2 ++ [s']) where
  inPlay := h.inPlay.act hact hworld
  knowsPlayer := hact.touched.world.knowsPlayer h.knowsPlayer
  focus_eq := hact.focus_eq.trans h.focus_eq
  touched := h.touched.trans (h.focus_eq ▸ hact.touched)
  recorded := by simp
  piles p hp := by
    rw [List.filterMap_append, List.mem_append, not_or] at hp
    have haway : now.1.position? ≠ some p := by
      intro hstood
      exact hp.1 (List.mem_filterMap.mpr ⟨now.1, h.recorded, hstood⟩)
    rw [hact.piles p haway, h.piles p hp.1]

theorem recording_keeps_passed (s : Scene) : brainRepertoire.recording.Keeps s.Passed where
  setup _ now h := h.act (.refl now.1) h.inPlay.seated
  tick t now h := by
    obtain ⟨r, hr, houtcome⟩ := t.tick_outcome h.inPlay.seated h.inPlay.fair
    refine ⟨⟨r.status, r.state, r.context, now.2 ++ [r.context]⟩, ?_, ?_⟩
    · show (t.tick now.1).bind _ = _
      rw [hr]
      rfl
    · exact h.act (houtcome.act h.knowsPlayer) (houtcome.seated h.inPlay.seated)
  test sense now h :=
    ⟨⟨_, _, (sense.test now.1).context, now.2 ++ [(sense.test now.1).context]⟩, rfl,
      h.act (sense.act_test now.1) (sense.world_test now.1 ▸ h.inPlay.seated)⟩

namespace Brain

/-- Whatever a brain looks like, its evaluation comes to an end and touches only what it may. -/
theorem run_passed (b : Brain) (hs : s.InPlay) (hplayer : s.world.KnowsPlayer) :
    ∃ q, b.run brainRepertoire.recording (s, [s]) = .ok q ∧
      b.run brainRepertoire s = .ok q.plain ∧ s.Passed q.context := by
  obtain ⟨q, hq, hpassed⟩ :=
    Tree.run_keeps (recording_keeps_passed s) b (Scene.Passed.refl hs hplayer)
  have hplain := b.run_recording (R := brainRepertoire) (s, [s])
  rw [hq] at hplain
  exact ⟨q, hq, hplain.symm, hpassed⟩

/-- What a turn is once the brain has been evaluated. -/
theorem act_of_run {b : Brain} {r : Step Brain Scene} (h : b.run brainRepertoire s = .ok r) :
    ∃ after, b.act s =
        .ok ⟨r.status, if r.status = .failure then r.state.reset brainRepertoire else r.state,
          after⟩ ∧
      (after = r.context ∨ after = r.context.finishTurn) := by
  unfold act
  rw [h]
  refine ⟨_, rfl, ?_⟩
  split
  · exact Or.inl rfl
  · exact Or.inr rfl

/-- What an evaluated turn has touched, with the record of the evaluation. -/
theorem act_frame (b : Brain) (hs : s.InPlay) (hplayer : s.world.KnowsPlayer) :
    ∃ q r, b.run brainRepertoire.recording (s, [s]) = .ok q ∧ b.act s = .ok r ∧
      s.TouchedBy s.focus r.context ∧ r.context.world.Seated ∧
      ∀ p ∉ q.context.2.filterMap Scene.position?,
        r.context.world.piles[p]? = s.world.piles[p]? := by
  obtain ⟨q, hq, hplain, hpassed⟩ := b.run_passed hs hplayer
  obtain ⟨after, hact, hafter⟩ := act_of_run hplain
  refine ⟨q, _, hq, hact, ?_⟩
  rcases hafter with rfl | rfl
  · exact ⟨hpassed.touched, hpassed.inPlay.seated, hpassed.piles⟩
  · -- the payment is one more act, and it does not reach any pile
    have hpaid : q.context.1.Act q.context.1.finishTurn := (Scene.Act.refl _).finishTurn
    refine ⟨hpassed.touched.trans (hpassed.focus_eq ▸ hpaid.touched),
      Scene.seated_finishTurn hpassed.inPlay.seated, fun p hp ↦ ?_⟩
    show (q.context.1.finishTurn).world.piles[p]? = _
    rw [Scene.finishTurn, Scene.modifyActor, Scene.piles_modifyActor, hpassed.piles p hp]

/-! ## 2. Updates -/

variable {id : ActorId} {b : Brain}

theorem update_of_isReady {r : Step Brain Scene} (hready : (s.focusOn id).isReady = true)
    (hact : b.act (s.focusOn id) = .ok r) :
    b.update id s = .ok (some r.status, r.state, r.context) := by
  simp only [update, hready, ↓reduceIte, hact]
  rfl

theorem update_of_not_isReady (hready : (s.focusOn id).isReady = false) :
    b.update id s = .ok (none, b, s.focusOn id) := by
  simp only [update, hready, Bool.false_eq_true, ↓reduceIte]
  rfl

theorem inPlay_of_isReady (hworld : s.world.Seated) (hfair : s.rules.Fair)
    (hready : (s.focusOn id).isReady = true) : (s.focusOn id).InPlay := by
  obtain ⟨a, ha, -⟩ := (Option.any_eq_true _ _).mp hready
  exact ⟨hworld, hfair, a, ha⟩

/-- The scenes that an update passes through, the first one included. -/
def passes (id : ActorId) (b : Brain) (s : Scene) : List Scene :=
  let s := s.focusOn id
  if s.isReady then
    match b.run brainRepertoire.recording (s, [s]) with
    | .ok r => r.context.2
    | .error _ => [s]
  else [s]

/-- The cells on which an actor stands in the course of an update. -/
def footprint (id : ActorId) (b : Brain) (s : Scene) : List Position :=
  (b.passes id s).filterMap Scene.position?

theorem passes_of_isReady {q : Step Brain (Scene × List Scene)}
    (hready : (s.focusOn id).isReady = true)
    (hq : b.run brainRepertoire.recording (s.focusOn id, [s.focusOn id]) = .ok q) :
    b.passes id s = q.context.2 := by
  simp only [passes, hready, ↓reduceIte, hq]

/-- A turn of an actor touches nothing that is not its own, apart from the health of the player:
whatever brain it has, whatever the brain keeps from earlier turns, and whether or not the actor
is ready. -/
theorem update_touches (id : ActorId) (b : Brain) {s : Scene} (hworld : s.world.Seated)
    (hplayer : s.world.KnowsPlayer) (hfair : s.rules.Fair) :
    ∃ status b' s', b.update id s = .ok (status, b', s') ∧ s.TouchedBy id s' ∧
      ∀ p ∉ b.footprint id s, s'.world.piles[p]? = s.world.piles[p]? := by
  cases hready : (s.focusOn id).isReady with
  | false =>
    exact ⟨_, _, _, update_of_not_isReady hready, s.touchedBy_focusOn id id, fun _ _ ↦ rfl⟩
  | true =>
    obtain ⟨q, r, hq, hact, htouched, -, hpiles⟩ :=
      b.act_frame (inPlay_of_isReady hworld hfair hready) hplayer
    refine ⟨_, _, _, update_of_isReady hready hact, (s.touchedBy_focusOn id id).trans htouched,
      fun p hp ↦ ?_⟩
    rw [footprint, passes_of_isReady hready hq] at hp
    exact hpiles p hp

end Brain

theorem ambush_fair : ambush.rules.Fair := ⟨by decide, by decide⟩

theorem ambush_rat : ambush.world.actor? ⟨1⟩ =
    some { id := ⟨1⟩, name := "rat", position := ⟨1, 0⟩, energy := 150 } := by
  decide +kernel

theorem ambush_knowsPlayer : ambush.world.KnowsPlayer := by
  have hhero : ambush.world.player? = some { name := "hero", position := ⟨0, 0⟩ } := by
    decide +kernel
  exact World.knowsPlayer_of_player hhero (by decide +kernel)

/-- The rat strikes the hero from its own cell, and all but the hero's health is left as it was. -/
theorem ambush_touches :
    ambush.world.Seated ∧ ambush.world.KnowsPlayer ∧ ambush.rules.Fair ∧
      (Brain.of (.leaf (.attack none))).footprint ⟨1⟩ ambush = [⟨1, 0⟩, ⟨1, 0⟩, ⟨1, 0⟩] ∧
      ∃ b' s', (Brain.of (.leaf (.attack none))).update ⟨1⟩ ambush = .ok (some .success, b', s') ∧
        ambush.TouchedBy ⟨1⟩ s' ∧
        ∀ p : Position, p ≠ ⟨1, 0⟩ → s'.world.piles[p]? = ambush.world.piles[p]? := by
  have hfootprint : (Brain.of (.leaf (.attack none))).footprint ⟨1⟩ ambush =
      [⟨1, 0⟩, ⟨1, 0⟩, ⟨1, 0⟩] := by
    decide +kernel
  obtain ⟨status, b', s', hupdate, htouched, hpiles⟩ :=
    Brain.update_touches ⟨1⟩ (Brain.of (.leaf (.attack none))) ambush_seated ambush_knowsPlayer
      ambush_fair
  have hstatus : ((Brain.of (.leaf (.attack none))).update ⟨1⟩ ambush).map (·.1) =
      .ok (some .success) := by
    decide +kernel
  rw [hupdate] at hstatus
  cases hstatus
  refine ⟨ambush_seated, ambush_knowsPlayer, ambush_fair, hfootprint, b', s', hupdate, htouched, ?_⟩
  intro p hp
  apply hpiles p
  rw [hfootprint]
  simpa using hp

end Delve

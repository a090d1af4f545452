import Delve.Brain.Temper
import Delve.Proofs.Brain.Origin
/-!
# The watch of a guard

A guard watches for three turns, goes to look, and starts to watch again. Attacking and chasing
come before the watch and do not touch its count. So whatever happens between the turns of a guard,
the outcomes other than success follow one another in a fixed cycle.
-/

namespace Delve

variable {s : Scene} {n : BrainNode}

/-! ## 1. Kinds of nodes -/

namespace Node

/-- The leaves with a task that was built as `t`, whatever it has kept since. -/
inductive IsLeaf (t : Task) : BrainNode → Prop where
  | intro (visited : Bool) {now : Task} (built : now.renew = t.renew) : IsLeaf t (task visited now)

/-- The gates of a sense before a node with `P`. -/
inductive IsGate (sense : Sense) (P : BrainNode → Prop) : BrainNode → Prop where
  | intro (visited : Bool) {child : BrainNode} (child_is : P child) :
      IsGate sense P (condition visited (some sense) (some child))

theorem IsLeaf.reset {t : Task} (h : IsLeaf t n) : IsLeaf t (n.reset brainRepertoire) := by
  obtain ⟨visited, built⟩ := h
  exact .intro false ((Task.renew_rewind _).trans built)

/-- A task may keep notes, but it stays the task that it is. -/
theorem isLeaf_of_tick {t now : Task} {r : Step Task Scene} (built : now.renew = t.renew)
    (hr : now.tick s = .ok r) : IsLeaf t (task true r.state) :=
  .intro true ((Task.renew_tick hr).trans built)

/-- Nodes of a kind that they do not lose, which come to success, or to a failure that leaves the
scene as it was. -/
structure Decides (P : BrainNode → Prop) : Prop where
  run : ∀ {n : BrainNode}, P n → ∀ {s : Scene}, s.rules.Fair →
    ∃ r, n.run brainRepertoire s = .ok r ∧ P r.state ∧
      (r.status = .success ∨ r.status = .failure ∧ r.context = s)
  reset : ∀ {n : BrainNode}, P n → P (n.reset brainRepertoire)

/-- Tasks that neither wait nor remember decide. -/
theorem decided_of_outcome {t : Task} {status : Status} {s' : Scene}
    (h : Task.Outcome t s status s') (hidle : t ≠ .idle) (hgoTo : ∀ topic, t ≠ .goTo topic) :
    status = .success ∨ status = .failure ∧ s' = s := by
  cases h with
  | refused => exact Or.inr ⟨rfl, rfl⟩
  | givenUp task => exact absurd task (hgoTo _)
  | waiting task => exact absurd task hidle
  | noted | arrived | done => exact Or.inl rfl

theorem decides_attack : Decides (IsLeaf (.attack none)) where
  run h s hfair := by
    obtain ⟨visited, built⟩ := h
    rename_i now
    cases now with
    | attack last =>
      obtain ⟨r, hr, houtcome⟩ :=
        ((attack_comesTo last s).mono (fun _ ↦ id) fun _ ↦ hfair.not_crossed).exists_ok
      rw [run_task, hr]
      exact ⟨_, rfl, isLeaf_of_tick built hr,
        decided_of_outcome houtcome (by simp) (by simp)⟩
    | _ => cases built
  reset := IsLeaf.reset

theorem decides_chase : Decides (IsLeaf (.chase {})) where
  run h s _ := by
    obtain ⟨visited, built⟩ := h
    rename_i now
    cases now with
    | chase c =>
      rw [run_task]
      exact ⟨_, rfl, isLeaf_of_tick (s := s) built rfl,
        decided_of_outcome (chase_outcome c s) (by simp) (by simp)⟩
    | _ => cases built
  reset := IsLeaf.reset

/-- Asking leaves no trace, unless it takes a die. -/
theorem Decides.gate {P : BrainNode → Prop} (h : Decides P) {sense : Sense}
    (hsense : ∀ s, (sense.test s).context = s) : Decides (IsGate sense P) where
  run hn s hfair := by
    obtain ⟨visited, hchild⟩ := hn
    rw [Node.run]
    show ∃ r, (if (sense.test s).status = .success then _ else _) = Except.ok r ∧ _
    by_cases hyes : (sense.test s).status = .success
    · obtain ⟨r, hr, hstill, hdecided⟩ := h.run hchild hfair
      rw [if_pos hyes, hsense, hr]
      exact ⟨_, rfl, .intro true hstill, hdecided⟩
    · rw [if_neg hyes]
      exact ⟨_, rfl, .intro true hchild, Or.inr ⟨sense.status_test s hyes, hsense s⟩⟩
  reset hn := by
    obtain ⟨visited, hchild⟩ := hn
    exact .intro false (h.reset hchild)

end Node

namespace Temper

open Node

variable {count : UInt32} {rules : Rules}

/-! ## 2. The lookout -/

/-- The watch of a guard that has watched `count` turns. -/
inductive IsLookout (count : UInt32) : BrainNode → Prop where
  | intro (visited counted failed : Bool) {note look : BrainNode} (note_is : IsLeaf .remember note)
      (look_is : IsLeaf (.goTo .lastTarget) look) :
      IsLookout count (sequence visited
        [repeater counted (.times watchTurns) count note, look, failure failed])

/-- What the watch comes to: it goes on while its turns last, and fails with the look after them. -/
def lookoutStatus (count : UInt32) : Status :=
  if watchTurns < count.addClamp 1 then .failure else .running

theorem run_note (h : IsLeaf .remember n) (s : Scene) :
    ∃ r, n.run brainRepertoire s = .ok r ∧ IsLeaf .remember r.state := by
  obtain ⟨visited, built⟩ := h
  rename_i now
  cases now with
  | remember =>
    rw [run_task]
    exact ⟨_, rfl, .intro true rfl⟩
  | _ => cases built

theorem run_look (h : IsLeaf (.goTo .lastTarget) n) (s : Scene) :
    ∃ r, n.run brainRepertoire s = .ok r ∧ IsLeaf (.goTo .lastTarget) r.state ∧
      (r.status = .success ∨ r.status = .failure) := by
  obtain ⟨visited, built⟩ := h
  rename_i now
  cases now with
  | goTo topic =>
    rw [run_task]
    refine ⟨_, rfl, .intro true built, ?_⟩
    show (goToRemembered topic s).1 = _ ∨ (goToRemembered topic s).1 = _
    have houtcome := goTo_outcome topic s
    generalize goToRemembered topic s = looked at houtcome ⊢
    obtain ⟨status, after⟩ := looked
    cases houtcome with
    | refused | givenUp => exact Or.inr rfl
    | noted | arrived | done => exact Or.inl rfl
    | waiting task => cases task
  | _ => cases built

/-- One turn of watching counts, whether or not the player was there to be noted. -/
theorem IsLookout.run (h : IsLookout count n) (s : Scene) :
    ∃ r, n.run brainRepertoire s = .ok r ∧ r.status = lookoutStatus count ∧
      IsLookout (count.addClamp 1) r.state := by
  obtain ⟨visited, counted, failed, hnote, hlook⟩ := h
  rename_i note look
  obtain ⟨r, hr, hnote'⟩ := run_note hnote s
  have hcounted : (repeater counted (.times watchTurns) count note).run brainRepertoire s =
      .ok ⟨if watchTurns < count.addClamp 1 then .success else .running,
        repeater true (.times watchTurns) (count.addClamp 1) r.state, r.context⟩ := by
    rw [Node.run, hr]
    rfl
  rw [Node.run]
  by_cases hover : watchTurns < count.addClamp 1
  · obtain ⟨q, hq, hlook', hdecided⟩ := run_look hlook r.context
    have hstatus : lookoutStatus count = .failure := if_pos hover
    rw [runSequence_of_success hcounted (if_pos hover), hstatus]
    -- wherever the look leads, there is nothing after it but failure
    rcases hdecided with hthere | hlost
    · rw [runSequence_of_success hq hthere]
      exact ⟨_, rfl, rfl, .intro true true true hnote' hlook'⟩
    · rw [runSequence_of_ne_success hq (by simp [hlost])]
      exact ⟨_, rfl, hlost, .intro true true failed hnote' hlook'⟩
  · have hstatus : lookoutStatus count = .running := if_neg hover
    rw [runSequence_of_ne_success hcounted (by simp [hover]), hstatus]
    exact ⟨_, rfl, if_neg hover, .intro true true failed hnote' hlook⟩

theorem IsLookout.reset (h : IsLookout count n) : IsLookout 0 (n.reset brainRepertoire) := by
  obtain ⟨visited, counted, failed, hnote, hlook⟩ := h
  exact .intro false false false hnote.reset hlook.reset

/-! ## 3. The guard -/

def IsStrike : BrainNode → Prop := IsGate (.playerInRange 1) (IsLeaf (.attack none))

def IsPursuit (rules : Rules) : BrainNode → Prop :=
  IsGate (.playerInRange rules.aggroRange) (IsGate .playerVisible (IsLeaf (.chase {})))

/-- The tree of a guard that has watched `count` turns. -/
inductive IsGuard (rules : Rules) (count : UInt32) : BrainNode → Prop where
  | intro (visited : Bool) {strike pursuit lookout : BrainNode} (strike_is : IsStrike strike)
      (pursuit_is : IsPursuit rules pursuit) (lookout_is : IsLookout count lookout) :
      IsGuard rules count (selector visited [strike, pursuit, lookout])

theorem decides_strike : Decides IsStrike := decides_attack.gate fun _ ↦ rfl

theorem decides_pursuit (rules : Rules) : Decides (IsPursuit rules) :=
  (decides_chase.gate fun _ ↦ rfl).gate fun _ ↦ rfl

theorem isGuard_body (rules : Rules) : IsGuard rules 0 (Temper.guard.body rules) :=
  .intro false (.intro false (.intro false rfl)) (.intro false (.intro false (.intro false rfl)))
    (.intro false false false (.intro false rfl) (.intro false rfl))

/-- Either the guard has something better to do, and the watch is left alone, or it watches for
one turn. -/
theorem IsGuard.run (h : IsGuard rules count n) (hfair : s.rules.Fair) :
    ∃ r, n.run brainRepertoire s = .ok r ∧
      (r.status = .success ∧ IsGuard rules count r.state ∨
        r.status = lookoutStatus count ∧ IsGuard rules (count.addClamp 1) r.state) := by
  obtain ⟨visited, hstrike, hpursuit, hlookout⟩ := h
  rw [Node.run]
  obtain ⟨r, hr, hstrike', hstruck | ⟨hidle, hsame⟩⟩ := decides_strike.run hstrike hfair
  · rw [runSelector_of_ne_failure hr (by simp [hstruck])]
    exact ⟨_, rfl, Or.inl ⟨hstruck, .intro true hstrike' hpursuit hlookout⟩⟩
  · rw [runSelector_of_failure hr hidle, hsame]
    obtain ⟨q, hq, hpursuit', hchased | ⟨hidle', hsame'⟩⟩ :=
      (decides_pursuit rules).run hpursuit hfair
    · rw [runSelector_of_ne_failure hq (by simp [hchased])]
      exact ⟨_, rfl, Or.inl ⟨hchased, .intro true hstrike' hpursuit' hlookout⟩⟩
    · rw [runSelector_of_failure hq hidle', hsame']
      -- nothing else is to be done, and nothing has happened so far
      obtain ⟨p, hp, hstatus, hlookout'⟩ := hlookout.run s
      have hguard := IsGuard.intro true hstrike' hpursuit' hlookout'
      by_cases hover : p.status = .failure
      · rw [runSelector_of_failure hp hover]
        exact ⟨_, rfl, Or.inr ⟨hover.symm.trans hstatus, hguard⟩⟩
      · rw [runSelector_of_ne_failure hp hover]
        exact ⟨_, rfl, Or.inr ⟨hstatus, hguard⟩⟩

theorem IsGuard.reset (h : IsGuard rules count n) : IsGuard rules 0 (n.reset brainRepertoire) := by
  obtain ⟨visited, hstrike, hpursuit, hlookout⟩ := h
  exact .intro false (decides_strike.reset hstrike) ((decides_pursuit rules).reset hpursuit)
    hlookout.reset

end Temper

/-! ## 4. Turns of a guard -/

namespace Brain

variable {b b' : Brain} {rules : Rules} {id : ActorId} {phase : Fin 4}

/-- Updates of one actor in a row, each of them in a scene of its own: the outcomes of those that
gave the actor a turn, with what has become of the brain. -/
def updates (id : ActorId) (b : Brain) : List Scene → Except Fault (List Status × Brain)
  | [] => .ok ([], b)
  | s :: ss => do
    let (status, b, _) ← b.update id s
    let (later, b) ← b.updates id ss
    return (status.toList ++ later, b)

/-- The turns that a guard has watched since it began to watch. -/
def watched? (b : Brain) : Option UInt32 :=
  match b.body with
  | some (.selector _ [_, _, .sequence _ (.repeater _ _ count _ :: _)]) => some count
  | _ => none

/-- The brain of a guard in one of the four phases of its watch. -/
def OnWatch (rules : Rules) (phase : Fin 4) (b : Brain) : Prop :=
  ∃ n, b.body = some n ∧ Temper.IsGuard rules (.ofNat phase) n

theorem OnWatch.watched_eq (h : b.OnWatch rules phase) : b.watched? = some (.ofNat phase) := by
  obtain ⟨n, hn, hguard⟩ := h
  obtain ⟨visited, -, -, hlookout⟩ := hguard
  obtain ⟨visited, counted, failed, -, -⟩ := hlookout
  rw [watched?, hn]

/-- The status of a turn of watching. -/
def watchStatus (phase : Fin 4) : Status := if phase = 3 then .failure else .running

theorem addClamp_of_ne_last (h : phase ≠ 3) :
    (UInt32.ofNat phase).addClamp 1 = .ofNat (phase + 1 : Fin 4) := by
  revert phase
  decide

theorem lookoutStatus_eq (phase : Fin 4) :
    Temper.lookoutStatus (.ofNat phase) = watchStatus phase := by
  revert phase
  decide

/-- A turn of a guard succeeds and leaves the watch alone, or takes the watch on by one phase. After
the last phase the brain has been reset, which is the first phase again. -/
theorem OnWatch.act (h : b.OnWatch rules phase) (hfair : s.rules.Fair) :
    ∃ r, b.act s = .ok r ∧
      (r.status = .success ∧ r.state.OnWatch rules phase ∨
        r.status = watchStatus phase ∧ r.state.OnWatch rules (phase + 1)) := by
  obtain ⟨body⟩ := b
  obtain ⟨n, rfl, hguard⟩ := h
  obtain ⟨r, hr, hcourse⟩ := hguard.run hfair
  have hrun : Tree.run brainRepertoire ⟨some n⟩ s = .ok ⟨r.status, ⟨some r.state⟩, r.context⟩ := by
    simp only [Tree.run, hr]
    rfl
  obtain ⟨after, hact, -⟩ := act_of_run hrun
  refine ⟨_, hact, ?_⟩
  rcases hcourse with ⟨hsuccess, hguard'⟩ | ⟨hstatus, hguard'⟩
  · refine Or.inl ⟨hsuccess, ?_⟩
    dsimp only
    rw [if_neg (by simp [hsuccess])]
    exact ⟨_, rfl, hguard'⟩
  · rw [lookoutStatus_eq] at hstatus
    refine Or.inr ⟨hstatus, ?_⟩
    dsimp only
    by_cases hlast : phase = 3
    · rw [if_pos (by rw [hstatus, watchStatus, if_pos hlast]), hlast]
      exact ⟨_, rfl, hguard'.reset⟩
    · rw [if_neg (by simp [hstatus, watchStatus, hlast])]
      refine ⟨_, rfl, ?_⟩
      rwa [← addClamp_of_ne_last hlast]

theorem OnWatch.update (h : b.OnWatch rules phase) (id : ActorId) (hfair : s.rules.Fair) :
    ∃ status b' s', b.update id s = .ok (status, b', s') ∧
      ((status = none ∨ status = some .success) ∧ b'.OnWatch rules phase ∨
        status = some (watchStatus phase) ∧ b'.OnWatch rules (phase + 1)) := by
  cases hready : (s.focusOn id).isReady with
  | false => exact ⟨_, _, _, update_of_not_isReady hready, Or.inl ⟨Or.inl rfl, h⟩⟩
  | true =>
    obtain ⟨r, hact, hcourse⟩ := h.act (s := s.focusOn id) hfair
    refine ⟨_, _, _, update_of_isReady hready hact, ?_⟩
    rcases hcourse with ⟨hsuccess, hsame⟩ | ⟨hstatus, hnext⟩
    · exact Or.inl ⟨Or.inr (congrArg some hsuccess), hsame⟩
    · exact Or.inr ⟨congrArg some hstatus, hnext⟩

/-! ## 5. The rhythm of the outcomes -/

/-- The outcomes of turns of a guard that began in one phase of the watch and ended in another. -/
inductive Rhythm : Fin 4 → List Status → Fin 4 → Prop where
  | nil (phase : Fin 4) : Rhythm phase [] phase
  | busy {phase last : Fin 4} {later : List Status} (rest : Rhythm phase later last) :
      Rhythm phase (.success :: later) last
  | watching {phase last : Fin 4} {later : List Status} (rest : Rhythm (phase + 1) later last) :
      Rhythm phase (watchStatus phase :: later) last

/-- By induction on the scenes. -/
theorem OnWatch.updates (id : ActorId) (ss : List Scene) (hfair : ∀ s ∈ ss, s.rules.Fair)
    (h : b.OnWatch rules phase) :
    ∃ statuses b' last, b.updates id ss = .ok (statuses, b') ∧ Rhythm phase statuses last ∧
      b'.OnWatch rules last := by
  induction ss generalizing b phase with
  | nil => exact ⟨[], b, phase, rfl, .nil phase, h⟩
  | cons s ss ih =>
    obtain ⟨status, b', s', hupdate, hcourse⟩ := h.update id (hfair s List.mem_cons_self)
    have hlater := fun s hs ↦ hfair s (List.mem_cons_of_mem _ hs)
    have hfirst : ∀ {statuses b''}, b'.updates id ss = .ok (statuses, b'') →
        b.updates id (s :: ss) = .ok (status.toList ++ statuses, b'') := by
      intro statuses b'' hupdates
      simp only [Brain.updates, hupdate, hupdates, bind, Except.bind, pure, Except.pure]
    rcases hcourse with ⟨rfl | rfl, hsame⟩ | ⟨rfl, hnext⟩
    · obtain ⟨statuses, b'', last, hupdates, hrhythm, hwatch⟩ := ih hlater hsame
      exact ⟨_, b'', last, hfirst hupdates, hrhythm, hwatch⟩
    · obtain ⟨statuses, b'', last, hupdates, hrhythm, hwatch⟩ := ih hlater hsame
      exact ⟨_, b'', last, hfirst hupdates, .busy hrhythm, hwatch⟩
    · obtain ⟨statuses, b'', last, hupdates, hrhythm, hwatch⟩ := ih hlater hnext
      exact ⟨_, b'', last, hfirst hupdates, .watching hrhythm, hwatch⟩

variable {last : Fin 4} {statuses : List Status}

theorem watchStatus_ne (phase : Fin 4) :
    watchStatus phase ≠ .success ∧ watchStatus phase ≠ .undefined := by
  revert phase
  decide

theorem Rhythm.undefined_notMem (h : Rhythm phase statuses last) : .undefined ∉ statuses := by
  induction h with
  | nil => exact List.not_mem_nil
  | busy _ ih => simp [ih]
  | watching _ ih => simp [ih, (watchStatus_ne _).2.symm]

theorem Rhythm.last_eq (h : Rhythm phase statuses last) :
    last = phase + .ofNat 4 (statuses.filter (· ≠ .success)).length := by
  induction h with
  | nil => simp
  | busy _ ih => simpa using ih
  | @watching phase last later _ ih =>
    rw [ih, List.filter_cons_of_pos (by simpa using (watchStatus_ne phase).1), List.length_cons]
    -- one phase more, counted around the cycle
    rw [Fin.ext_iff]
    simp only [Fin.val_add, Fin.val_ofNat, Fin.val_one]
    omega

/-- The outcomes of a whole watch. -/
def watchCycle : List Status := [.running, .running, .running, .failure]

/-- What is left of a cycle in a phase of it, with `n` more cycles after it. -/
def watchRest (phase : Fin 4) (n : Nat) : List Status :=
  watchCycle.drop phase ++ (List.replicate n watchCycle).flatten

/-- The rest begins with the status of the phase, and then comes the rest of the next phase. -/
theorem exists_watchRest_eq (phase : Fin 4) (n : Nat) :
    ∃ m, watchRest phase m = watchStatus phase :: watchRest (phase + 1) n := by
  by_cases hlast : phase = 3
  · subst hlast
    -- the phase after the last one opens another cycle
    refine ⟨n + 1, ?_⟩
    rw [watchRest, watchRest, List.replicate_succ, List.flatten_cons]
    rfl
  · refine ⟨n, ?_⟩
    have hdrop : watchCycle.drop phase =
        watchStatus phase :: watchCycle.drop (phase + 1 : Fin 4) := by
      revert phase
      decide
    rw [watchRest, hdrop, List.cons_append, watchRest]

theorem Rhythm.filter_prefix (h : Rhythm phase statuses last) :
    ∃ n, statuses.filter (· ≠ .success) <+: watchRest phase n := by
  induction h with
  | nil => exact ⟨0, List.nil_prefix⟩
  | busy _ ih => simpa using ih
  | @watching phase last later _ ih =>
    obtain ⟨n, hprefix⟩ := ih
    obtain ⟨m, hm⟩ := exists_watchRest_eq phase n
    refine ⟨m, ?_⟩
    rw [hm, List.filter_cons_of_pos (by simpa using (watchStatus_ne phase).1)]
    exact List.cons_prefix_cons.mpr ⟨rfl, hprefix⟩

end Brain

/-- Whatever happens between the turns of a new guard: without the successes, its outcomes are three
times running and once failure, again and again. It is never undefined, and of the turns that it
has had, exactly those that did not succeed have moved its watch. -/
theorem Temper.guard_updates (rules : Rules) (id : ActorId) (ss : List Scene)
    (hfair : ∀ s ∈ ss, s.rules.Fair) :
    ∃ statuses b, (Temper.guard.brain rules).updates id ss = .ok (statuses, b) ∧
      .undefined ∉ statuses ∧
      (∃ n, statuses.filter (· ≠ .success) <+:
        (List.replicate n [.running, .running, .running, .failure]).flatten) ∧
      b.watched? = some (.ofNat ((statuses.filter (· ≠ .success)).length % 4)) := by
  have hnew : (Temper.guard.brain rules).OnWatch rules 0 := ⟨_, rfl, isGuard_body rules⟩
  obtain ⟨statuses, b, last, hupdates, hrhythm, hwatch⟩ := hnew.updates id ss hfair
  obtain ⟨n, hprefix⟩ := hrhythm.filter_prefix
  refine ⟨statuses, b, hupdates, hrhythm.undefined_notMem, ⟨n + 1, ?_⟩, ?_⟩
  · rw [List.replicate_succ, List.flatten_cons]
    exact hprefix
  · rw [hwatch.watched_eq, hrhythm.last_eq, Fin.val_add]
    simp

/-- The place of the ambush without a player. -/
def deserted : Scene := { ambush with world := { ambush.world with playerId := none } }

/-- The player shows up during the watch and again after it. The guard strikes both times and goes
on with its watch as if nothing had been. -/
theorem deserted_updates :
    (∀ s ∈ [deserted, ambush, deserted, deserted, deserted, ambush, deserted], s.rules.Fair) ∧
      ∃ b, (Temper.guard.brain {}).updates ⟨1⟩
          [deserted, ambush, deserted, deserted, deserted, ambush, deserted] =
            .ok ([.running, .success, .running, .running, .failure, .success, .running], b) ∧
        (∃ n, [.running, .running, .running, .failure, .running] <+:
          (List.replicate n [Status.running, .running, .running, .failure]).flatten) ∧
        b.watched? = some 1 := by
  have hfair : ∀ s ∈ [deserted, ambush, deserted, deserted, deserted, ambush, deserted],
      s.rules.Fair := by
    have hdeserted : deserted.rules.Fair := ambush_fair
    simp [ambush_fair, hdeserted]
  obtain ⟨statuses, b, hupdates, -, hprefix, hwatched⟩ :=
    Temper.guard_updates {} ⟨1⟩ _ hfair
  have hstatuses : ((Temper.guard.brain {}).updates ⟨1⟩
      [deserted, ambush, deserted, deserted, deserted, ambush, deserted]).map (·.1) =
        .ok [.running, .success, .running, .running, .failure, .success, .running] := by
    decide +kernel
  rw [hupdates] at hstatuses
  cases hstatuses
  exact ⟨hfair, b, hupdates, hprefix, hwatched⟩

end Delve

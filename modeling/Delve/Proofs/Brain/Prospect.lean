import Delve.Proofs.Brain.Frame
/-!
# What an evaluation can come to

How an evaluation comes out, and for how many turns the actor pays in the course of it, can be
foreseen from the brain alone. `Brain.prospects` lists the possibilities for an actor that is ready
to act; `Brain.act_spends` says that every turn comes to one of them, in any scene.
-/

namespace Delve

/-! ## 1. Prospects -/

/-- A way in which an evaluation may come out: with a status, and with a number of turns paid. -/
structure Prospect where
  status : Status
  turns : Nat
deriving DecidableEq

/-- What a turn of a task may come to, for an actor of which it is known or not that it is ready.
Only idling depends on that: whoever is ready does not have to wait. -/
def Task.prospects (ready : Bool) : Task → List Prospect
  | idle => if ready then [⟨.success, 1⟩] else [⟨.success, 1⟩, ⟨.running, 0⟩]
  | remember => [⟨.success, 0⟩, ⟨.failure, 0⟩]
  -- arriving takes no turn, a step towards the cell takes one
  | goTo _ => [⟨.success, 0⟩, ⟨.success, 1⟩, ⟨.failure, 0⟩]
  | wander | retreat | chase _ | attack _ | drink _ | pickUp _ | mineBlock | mineTunnel =>
    [⟨.success, 1⟩, ⟨.failure, 0⟩]

/-- What a repeater may report. -/
def Repeat.statuses : Repeat → List Status
  | forever => [.running]
  | times _ => [.running, .success]

namespace Node

mutual

/-- What an evaluation may come to, whatever the node keeps from earlier turns. -/
def prospects (ready : Bool) : BrainNode → List Prospect
  | sequence _ [] | failure _ => [⟨.failure, 0⟩]
  | sequence _ (c :: cs) => prospectsWhile .success ready (c :: cs)
  | selector _ cs => prospectsWhile .failure ready cs
  | condition _ none _ => [⟨.undefined, 0⟩]
  | condition _ (some _) none => [⟨.undefined, 0⟩, ⟨.failure, 0⟩]
  -- either the sense says no, or the child answers
  | condition _ (some _) (some child) => ⟨.failure, 0⟩ :: prospects ready child
  | ignoreFailure _ child =>
    (prospects ready child).map fun p =>
      ⟨if p.status = .failure then .success else p.status, p.turns⟩
  -- the count decides the answer and the child the price
  | repeater _ limit _ child =>
    (prospects ready child).flatMap fun p => limit.statuses.map (⟨·, p.turns⟩)
  | task _ t => t.prospects ready

/-- What the children may come to that are evaluated one after another, as long as they answer
`on`. Once a turn has been paid, it is not known any more whether the actor is ready. -/
def prospectsWhile (on : Status) (ready : Bool) : List BrainNode → List Prospect
  | [] => [⟨on, 0⟩]
  | c :: cs => (prospects ready c).flatMap fun p =>
    if p.status = on then
      (prospectsWhile on (ready && p.turns == 0) cs).map fun q => ⟨q.status, p.turns + q.turns⟩
    else [p]

end

end Node

def Brain.prospects (b : Brain) : List Prospect :=
  match b.body with
  | none => [⟨.failure, 0⟩]
  | some n => n.prospects true

/-! ## 2. Payments -/

/-- The energy of an actor as a number. Who is not there has none. -/
def Brain.funds (s : Scene) (id : ActorId) : Nat := (energy? s id).elim 0 (·.toNat)

/-- A later scene of the same evaluation, after the actor in focus has paid for so many turns. As
long as it has paid for none, nothing has happened in the world. -/
structure Scene.Spends (turns : Nat) (s s' : Scene) : Prop where
  inPlay : s'.InPlay
  focus_eq : s'.focus = s.focus
  rules_eq : s'.rules = s.rules
  funds_eq : Brain.funds s' s.focus = Brain.funds s s.focus - turns * s.rules.turnReady.toNat
  world_eq : turns = 0 → s'.world = s.world

variable {s s' s'' : Scene} {m n : Nat}

theorem Scene.Spends.trans (h : s.Spends m s') (h' : s'.Spends n s'') : s.Spends (m + n) s'' where
  inPlay := h'.inPlay
  focus_eq := h'.focus_eq.trans h.focus_eq
  rules_eq := h'.rules_eq.trans h.rules_eq
  funds_eq := by
    have hfunds := h'.funds_eq
    rw [h.focus_eq, h.rules_eq, h.funds_eq] at hfunds
    rw [hfunds, Nat.sub_sub, Nat.add_mul]
  world_eq hnone := by
    rw [h'.world_eq (by omega), h.world_eq (by omega)]

/-- As long as nothing has been paid, the actor is as ready as it was. -/
theorem Scene.Spends.isReady_eq (h : s.Spends n s') (hnone : n = 0) : s'.isReady = s.isReady := by
  rw [isReady, actor?, h.world_eq hnone, h.focus_eq, h.rules_eq]
  rfl

theorem Scene.Spends.isReady_of {ready : Bool} (h : s.Spends n s')
    (hready : ready = true → s.isReady = true) (hnow : (ready && n == 0) = true) :
    s'.isReady = true := by
  rw [Bool.and_eq_true, beq_iff_eq] at hnow
  rw [h.isReady_eq hnow.2, hready hnow.1]

/-- A leaf that does not touch the world costs nothing. -/
theorem Scene.Spends.of_world_eq (hs : s.InPlay) (hfocus : s'.focus = s.focus)
    (hworld : s'.world = s.world) (hrules : s'.rules = s.rules) : s.Spends 0 s' where
  inPlay := by
    refine ⟨hworld ▸ hs.seated, hrules ▸ hs.fair, ?_⟩
    rw [actor?, hworld, hfocus]
    exact hs.present
  focus_eq := hfocus
  rules_eq := hrules
  funds_eq := by
    rw [Brain.funds, Brain.energy?, hworld, Nat.zero_mul]
    rfl
  world_eq _ := hworld

/-- A deed costs the turn that is paid for after it. -/
theorem Deed.spends {acted : Scene} (hs : s.InPlay) (h : Deed s acted) :
    s.Spends 1 acted.finishTurn := by
  have hpaid := h.paysOnce.energy_eq
  have hseated := Scene.seated_finishTurn (h.durable World.seated_durable hs.seated)
  refine ⟨⟨hseated, ?_, ?_⟩, h.focus_eq, h.rules_eq, ?_, ?_⟩
  · show acted.rules.Fair
    rw [h.rules_eq]
    exact hs.fair
  · -- whoever has energy after the payment is still there
    obtain ⟨a, ha⟩ := hs.present
    have ha : s.world.actor? s.focus = some a := ha
    show ∃ b, acted.finishTurn.world.actor? acted.focus = some b
    rw [Brain.energy?, Brain.energy?, ha, Option.map_some, Option.map_some] at hpaid
    obtain ⟨b, hb, -⟩ := Option.map_eq_some_iff.mp hpaid
    exact ⟨b, h.focus_eq ▸ hb⟩
  · rw [Brain.funds, hpaid, Brain.funds, Nat.one_mul]
    cases Brain.energy? s s.focus with
    | none => exact (Nat.zero_sub _).symm
    | some e => exact e.toNat_subClamp s.rules.turnReady
  · intro hnone
    cases hnone

/-- An evaluation that began in `s` has come out in one of the ways that were foreseen. -/
def Scene.Meets (s : Scene) (foreseen : List Prospect) (status : Status) (after : Scene) : Prop :=
  ∃ p ∈ foreseen, p.status = status ∧ s.Spends p.turns after

theorem Scene.Meets.of_free {status : Status} {foreseen : List Prospect} (hs : s.InPlay)
    (hmem : ⟨status, 0⟩ ∈ foreseen) : s.Meets foreseen status s :=
  ⟨_, hmem, rfl, .of_world_eq hs rfl rfl rfl⟩

section Children

variable {on status : Status} {ready : Bool} {c : BrainNode} {cs : List BrainNode} {p : Prospect}

/-- A child has answered `on`, so the next ones have their turn. -/
theorem Scene.Meets.followed (hp : p ∈ c.prospects ready) (hon : p.status = on)
    (hspends : s.Spends p.turns s')
    (hlater : s'.Meets (Node.prospectsWhile on (ready && p.turns == 0) cs) status s'') :
    s.Meets (Node.prospectsWhile on ready (c :: cs)) status s'' := by
  obtain ⟨q, hq, hstatus, hspends'⟩ := hlater
  refine ⟨⟨q.status, p.turns + q.turns⟩, ?_, hstatus, hspends.trans hspends'⟩
  rw [Node.prospectsWhile, List.mem_flatMap]
  refine ⟨p, hp, ?_⟩
  rw [if_pos hon]
  exact List.mem_map_of_mem hq

/-- A child has answered something else, which is the answer for all of them. -/
theorem Scene.Meets.stopped (h : s.Meets (c.prospects ready) status s') (hoff : status ≠ on) :
    s.Meets (Node.prospectsWhile on ready (c :: cs)) status s' := by
  obtain ⟨p, hp, hstatus, hspends⟩ := h
  refine ⟨p, ?_, hstatus, hspends⟩
  rw [Node.prospectsWhile, List.mem_flatMap]
  refine ⟨p, hp, ?_⟩
  rw [if_neg (hstatus ▸ hoff)]
  exact List.mem_singleton_self p

end Children

/-! ## 3. Every turn meets the prospects -/

theorem idle_meets {ready : Bool} (hs : s.InPlay) (hready : ready = true → s.isReady = true) :
    s.Meets (Task.prospects ready .idle) (idle s).1 (idle s).2 := by
  unfold idle
  cases hnow : s.isReady with
  | true => exact ⟨⟨.success, 1⟩, by cases ready <;> decide, rfl, Deed.wait.spends hs⟩
  | false =>
    cases ready with
    | true =>
      rw [hready rfl] at hnow
      cases hnow
    | false => exact ⟨⟨.running, 0⟩, by decide, rfl, .of_world_eq hs rfl rfl rfl⟩

theorem Task.Outcome.meets {t : Task} {status : Status} (ready : Bool) (hs : s.InPlay)
    (hbusy : t ≠ .idle) (h : Task.Outcome t s status s') : s.Meets (t.prospects ready) status s' := by
  cases h with
  | refused =>
    apply Scene.Meets.of_free hs
    cases t <;> first | exact absurd rfl hbusy | simp [prospects]
  | givenUp htask =>
    subst htask
    exact ⟨⟨.failure, 0⟩, by simp [prospects], rfl, .of_world_eq hs rfl rfl rfl⟩
  | waiting htask => exact absurd htask hbusy
  | noted htask =>
    subst htask
    exact ⟨⟨.success, 0⟩, by simp [prospects], rfl, .of_world_eq hs rfl rfl rfl⟩
  | arrived htask =>
    subst htask
    exact ⟨⟨.success, 0⟩, by simp [prospects], rfl, .of_world_eq hs rfl rfl rfl⟩
  | done hfree hdeed =>
    refine ⟨⟨.success, 1⟩, ?_, rfl, hdeed.spends hs⟩
    -- noting a cell is no deed
    cases t with
    | remember => exact absurd trivial hfree
    | idle => exact absurd rfl hbusy
    | _ => simp [prospects]

theorem Task.tick_meets {ready : Bool} (t : Task) (hs : s.InPlay)
    (hready : ready = true → s.isReady = true) :
    ∃ r, t.tick s = .ok r ∧ s.Meets (t.prospects ready) r.status r.context := by
  by_cases hidle : t = .idle
  · subst hidle
    exact ⟨_, rfl, idle_meets hs hready⟩
  · obtain ⟨r, hr, houtcome⟩ := t.tick_outcome hs.seated hs.fair
    exact ⟨r, hr, houtcome.meets ready hs hidle⟩

theorem Sense.spends_test (sense : Sense) (hs : s.InPlay) :
    s.Spends 0 (sense.test s).context := by
  have hact := sense.act_test s
  exact .of_world_eq hs hact.focus_eq (sense.world_test s) hact.touched.rules_eq

/-- A sense answers yes or no. -/
theorem Sense.status_test (sense : Sense) (s : Scene)
    (hno : (sense.test s).status ≠ .success) : (sense.test s).status = .failure := by
  have hstatus : (sense.test s).status = .ofBool (sense.ask s).1 := rfl
  rw [hstatus] at hno ⊢
  cases hanswer : (sense.ask s).1 with
  | true =>
    rw [hanswer] at hno
    exact absurd rfl hno
  | false => rfl

theorem Repeat.status_mem (limit : Repeat) (count : UInt32) :
    limit.status count ∈ limit.statuses := by
  cases limit with
  | forever => exact List.mem_singleton_self _
  | times n =>
    unfold status statuses
    dsimp only
    split <;> decide

namespace Node

/-- Preparing a task does nothing, so it is the same whether it has been visited. -/
theorem run_task (visited : Bool) (t : Task) (s : Scene) :
    (task visited t).run brainRepertoire s =
      (t.tick s).bind fun r ↦ .ok ⟨r.status, task true r.state, r.context⟩ := by
  cases visited <;> rfl

mutual

/-- By induction on the node, with its list of children as a second case of the induction. -/
theorem run_meets : ∀ (n : BrainNode) (ready : Bool) {s : Scene}, s.InPlay →
    (ready = true → s.isReady = true) →
    ∃ r, n.run brainRepertoire s = .ok r ∧ s.Meets (n.prospects ready) r.status r.context
  | sequence _ [], ready, s, hs, hready => by
    rw [prospects]
    exact ⟨_, rfl, .of_free hs (List.mem_singleton_self _)⟩
  | sequence _ (c :: cs), ready, s, hs, hready => by
    obtain ⟨r, hr, hmeets⟩ := runSequence_meets (c :: cs) ready hs hready
    rw [run, hr, prospects]
    exact ⟨_, rfl, hmeets⟩
  | selector _ cs, ready, s, hs, hready => by
    obtain ⟨r, hr, hmeets⟩ := runSelector_meets cs ready hs hready
    rw [run, hr, prospects]
    exact ⟨_, rfl, hmeets⟩
  | condition _ none child, ready, s, hs, hready => by
    rw [run, prospects]
    exact ⟨_, rfl, .of_free hs (List.mem_singleton_self _)⟩
  | condition _ (some sense) none, ready, s, hs, hready => by
    rw [run, prospects]
    refine ⟨_, rfl, ?_⟩
    by_cases hyes : (sense.test s).status = .success
    · exact ⟨⟨.undefined, 0⟩, by decide, (if_pos hyes).symm, sense.spends_test hs⟩
    · refine ⟨⟨.failure, 0⟩, by decide, ?_, sense.spends_test hs⟩
      exact (sense.status_test s hyes).symm.trans (if_neg hyes).symm
  | condition _ (some sense) (some child), ready, s, hs, hready => by
    have hasked := sense.spends_test hs
    rw [run, prospects]
    show ∃ r, (if (sense.test s).status = .success then _ else _) = Except.ok r ∧ _
    by_cases hyes : (sense.test s).status = .success
    · obtain ⟨q, hq, p, hp, hstatus, hspends⟩ := run_meets child ready hasked.inPlay
        fun h ↦ (hasked.isReady_eq rfl).trans (hready h)
      rw [if_pos hyes, hq]
      refine ⟨_, rfl, p, List.mem_cons_of_mem _ hp, hstatus, ?_⟩
      -- asking has cost nothing, so the child's turns are all that has been paid
      have hboth := hasked.trans hspends
      rwa [Nat.zero_add] at hboth
    · rw [if_neg hyes]
      exact ⟨_, rfl, ⟨.failure, 0⟩, List.mem_cons_self, (sense.status_test s hyes).symm, hasked⟩
  | failure _, ready, s, hs, hready => by
    rw [prospects]
    exact ⟨_, rfl, .of_free hs (List.mem_singleton_self _)⟩
  | ignoreFailure _ child, ready, s, hs, hready => by
    obtain ⟨r, hr, p, hp, hstatus, hspends⟩ := run_meets child ready hs hready
    rw [run, hr, prospects]
    refine ⟨_, rfl, _, List.mem_map_of_mem hp, ?_, hspends⟩
    show (if p.status = .failure then _ else _) = _
    rw [hstatus]
  | repeater _ limit count child, ready, s, hs, hready => by
    obtain ⟨r, hr, p, hp, -, hspends⟩ := run_meets child ready hs hready
    rw [run, hr, prospects]
    refine ⟨_, rfl, ⟨limit.status (limit.advance count), p.turns⟩, ?_, rfl, hspends⟩
    exact List.mem_flatMap.mpr ⟨p, hp, List.mem_map_of_mem (limit.status_mem _)⟩
  | task visited t, ready, s, hs, hready => by
    obtain ⟨r, hr, hmeets⟩ := t.tick_meets hs hready
    rw [run_task, hr, prospects]
    exact ⟨_, rfl, hmeets⟩

theorem runSequence_meets : ∀ (cs : List BrainNode) (ready : Bool) {s : Scene}, s.InPlay →
    (ready = true → s.isReady = true) →
    ∃ r, runSequence brainRepertoire cs s = .ok r ∧
      s.Meets (prospectsWhile .success ready cs) r.status r.context
  | [], ready, s, hs, hready => by
    rw [prospectsWhile]
    exact ⟨_, rfl, .of_free hs (List.mem_singleton_self _)⟩
  | c :: cs, ready, s, hs, hready => by
    obtain ⟨r, hr, p, hp, hstatus, hspends⟩ := run_meets c ready hs hready
    rw [runSequence, hr]
    by_cases hon : r.status = .success
    · obtain ⟨q, hq, hlater⟩ := runSequence_meets cs (ready && p.turns == 0) hspends.inPlay
        (hspends.isReady_of hready)
      simp only [bind, Except.bind, hon, ↓reduceIte, hq]
      exact ⟨_, rfl, .followed hp (hstatus.trans hon) hspends hlater⟩
    · simp only [bind, Except.bind, hon, ↓reduceIte]
      exact ⟨_, rfl, .stopped ⟨p, hp, hstatus, hspends⟩ hon⟩

theorem runSelector_meets : ∀ (cs : List BrainNode) (ready : Bool) {s : Scene}, s.InPlay →
    (ready = true → s.isReady = true) →
    ∃ r, runSelector brainRepertoire cs s = .ok r ∧
      s.Meets (prospectsWhile .failure ready cs) r.status r.context
  | [], ready, s, hs, hready => by
    rw [prospectsWhile]
    exact ⟨_, rfl, .of_free hs (List.mem_singleton_self _)⟩
  | c :: cs, ready, s, hs, hready => by
    obtain ⟨r, hr, p, hp, hstatus, hspends⟩ := run_meets c ready hs hready
    rw [runSelector, hr]
    by_cases hon : r.status = .failure
    · obtain ⟨q, hq, hlater⟩ := runSelector_meets cs (ready && p.turns == 0) hspends.inPlay
        (hspends.isReady_of hready)
      simp only [bind, Except.bind, hon, ↓reduceIte, hq]
      exact ⟨_, rfl, .followed hp (hstatus.trans hon) hspends hlater⟩
    · simp only [bind, Except.bind, hon, ↓reduceIte]
      exact ⟨_, rfl, .stopped ⟨p, hp, hstatus, hspends⟩ hon⟩

end

end Node

/-! ## 4. Whole turns -/

namespace Brain

theorem run_meets (b : Brain) (hs : s.InPlay) (hready : s.isReady = true) :
    ∃ r, b.run brainRepertoire s = .ok r ∧ s.Meets b.prospects r.status r.context := by
  obtain ⟨body⟩ := b
  cases body with
  | none => exact ⟨_, rfl, .of_free hs (List.mem_singleton_self _)⟩
  | some n =>
    obtain ⟨r, hr, hmeets⟩ := n.run_meets true hs fun _ ↦ hready
    simp only [Tree.run, hr]
    exact ⟨_, rfl, hmeets⟩

theorem funds_of_actor {a : Actor} (ha : s.actor? = some a) :
    funds s s.focus = a.energy.toNat := by
  have ha : s.world.actor? s.focus = some a := ha
  rw [funds, energy?, ha]
  rfl

/-- Whoever is ready can pay for a turn. -/
theorem turnReady_le_funds (hready : s.isReady = true) :
    s.rules.turnReady.toNat ≤ funds s s.focus := by
  obtain ⟨a, ha, hcan⟩ := (Option.any_eq_true _ _).mp hready
  rw [Actor.canAct, Bool.and_eq_true, decide_eq_true_eq] at hcan
  rw [funds_of_actor ha]
  exact UInt32.le_iff_toNat_le.mp hcan.2

/-- A turn is paid for at the end exactly if the evaluation has left the energy as it was. -/
theorem act_eq {b : Brain} {r : Step Brain Scene} (hs : s.InPlay)
    (hr : b.run brainRepertoire s = .ok r) (hplay : r.context.InPlay)
    (hfocus : r.context.focus = s.focus) :
    b.act s = .ok ⟨r.status,
      if r.status = .failure then r.state.reset brainRepertoire else r.state,
      if funds r.context s.focus = funds s s.focus then r.context.finishTurn else r.context⟩ := by
  obtain ⟨a, ha⟩ := hs.present
  obtain ⟨c, hc⟩ := hplay.present
  have hbefore : energy? s s.focus = some a.energy := by
    rw [energy?, show s.world.actor? s.focus = some a from ha, Option.map_some]
  have hspent : (r.context.actor?.all fun d ↦ some d.energy != energy? s s.focus) = true ↔
      funds r.context s.focus ≠ funds s s.focus := by
    rw [hc, hbefore, funds_of_actor ha, ← hfocus, funds_of_actor hc]
    simp [UInt32.toNat_inj]
  simp only [act, hr, bind, Except.bind, pure, Except.pure, hspent, ne_eq, ite_not]

/-- A turn costs what was paid in the course of the evaluation, but never less than one turn. -/
theorem act_of_spends {b : Brain} {r : Step Brain Scene} {turns : Nat} (hs : s.InPlay)
    (hready : s.isReady = true) (hr : b.run brainRepertoire s = .ok r)
    (hspends : s.Spends turns r.context) :
    ∃ after, b.act s = .ok ⟨r.status,
        if r.status = .failure then r.state.reset brainRepertoire else r.state, after⟩ ∧
      s.Spends (max 1 turns) after := by
  refine ⟨_, act_eq hs hr hspends.inPlay hspends.focus_eq, ?_⟩
  have hfunds := hspends.funds_eq
  have hprice := turnReady_le_funds hready
  by_cases hsame : funds r.context s.focus = funds s s.focus
  · rw [if_pos hsame]
    have hpaid := hspends.trans (Deed.wait.spends hspends.inPlay)
    refine ⟨hpaid.inPlay, hpaid.focus_eq, hpaid.rules_eq, ?_, by omega⟩
    rw [hpaid.funds_eq]
    by_cases hnone : turns = 0
    · rw [hnone]
      rfl
    · -- turns have been paid and the energy is the same, so turns are for free
      have hcost := Nat.le_mul_of_pos_left s.rules.turnReady.toNat (Nat.pos_of_ne_zero hnone)
      have hfree : s.rules.turnReady.toNat = 0 := by omega
      rw [hfree, Nat.mul_zero, Nat.mul_zero]
  · rw [if_neg hsame]
    have hsome : turns ≠ 0 := by
      intro hnone
      rw [hnone, Nat.zero_mul] at hfunds
      exact hsame hfunds
    rwa [Nat.max_eq_right (by omega)]

/-- A turn comes to one of the prospects of the brain. -/
theorem act_spends (b : Brain) (hs : s.InPlay) (hready : s.isReady = true) :
    ∃ r after, b.run brainRepertoire s = .ok r ∧
      b.act s = .ok ⟨r.status,
        if r.status = .failure then r.state.reset brainRepertoire else r.state, after⟩ ∧
      ∃ p ∈ b.prospects, p.status = r.status ∧ s.Spends (max 1 p.turns) after := by
  obtain ⟨r, hr, p, hp, hstatus, hspends⟩ := b.run_meets hs hready
  obtain ⟨after, hact, hpaid⟩ := act_of_spends hs hready hr hspends
  exact ⟨r, after, hr, hact, p, hp, hstatus, hpaid⟩

theorem update_spends {id : ActorId} (b : Brain) (hworld : s.world.Seated) (hfair : s.rules.Fair)
    (hready : (s.focusOn id).isReady = true) :
    ∃ r after, b.run brainRepertoire (s.focusOn id) = .ok r ∧
      b.update id s = .ok (some r.status,
        if r.status = .failure then r.state.reset brainRepertoire else r.state, after) ∧
      ∃ p ∈ b.prospects, p.status = r.status ∧ (s.focusOn id).Spends (max 1 p.turns) after := by
  obtain ⟨r, after, hr, hact, hmeets⟩ := b.act_spends (inPlay_of_isReady hworld hfair hready) hready
  exact ⟨r, after, hr, update_of_isReady hready hact, hmeets⟩

end Brain

end Delve

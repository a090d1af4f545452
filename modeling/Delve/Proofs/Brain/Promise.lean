import Delve.Brain.Temper
import Delve.Proofs.Brain.Origin
/-!
# What a tree promises

What becomes of a tree from update to update differs from the tree as it was built in nothing but
notes: what has been visited, how far a count has come, what a task has kept. A tree promises what
it comes to whatever these notes are. There is a rule for each kind of node, so that the promise of
a brain is put together from what its tasks do, and an update keeps the promise of the brain that
it was built as.
-/

namespace Delve

variable {s s' : Scene} {t now : Task} {built c n : BrainNode} {cs ds : List BrainNode}
  {P Q : Status → Scene → Prop}

/-- Tasks that keep nothing stay as they were built. -/
theorem Task.eq_of_renew_eq (hchase : ∀ c, t ≠ .chase c) (hattack : ∀ last, t ≠ .attack last)
    (h : now.renew = t.renew) : now = t := by
  cases t with
  | chase c => exact absurd rfl (hchase c)
  | attack last => exact absurd rfl (hattack last)
  | _ =>
    cases now with
    | chase | attack => cases h
    | _ => exact h

/-- A failure that leaves the scene as it was, or no failure, and what `Q` says. -/
def Scene.RefusedOr (s : Scene) (Q : Status → Scene → Prop) (status : Status) (s' : Scene) :
    Prop :=
  status = .failure ∧ s' = s ∨ status ≠ .failure ∧ Q status s'

namespace Node

/-! ## 1. What has become of a node -/

/-- The second node is the first one but for what is kept from turn to turn. -/
def BuiltAs (built n : BrainNode) : Prop :=
  n.reset originalRepertoire = built.reset originalRepertoire

/-- The children of the second list are those of the first one but for what is kept. -/
def AllBuiltAs (cs ds : List BrainNode) : Prop :=
  resetAll originalRepertoire ds = resetAll originalRepertoire cs

theorem BuiltAs.task (h : BuiltAs (leaf t) n) :
    ∃ visited now, n = .task visited now ∧ now.renew = t.renew := by
  unfold BuiltAs leaf at h
  cases n with
  | task visited now =>
    rw [reset, reset] at h
    exact ⟨visited, now, rfl, (Node.task.inj h).2⟩
  | condition _ _ child => cases child <;> cases h
  | _ => cases h

theorem BuiltAs.selector (h : BuiltAs (sel cs) n) :
    ∃ visited ds, n = .selector visited ds ∧ AllBuiltAs cs ds := by
  unfold BuiltAs sel at h
  cases n with
  | selector visited ds =>
    rw [reset, reset] at h
    exact ⟨visited, ds, rfl, (Node.selector.inj h).2⟩
  | condition _ _ child => cases child <;> cases h
  | _ => cases h

theorem BuiltAs.sequence (h : BuiltAs (seq cs) n) :
    ∃ visited ds, n = .sequence visited ds ∧ AllBuiltAs cs ds := by
  unfold BuiltAs seq at h
  cases n with
  | sequence visited ds =>
    rw [reset, reset] at h
    exact ⟨visited, ds, rfl, (Node.sequence.inj h).2⟩
  | condition _ _ child => cases child <;> cases h
  | _ => cases h

theorem BuiltAs.gate {sense : Sense} (h : BuiltAs (gate sense c) n) :
    ∃ visited d, n = .condition visited (some sense) (some d) ∧ BuiltAs c d := by
  unfold BuiltAs Node.gate at h
  cases n with
  | condition visited asked child =>
    cases child with
    | none => cases h
    | some d =>
      rw [reset, reset] at h
      obtain ⟨-, rfl, hchild⟩ := Node.condition.inj h
      exact ⟨visited, d, rfl, Option.some.inj hchild⟩
  | _ => cases h

theorem AllBuiltAs.cons (h : AllBuiltAs (c :: cs) ds) :
    ∃ d ds', ds = d :: ds' ∧ BuiltAs c d ∧ AllBuiltAs cs ds' := by
  cases ds with
  | nil => cases h
  | cons d ds =>
    unfold AllBuiltAs at h
    rw [resetAll, resetAll] at h
    exact ⟨d, ds, rfl, (List.cons.inj h).1, (List.cons.inj h).2⟩

theorem AllBuiltAs.nil (h : AllBuiltAs [] ds) : ds = [] := by
  cases ds with
  | nil => rfl
  | cons => cases h

/-! ## 2. Promises -/

/-- Whatever the node has kept since it was built, its evaluation comes to an end, and to what `Q`
says. -/
def Promises (built : BrainNode) (s : Scene) (Q : Status → Scene → Prop) : Prop :=
  ∀ n, BuiltAs built n → ∃ r, n.run brainRepertoire s = .ok r ∧ Q r.status r.context

theorem Promises.mono (h : built.Promises s P) (hQ : ∀ status s', P status s' → Q status s') :
    built.Promises s Q := by
  intro n hn
  obtain ⟨r, hr, hP⟩ := h n hn
  exact ⟨r, hr, hQ _ _ hP⟩

theorem Promises.refusedOr (h : built.Promises s Q) (hQ : ∀ s', ¬ Q .failure s') :
    built.Promises s (s.RefusedOr Q) := by
  refine h.mono fun status s' hs' ↦ Or.inr ⟨?_, hs'⟩
  rintro rfl
  exact hQ s' hs'

theorem promises_leaf
    (h : ∀ now : Task, now.renew = t.renew → ∃ r, now.tick s = .ok r ∧ Q r.status r.context) :
    (leaf t).Promises s Q := by
  intro n hn
  obtain ⟨visited, now, rfl, hnow⟩ := hn.task
  obtain ⟨r, hr, hQ⟩ := h now hnow
  rw [run_task, hr]
  exact ⟨_, rfl, hQ⟩

/-- A task that keeps nothing does the same in every turn. -/
theorem promises_leaf_of_tick {r : Step Task Scene} (hchase : ∀ c, t ≠ .chase c)
    (hattack : ∀ last, t ≠ .attack last) (hr : t.tick s = .ok r) (hQ : Q r.status r.context) :
    (leaf t).Promises s Q := by
  refine promises_leaf fun now hnow ↦ ?_
  obtain rfl := Task.eq_of_renew_eq hchase hattack hnow
  exact ⟨r, hr, hQ⟩

theorem promises_gate {sense : Sense} {answer : Bool} (hask : sense.ask s = (answer, s'))
    (hyes : answer = true → c.Promises s' Q) (hno : answer = false → Q .failure s') :
    (gate sense c).Promises s Q := by
  intro n hn
  obtain ⟨visited, d, rfl, hd⟩ := hn.gate
  have htest : brainRepertoire.test sense s = .ok ⟨.ofBool answer, sense, s'⟩ := by
    show Except.ok (sense.test s) = _
    rw [Sense.test, hask]
  rw [run, htest]
  cases answer with
  | true =>
    obtain ⟨r, hr, hQ⟩ := hyes rfl d hd
    simp only [bind, Except.bind, Status.ofBool, ↓reduceIte, hr]
    exact ⟨_, rfl, hQ⟩
  | false => exact ⟨_, rfl, hno rfl⟩

/-- A gate refuses, whether the sense says no or the child refuses, or the child does what it
promises. -/
theorem promises_gate_refusedOr {sense : Sense} (hask : (sense.ask s).2 = s)
    (h : c.Promises s (s.RefusedOr Q)) : (gate sense c).Promises s (s.RefusedOr Q) := by
  rcases hanswer : sense.ask s with ⟨answer, s'⟩
  rw [hanswer] at hask
  obtain rfl : s' = s := hask
  exact promises_gate hanswer (fun _ ↦ h) fun _ ↦ Or.inl ⟨rfl, rfl⟩

/-- What comes after the first child of a selector is evaluated where that has failed. -/
theorem promises_sel (hfirst : c.Promises s P)
    (hlater : ∀ s', P .failure s' → (sel cs).Promises s' Q)
    (hstop : ∀ status s', status ≠ .failure → P status s' → Q status s') :
    (sel (c :: cs)).Promises s Q := by
  intro n hn
  obtain ⟨visited, _, rfl, hchildren⟩ := hn.selector
  obtain ⟨d, ds, rfl, hd, hds⟩ := hchildren.cons
  obtain ⟨r, hr, hP⟩ := hfirst d hd
  rw [run]
  by_cases hoff : r.status = .failure
  · -- the children that are left are what has become of a selector of their own
    have hrest : BuiltAs (sel cs) (.selector false ds) := by
      rw [BuiltAs, sel, reset, reset, hds]
    obtain ⟨q, hq, hQ⟩ := hlater _ (hoff ▸ hP) _ hrest
    obtain ⟨p, hp, heq⟩ := bind_eq_ok.mp hq
    cases heq
    rw [runSelector_of_failure hr hoff, hp]
    exact ⟨_, rfl, hQ⟩
  · rw [runSelector_of_ne_failure hr hoff]
    exact ⟨_, rfl, hstop _ _ hoff hP⟩

theorem promises_sel_nil (h : Q .failure s) : (sel []).Promises s Q := by
  intro n hn
  obtain ⟨visited, _, rfl, hchildren⟩ := hn.selector
  obtain rfl := hchildren.nil
  exact ⟨_, rfl, h⟩

theorem promises_sel_singleton (h : c.Promises s Q) : (sel [c]).Promises s Q :=
  promises_sel h (fun _ ↦ promises_sel_nil) fun _ _ _ ↦ id

/-- A child that does not fail leaves nothing to the others. -/
theorem promises_sel_of_settled (hfirst : c.Promises s Q) (hQ : ∀ s', ¬ Q .failure s') :
    (sel (c :: cs)).Promises s Q :=
  promises_sel hfirst (fun s' hfailure ↦ absurd hfailure (hQ s')) fun _ _ _ ↦ id

/-- A child that refuses leaves everything to the others. -/
theorem promises_sel_of_refusedOr (hfirst : c.Promises s (s.RefusedOr Q))
    (hlater : (sel cs).Promises s Q) : (sel (c :: cs)).Promises s Q := by
  refine promises_sel hfirst ?_ ?_
  · rintro s' (⟨-, rfl⟩ | ⟨hne, -⟩)
    · exact hlater
    · exact absurd rfl hne
  · rintro status s' hne (⟨hfailure, -⟩ | ⟨-, hQ⟩)
    · exact absurd hfailure hne
    · exact hQ

/-- The second child of a sequence is evaluated where the first one has succeeded. -/
theorem promises_seq {d : BrainNode} (hfirst : c.Promises s P)
    (hlater : ∀ s', P .success s' → d.Promises s' Q)
    (hstop : ∀ status s', status ≠ .success → P status s' → Q status s') :
    (seq [c, d]).Promises s Q := by
  intro n hn
  obtain ⟨visited, _, rfl, hchildren⟩ := hn.sequence
  obtain ⟨c', _, rfl, hc, hchildren⟩ := hchildren.cons
  obtain ⟨d', _, rfl, hd, hchildren⟩ := hchildren.cons
  obtain rfl := hchildren.nil
  obtain ⟨r, hr, hP⟩ := hfirst c' hc
  rw [run]
  by_cases hon : r.status = .success
  · obtain ⟨q, hq, hQ⟩ := hlater _ (hon ▸ hP) d' hd
    rw [runSequence_of_success hr hon]
    -- there is nothing after the second child, so its status is the answer either way
    by_cases hdone : q.status = .success
    · rw [runSequence_of_success hq hdone]
      rw [hdone] at hQ
      exact ⟨_, rfl, hQ⟩
    · rw [runSequence_of_ne_success hq hdone]
      exact ⟨_, rfl, hQ⟩
  · rw [runSequence_of_ne_success hr hon]
    exact ⟨_, rfl, hstop _ _ hon hP⟩

end Node

/-! ## 3. Updates -/

namespace Brain

variable {b : Brain} {id : ActorId} {a : Actor}

theorem builtAs_of_becomes (h : (Brain.of built).Becomes b) :
    ∃ n, b.body = some n ∧ Node.BuiltAs built n := by
  obtain ⟨body⟩ := b
  have hreset := congrArg Tree.body (reset_of_becomes h)
  obtain ⟨n, hn, hbuilt⟩ := Option.map_eq_some_iff.mp hreset
  exact ⟨n, hn, hbuilt⟩

end Brain

/-- Where a turn costs nothing, paying for it changes nothing. -/
theorem Scene.finishTurn_eq_self {a : Actor} (ha : s.actor? = some a)
    (hfree : a.energy.subClamp s.rules.turnReady = a.energy) : s.finishTurn = s := by
  have ha : s.world.actor? s.focus = some a := ha
  have hsame : a.finishTurn s.rules.turnReady = a := by
    rw [Actor.finishTurn, hfree]
  rw [finishTurn, modifyActor, World.modifyActor_of_some ha, hsame,
    insert_of_getElem?_eq_some ha]

namespace Brain

variable {b : Brain} {id : ActorId} {a : Actor}

/-- An evaluation in which the turn has been paid for leaves nothing to be paid. -/
theorem act_of_paysOnce {r : Step Brain Scene} (ha : s.actor? = some a)
    (hr : b.run brainRepertoire s = .ok r) (hpaid : s.PaysOnce r.context) :
    b.act s = .ok ⟨r.status,
      if r.status = .failure then r.state.reset brainRepertoire else r.state, r.context⟩ := by
  have ha : s.world.actor? s.focus = some a := ha
  have hbefore : energy? s s.focus = some a.energy := by
    rw [energy?, ha, Option.map_some]
  have hafter := hpaid.energy_eq
  obtain ⟨acted, hfocus, hrules, -, hcontext⟩ := hpaid
  have hfocus : r.context.focus = s.focus := by
    rw [hcontext]
    exact hfocus
  have hrules : r.context.rules = s.rules := by
    rw [hcontext]
    exact hrules
  rw [hbefore, Option.map_some, ← hfocus] at hafter
  obtain ⟨c, hc, henergy⟩ := Option.map_eq_some_iff.mp hafter
  have hc : r.context.actor? = some c := hc
  simp only [act, hr, bind, Except.bind, pure, Except.pure, hc, hbefore, Option.all_some,
    bne_iff_ne, ne_eq, Option.some.injEq, ite_not]
  by_cases hsame : c.energy = a.energy
  · -- the turn has been paid for and nothing is gone, so a second payment takes nothing either
    rw [if_pos hsame, Scene.finishTurn_eq_self hc]
    rw [hrules, hsame, ← henergy, hsame]
  · rw [if_neg hsame]

/-- An update keeps the promise of the brain as it was built, if the promise is one that pays for
the turn. -/
theorem update_of_promises (hbrain : (Brain.of built).Becomes b)
    (ha : s.world.actor? id = some a) (hready : a.canAct s.rules.turnReady = true)
    (h : built.Promises (s.focusOn id) Q)
    (hpaid : ∀ status s', Q status s' → (s.focusOn id).PaysOnce s') :
    ∃ status b' s', b.update id s = .ok (some status, b', s') ∧ Q status s' := by
  obtain ⟨n, hn, hbuilt⟩ := builtAs_of_becomes hbrain
  obtain ⟨r, hr, hQ⟩ := h n hbuilt
  have hrun : b.run brainRepertoire (s.focusOn id) = .ok ⟨r.status, ⟨some r.state⟩, r.context⟩ := by
    rw [Tree.run, hn]
    simp only [hr]
    rfl
  have hfocus : (s.focusOn id).actor? = some a := ha
  have hnow : (s.focusOn id).isReady = true := by
    rw [Scene.isReady, hfocus]
    exact hready
  have hact := act_of_paysOnce hfocus hrun (hpaid _ _ hQ)
  exact ⟨_, _, _, update_of_isReady hnow hact, hQ⟩

end Brain

end Delve

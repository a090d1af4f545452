import Delve.Proofs.Brain.Frame
/-!
# What the turns of an actor keep

A turn of an actor is an evaluation of its brain with the actor in focus, and a payment. What no
tick of the actor breaks, no roll of a die and no payment, its turns do not break either, however
many it takes and whether or not they cost anything. So the turns of an actor touch only what is its
own and the health of the player, in any world in which every actor is housed.
-/

namespace Delve

variable {id : ActorId} {P : Scene → Prop} {E : Fault → Prop} {s : Scene}

/-! ## 1. Laws of an actor -/

/-- Whatever the actor `id` does while it is in focus, what `P` says of the scene stays true, or the
calculation stops at a fault with `E`. -/
structure ActorLaw (id : ActorId) (P : Scene → Prop) (E : Fault → Prop) : Prop where
  focus_eq : ∀ {s : Scene}, P s → s.focus = id
  tick : ∀ (t : Task) {s : Scene}, P s → (t.tick s).ComesTo (fun r ↦ P r.context) E
  test : ∀ (sense : Sense) {s : Scene}, P s → P (sense.test s).context
  pay : ∀ {s : Scene}, P s → P s.finishTurn

theorem ActorLaw.focusOn_eq (h : ActorLaw id P E) (hs : P s) : s.focusOn id = s := by
  rw [← h.focus_eq hs]
  rfl

theorem ActorLaw.maintains (h : ActorLaw id P E) : brainRepertoire.Maintains P E where
  setup _ _ hs := hs
  tick t _ hs := h.tick t hs
  test sense _ hs := h.test sense hs

namespace Brain

theorem update_conduct (h : ActorLaw id P E) (b : Brain) (hs : P (s.focusOn id)) :
    (b.update id s).ComesTo (fun r ↦ P r.2.2) E := by
  have hact : (b.act (s.focusOn id)).ComesTo (fun r ↦ P r.context) E := by
    refine (b.run_maintains h.maintains hs).bind fun r hr ↦ ?_
    -- a turn that has not been paid for by the end of the evaluation is paid for now
    show P (if _ then r.context else r.context.finishTurn)
    split
    · exact hr
    · exact h.pay hr
  unfold update
  dsimp only
  split
  · exact hact.bind fun _ hr ↦ hr
  · exact hs

/-- By induction on the energy, which is why no law has to speak of it. -/
theorem takeTurns_conduct (h : ActorLaw id P E) (b : Brain) (hs : P (s.focusOn id)) :
    (b.takeTurns id s).ComesTo (fun r ↦ P r.2.2) E := by
  induction hfunds : (energy? s id).elim 0 (·.toNat) using Nat.strong_induction_on
    generalizing b s with
  | _ n ih =>
    subst hfunds
    have hupdate := b.update_conduct h hs
    rw [takeTurns]
    cases hturn : b.update id s with
    | error e =>
      rw [hturn] at hupdate
      exact hupdate
    | ok turn =>
      rw [hturn] at hupdate
      obtain ⟨status, b', after⟩ := turn
      cases status with
      | none => exact hupdate
      | some status =>
        dsimp only
        split
        · rename_i hless
          -- the actor is still in focus, as the next update wants it
          have hafter : P (after.focusOn id) := (h.focusOn_eq hupdate).symm ▸ hupdate
          have hlater := ih _ hless b' hafter rfl
          cases htake : b'.takeTurns id after with
          | error e =>
            rw [htake] at hlater
            exact hlater
          | ok turns =>
            rw [htake] at hlater
            exact hlater
        · exact hupdate

end Brain

/-! ## 2. The reach of an actor -/

/-- A scene later on, after doings of the actor `id` in focus. -/
structure Scene.LedBy (id : ActorId) (s s' : Scene) : Prop where
  focus_eq : s'.focus = id
  touched : s.TouchedBy id s'
  housed : s'.world.Housed
  knowsPlayer : s'.world.KnowsPlayer

theorem Scene.LedBy.start (hworld : s.world.Housed) (hplayer : s.world.KnowsPlayer) :
    s.LedBy id (s.focusOn id) :=
  ⟨rfl, s.touchedBy_focusOn id id, hworld, hplayer⟩

theorem Scene.LedBy.act {now after : Scene} (h : s.LedBy id now) (hact : now.Act after)
    (hworld : after.world.Housed) : s.LedBy id after where
  focus_eq := hact.focus_eq.trans h.focus_eq
  touched := h.touched.trans (h.focus_eq ▸ hact.touched)
  housed := hworld
  knowsPlayer := hact.touched.world.knowsPlayer h.knowsPlayer

/-- Where the actor has led a scene, a tick comes to its outcome, or the rules are crossed. -/
theorem Scene.LedBy.tick {now : Scene} (h : s.LedBy id now) (t : Task) :
    (t.tick now).ComesTo
      (fun r ↦ Task.Outcome t now r.status r.context ∧ s.LedBy id r.context)
      fun _ ↦ s.rules.Crossed := by
  refine (t.tick_comesTo h.housed.inside).mono (fun r houtcome ↦ ⟨houtcome, ?_⟩) fun _ hcrossed ↦ ?_
  · exact h.act (houtcome.act h.knowsPlayer) (houtcome.durable World.housed_durable h.housed)
  · exact h.touched.rules_eq ▸ hcrossed

theorem ledBy_law (id : ActorId) (s : Scene) :
    ActorLaw id (s.LedBy id) fun _ ↦ s.rules.Crossed where
  focus_eq h := h.focus_eq
  tick t _ h := (h.tick t).mono (fun _ hafter ↦ hafter.2) fun _ hcrossed ↦ hcrossed
  test sense now h := h.act (sense.act_test now) (sense.world_test now ▸ h.housed)
  pay {now} h := h.act (Scene.Act.refl now).finishTurn
    (World.housed_durable.modifyActor h.housed fun _ _ ↦ rfl)

end Delve

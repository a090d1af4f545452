import Delve.Proofs.Brain.Frame
/-!
# The journal of a brain

Between two turns of an actor lie the ticks of its tasks. `Brain.ticks` lists those of an update,
`Brain.ticksOfTurns` those of a row of turns. A law is a statement about a scene and the journal so
far; if no leaf breaks it, no evaluation does, and if paying does not break it either, no turn does.
-/

namespace Delve

variable {P : Scene → List (Tick Task Scene) → Prop} {E : Fault → Prop} {s : Scene}
  {log : List (Tick Task Scene)}

/-! ## 1. Laws -/

/-- Whatever a leaf does, what `P` says of the scene and the journal stays true, or the calculation
stops at a fault with `E`. -/
structure LeafLaw (P : Scene → List (Tick Task Scene) → Prop) (E : Fault → Prop) : Prop where
  tick : ∀ (t : Task) {s : Scene} {log : List (Tick Task Scene)}, P s log →
    (t.tick s).ComesTo (fun r ↦ P r.context (log ++ [⟨t, s, r.status, r.context⟩])) E
  test : ∀ (sense : Sense) {s : Scene} {log : List (Tick Task Scene)}, P s log →
    P (sense.test s).context log

/-- The same for everything that happens in the course of a turn. -/
structure TurnLaw (P : Scene → List (Tick Task Scene) → Prop) (E : Fault → Prop) : Prop
    extends LeafLaw P E where
  focusOn : ∀ (id : ActorId) {s : Scene} {log : List (Tick Task Scene)}, P s log →
    P (s.focusOn id) log
  pay : ∀ {s : Scene} {log : List (Tick Task Scene)}, P s log → P s.finishTurn log

theorem LeafLaw.maintains (h : LeafLaw P E) (log : List (Tick Task Scene)) :
    brainRepertoire.journaling.Maintains (fun g ↦ P g.1 (log ++ g.2)) E where
  setup _ _ hg := hg
  tick t g hg := by
    refine (h.tick t hg).bind fun r hr ↦ ?_
    rwa [List.append_assoc] at hr
  test sense g hg := h.test sense hg

namespace Brain

/-! ## 2. Evaluations -/

/-- The journal of an evaluation that comes to an end. -/
def ticksOfRun (b : Brain) (s : Scene) : List (Tick Task Scene) :=
  match b.run brainRepertoire.journaling (s, []) with
  | .ok r => r.context.2
  | .error _ => []

theorem run_law (h : LeafLaw P E) (b : Brain) (hs : P s log) :
    (b.run brainRepertoire s).ComesTo (fun r ↦ P r.context (log ++ b.ticksOfRun s)) E := by
  have hs : P s (log ++ []) := (List.append_nil log).symm ▸ hs
  have hrun := b.run_maintains (g := (s, [])) (h.maintains log) hs
  -- the journal is kept beside the evaluation, which is the same without it
  rw [← b.run_shadows (Repertoire.journaling_shadows brainRepertoire) (s, []), ticksOfRun]
  revert hrun
  cases b.run brainRepertoire.journaling (s, []) with
  | error e => exact id
  | ok r => exact id

/-! ## 3. Turns -/

/-- The ticks of an update. -/
def ticks (id : ActorId) (b : Brain) (s : Scene) : List (Tick Task Scene) :=
  if (s.focusOn id).isReady then b.ticksOfRun (s.focusOn id) else []

theorem act_law (h : TurnLaw P E) (b : Brain) (hs : P s log) :
    (b.act s).ComesTo (fun r ↦ P r.context (log ++ b.ticksOfRun s)) E := by
  refine (run_law h.toLeafLaw b hs).bind fun r hr ↦ ?_
  show P (if _ then r.context else r.context.finishTurn) _
  split
  · exact hr
  · exact h.pay hr

theorem update_law (h : TurnLaw P E) (id : ActorId) (b : Brain) (hs : P s log) :
    (b.update id s).ComesTo (fun r ↦ P r.2.2 (log ++ b.ticks id s)) E := by
  unfold update ticks
  dsimp only
  split
  · exact (act_law h b (h.focusOn id hs)).bind fun _ hr ↦ hr
  · rw [List.append_nil]
    exact h.focusOn id hs

/-- The ticks of the turns that an actor takes as long as they cost energy. -/
def ticksOfTurns (id : ActorId) (b : Brain) (s : Scene) : List (Tick Task Scene) :=
  match update id b s with
  | .ok (some _, b', after) =>
    if (energy? after id).elim 0 (·.toNat) < (energy? s id).elim 0 (·.toNat) then
      ticks id b s ++ ticksOfTurns id b' after
    else ticks id b s
  | _ => ticks id b s
termination_by (energy? s id).elim 0 (·.toNat)

/-- By induction on the energy, which is why no law has to speak of it. -/
theorem takeTurns_law (h : TurnLaw P E) (id : ActorId) (b : Brain) (hs : P s log) :
    (b.takeTurns id s).ComesTo (fun r ↦ P r.2.2 (log ++ b.ticksOfTurns id s)) E := by
  induction hfunds : (energy? s id).elim 0 (·.toNat) using Nat.strong_induction_on
    generalizing b s log with
  | _ n ih =>
    subst hfunds
    have hupdate := update_law h id b hs
    rw [takeTurns, ticksOfTurns]
    cases hturn : b.update id s with
    | error e =>
      rw [hturn] at hupdate
      exact hupdate
    | ok turn =>
      rw [hturn] at hupdate
      obtain ⟨status, b', after⟩ := turn
      cases status with
      | none => exact hupdate
      | some status =>
        dsimp only
        split
        · rename_i hless
          have hlater := ih _ hless b' hupdate rfl
          rw [List.append_assoc] at hlater
          cases htake : b'.takeTurns id after with
          | error e =>
            rw [htake] at hlater
            exact hlater
          | ok turns =>
            rw [htake] at hlater
            exact hlater
        · exact hupdate

end Brain

end Delve

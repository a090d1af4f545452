import Delve.Proofs.Brain.Journal
import Delve.Proofs.Game.Round
/-!
# Commands

A game is driven from outside by a handful of commands. `Game.performAll` carries a row of them out,
and `Game.ticksOfAll` is the journal of all that the brains do meanwhile. A law that nothing in a
turn breaks, no gain of energy and nobody who leaves, holds of whole games: whatever the brains,
whether or not turns cost anything, and from any world.
-/

namespace Delve

variable {P : Scene → List (Tick Task Scene) → Prop} {E : Fault → Prop}
  {log : List (Tick Task Scene)}

/-- What `P` says of the scene and the journal stays true in whatever happens in a game, or the
calculation stops at a fault with `E`. -/
structure GameLaw (P : Scene → List (Tick Task Scene) → Prop) (E : Fault → Prop) : Prop
    extends TurnLaw P E where
  gain : ∀ (id : ActorId) {s : Scene} {log : List (Tick Task Scene)}, P s log →
    P { s with world := s.world.modifyActor id (·.gainEnergy s.rules.turnTick) } log
  vacate : ∀ {id : ActorId} {a : Actor} {s : Scene} {log : List (Tick Task Scene)},
    s.world.actor? id = some a → P s log → P { s with world := s.world.vacate id a } log
  forgetActor : ∀ (id : ActorId) {s : Scene} {log : List (Tick Task Scene)}, P s log →
    P { s with memory := s.memory.forgetActor id } log

namespace Game

variable {g : Game}

/-! ## 1. Rounds -/

theorem removeActor_law (h : GameLaw P E) (id : ActorId) (hg : P g.scene log) :
    P (g.removeActor id).2.scene log := by
  have hscene : (g.removeActor id).2.scene =
      { g.scene with
        world := (g.scene.world.actor? id).elim g.scene.world (g.scene.world.vacate id)
        memory := g.scene.memory.forgetActor id } := by
    rw [← removeActor_world]
    rfl
  rw [hscene]
  cases ha : g.scene.world.actor? id with
  | none => exact h.forgetActor id hg
  | some a => exact h.forgetActor id (h.vacate ha hg)

/-- By induction on the actors that have yet to gain. -/
theorem foldl_gain_law (h : GameLaw P E) (ids : List ActorId) {s : Scene} (hs : P s log) :
    P { s with world :=
      ids.foldl (fun w id ↦ w.modifyActor id (·.gainEnergy s.rules.turnTick)) s.world } log := by
  induction ids generalizing s with
  | nil => exact hs
  | cons id ids ih => exact ih (h.gain id hs)

theorem opened_law (h : GameLaw P E) (hg : P g.scene log) : P g.opened.scene log :=
  foldl_gain_law h g.brainIds hg

/-- The ticks of an actor whose turn has come. -/
def ticksFor (g : Game) (id : ActorId) : List (Tick Task Scene) :=
  if (g.scene.world.actor? id).any (·.isAlive) then
    match g.brain? id with
    | none => []
    | some brain => brain.ticksOfTurns id g.scene
  else []

theorem actFor_law (h : GameLaw P E) (id : ActorId) (hg : P g.scene log) :
    (g.actFor id).ComesTo (fun r ↦ P r.2.scene (log ++ g.ticksFor id)) E := by
  unfold actFor ticksFor
  split
  · cases g.brain? id with
    | none =>
      rw [List.append_nil]
      exact hg
    | some brain => exact (Brain.takeTurns_law h.toTurnLaw id brain hg).bind fun _ hs ↦ hs
  · rw [List.append_nil]
    exact removeActor_law h id hg

def ticksInOrder (g : Game) : List ActorId → List (Tick Task Scene)
  | [] => []
  | id :: ids =>
    g.ticksFor id ++
      match g.actFor id with
      | .error _ => []
      | .ok (_, g) => g.ticksInOrder ids

theorem actInOrder_law (h : GameLaw P E) (ids : List ActorId) (hg : P g.scene log) :
    (g.actInOrder ids).ComesTo (fun r ↦ P r.2.scene (log ++ g.ticksInOrder ids)) E := by
  induction ids generalizing g log with
  | nil =>
    rw [ticksInOrder, List.append_nil]
    exact hg
  | cons id ids ih =>
    have hfirst := actFor_law h id hg
    rw [actInOrder, ticksInOrder]
    cases hact : g.actFor id with
    | error e =>
      rw [hact] at hfirst
      exact hfirst
    | ok first =>
      rw [hact] at hfirst
      have hlater := ih hfirst
      rw [List.append_assoc] at hlater
      exact hlater.bind fun _ hs ↦ hs

/-- The ticks of a round. -/
def ticksOfRound (g : Game) : List (Tick Task Scene) := g.opened.ticksInOrder g.brainIds

theorem round_law (h : GameLaw P E) (hg : P g.scene log) :
    g.round.ComesTo (fun r ↦ P r.2.scene (log ++ g.ticksOfRound)) E :=
  actInOrder_law h g.brainIds (opened_law h hg)

/-! ## 2. Commands -/

/-- What can be asked of a game. -/
inductive Command where
  | attach (id : ActorId) (temper : Temper)
  | attachNamed (id : ActorId) (name : String)
  | attachBrain (id : ActorId) (brain : Brain)
  | detach (id : ActorId)
  | update (id : ActorId)
  | round
  | removeActor (id : ActorId)

/-- Carries a command out. One that is refused leaves the game as it is. -/
def perform (g : Game) : Command → Except Fault Game
  | .attach id temper => .ok ((g.attach id temper).toOption.getD g)
  | .attachNamed id name => .ok ((g.attachNamed id name).toOption.getD g)
  | .attachBrain id brain => .ok ((g.attachBrain id brain).toOption.getD g)
  | .detach id => .ok (g.detach id)
  | .update id =>
    match g.update id with
    | .error _ => .ok g
    | .ok turn => turn.map (·.2)
  | .round => g.round.map (·.2)
  | .removeActor id => .ok (g.removeActor id).2

/-- The ticks of a command. -/
def ticksOf (g : Game) : Command → List (Tick Task Scene)
  | .update id =>
    match g.brain? id with
    | none => []
    | some brain => brain.ticks id g.scene
  | .round => g.ticksOfRound
  | .attach _ _ | .attachNamed _ _ | .attachBrain _ _ | .detach _ | .removeActor _ => []

/-- Brains are given and taken without a look at the scene. -/
theorem scene_attachBrain (g : Game) (id : ActorId) (brain : Brain) :
    ((g.attachBrain id brain).toOption.getD g).scene = g.scene := by
  unfold attachBrain
  split <;> rfl

theorem scene_attachNamed (g : Game) (id : ActorId) (name : String) :
    ((g.attachNamed id name).toOption.getD g).scene = g.scene := by
  unfold attachNamed
  split
  · rfl
  · exact scene_attachBrain g id _

theorem update_law (h : GameLaw P E) (id : ActorId) (hg : P g.scene log) :
    (g.perform (.update id)).ComesTo (fun g' ↦ P g'.scene (log ++ g.ticksOf (.update id))) E := by
  cases hb : g.brain? id with
  | none =>
    simp only [perform, ticksOf, Game.update, hb, List.append_nil]
    exact hg
  | some brain =>
    simp only [perform, ticksOf, Game.update, hb]
    exact Except.comesTo_map.mpr
      ((Brain.update_law h.toTurnLaw id brain hg).bind fun _ hs ↦ hs)

theorem perform_law (h : GameLaw P E) (c : Command) (hg : P g.scene log) :
    (g.perform c).ComesTo (fun g' ↦ P g'.scene (log ++ g.ticksOf c)) E := by
  have hsame : P g.scene (log ++ []) := (List.append_nil log).symm ▸ hg
  cases c with
  | attach id temper =>
    show P ((g.attachBrain id _).toOption.getD g).scene _
    rwa [scene_attachBrain]
  | attachNamed id name =>
    show P ((g.attachNamed id name).toOption.getD g).scene _
    rwa [scene_attachNamed]
  | attachBrain id brain =>
    show P ((g.attachBrain id brain).toOption.getD g).scene _
    rwa [scene_attachBrain]
  | detach id => exact hsame
  | update id => exact update_law h id hg
  | round => exact Except.comesTo_map.mpr (round_law h hg)
  | removeActor id =>
    show P (g.removeActor id).2.scene (log ++ [])
    rw [List.append_nil]
    exact removeActor_law h id hg

def performAll (g : Game) : List Command → Except Fault Game
  | [] => .ok g
  | c :: cs => do
    let g ← g.perform c
    g.performAll cs

/-- The journal of a row of commands. -/
def ticksOfAll (g : Game) : List Command → List (Tick Task Scene)
  | [] => []
  | c :: cs =>
    g.ticksOf c ++
      match g.perform c with
      | .error _ => []
      | .ok g => g.ticksOfAll cs

/-- By induction on the commands. -/
theorem performAll_law (h : GameLaw P E) (cs : List Command) (hg : P g.scene log) :
    (g.performAll cs).ComesTo (fun g' ↦ P g'.scene (log ++ g.ticksOfAll cs)) E := by
  induction cs generalizing g log with
  | nil =>
    rw [ticksOfAll, List.append_nil]
    exact hg
  | cons c cs ih =>
    have hfirst := perform_law h c hg
    rw [performAll, ticksOfAll]
    cases hperform : g.perform c with
    | error e =>
      rw [hperform] at hfirst
      exact hfirst
    | ok g' =>
      rw [hperform] at hfirst
      have hlater := ih hfirst
      rw [List.append_assoc] at hlater
      exact hlater

end Game

end Delve

import Delve.Proofs.Brain.Survival
import Delve.Proofs.Game.Belongings
/-!
# How the dead leave a game

An actor that has died, or that is missing, is taken out of the game when its turn comes. Whoever is
left after a round lives, save a player that was struck down after its own turn. Nothing that
happens in a game brings anybody back to life.
-/

namespace Delve.Game

variable {g g' now next : Game} {id i j : ActorId} {ids early later : List ActorId}
  {outcomes first rest : List Outcome}

/-! ## 1. What lasts of the dead -/

/-- Those before the actor have acted, then the actor itself, and then those after it. -/
structure Passage (g : Game) (id : ActorId) where
  early : List ActorId
  later : List ActorId
  now : Game
  next : Game
  last : Game
  first : List Outcome
  own : List Outcome
  rest : List Outcome
  brainIds_eq : g.brainIds = early ++ id :: later
  actInOrder_early : g.opened.actInOrder early = .ok (first, now)
  actFor_own : now.actFor id = .ok (own, next)
  actInOrder_later : next.actInOrder later = .ok (rest, last)
  acted_early : g.opened.Acted early first now
  acted_own : now.Acted [id] own next
  acted_later : next.Acted later rest last
  not_mem_early : id ∉ early
  not_mem_later : id ∉ later
  exists_brain : ∃ b, now.brain? id = some b

theorem actFor_conduct {P : Scene → Prop} {E : Fault → Prop} (law : ActorLaw id P E) {b : Brain}
    (hlives : g.lives id = true) (hb : g.brain? id = some b) (hg : P (g.scene.focusOn id)) :
    (g.actFor id).ComesTo (fun r ↦ P r.2.scene) E := by
  have hlives : (g.scene.world.actor? id).any (·.isAlive) = true := hlives
  unfold actFor
  rw [if_pos hlives, hb]
  exact (b.takeTurns_conduct law hg).bind fun _ hr ↦ hr

theorem Passage.led (p : g.Passage id) (hlives : p.now.lives id = true) :
    p.now.scene.LedBy id p.next.scene := by
  obtain ⟨b, hb⟩ := p.exists_brain
  have hnow := p.acted_early.sound.inOrder
  exact (actFor_conduct (ledBy_law id _) hlives hb
    (.start hnow.housed hnow.knowsPlayer)).of_eq_ok p.actFor_own

/-- A wounded hero waits beside the rat. The brain and the memory of a third actor, which somebody
has taken out of the world, are still there. -/
def lastStand : Game where
  scene :=
    { ambush with
      world := ambush.world.modifyActor .player fun a ↦ { a with hp := .make 1 10 }
      memory := Memory.empty.set ⟨2⟩ .lastTarget "0,0"
      dice := { seed := 1 } }
  brains := (((∅ : ActorMap Brain).insert .player (.of (.leaf .idle))).insert ⟨1⟩
    (.of (.leaf (.attack none)))).insert ⟨2⟩ (.of (.leaf .idle))
  rounds := 0

theorem lastStand_sound : lastStand.Sound where
  seated := by
    have hhurt : World.Seated
        (ambush.world.modifyActor .player fun a ↦ { a with hp := .make 1 10 }) :=
      ambush_seated.modifyActor fun _ _ ↦ rfl
    exact hhurt
  knowsPlayer := by
    have hhero : lastStand.scene.world.player? =
        some { name := "hero", position := ⟨0, 0⟩, hp := .make 1 10 } := by
      decide +kernel
    exact World.knowsPlayer_of_player hhero (by decide +kernel)
  fair := ambush_fair
  price_pos := by
    show 0 < ambush.rules.turnReady
    decide

end Delve.Game

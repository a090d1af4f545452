import Delve.Brain.Temper
import Delve.Proofs.Brain.Conduct
import Delve.Proofs.Task.Privacy
/-!
# What a brain can learn of others

What no leaf of a brain can learn, the brain cannot learn either, and it cannot keep notes of it. So
in two scenes that are alike for an actor, its brain comes to the same, and leaves scenes that are
alike.
-/

namespace Delve

variable {s t : Scene} {id : ActorId}

/-- Two scenes in the middle of two evaluations that the actor cannot tell apart. -/
structure Scene.InStep (id : ActorId) (s t : Scene) : Prop where
  focus_eq : s.focus = id
  alike : s.Alike t
  inside : s.world.Inside
  knowsPlayer : s.world.KnowsPlayer

theorem inStep_mirrors (id : ActorId) :
    brainRepertoire.Mirrors brainRepertoire (Scene.InStep id) where
  setup _ _ _ h := ⟨rfl, h⟩
  tick task s t h := by
    refine ((task.tick_alike h.alike h.knowsPlayer).and_comesTo
      (task.tick_comesTo h.inside)).mono ?_
    rintro r q ⟨hm, houtcome⟩
    have hact := houtcome.act h.knowsPlayer
    exact ⟨hm.status_eq, hm.state_eq, hact.focus_eq.trans h.focus_eq, hm.context,
      houtcome.durable World.inside_durable h.inside,
      hact.touched.world.knowsPlayer h.knowsPlayer⟩
  test sense s t h := by
    have hm := sense.test_alike h.alike
    have hact := sense.act_test s
    exact ⟨hm.status_eq, hm.state_eq, hact.focus_eq.trans h.focus_eq, hm.context,
      sense.world_test s ▸ h.inside, hact.touched.world.knowsPlayer h.knowsPlayer⟩

namespace Brain

/-- Whether the turn has been paid for can be told from the actor's own energy. -/
theorem act_alike (b : Brain) (h : s.InStep id t) :
    (b.act s).Agree (Step.Matches (Scene.AlikeFor id)) (b.act t) := by
  have hbefore : energy? t t.focus = energy? s s.focus := by
    show t.actor?.map _ = s.actor?.map _
    rw [h.alike.actor_eq]
  unfold act
  rw [hbefore]
  -- what is left of the energy is the same too, since the scenes are alike at the end
  refine (b.run_mirrors (inStep_mirrors id) h).bind fun r q hm ↦ ?_
  have hafter := hm.context.alike
  rw [hm.status_eq, hm.state_eq, hafter.actor_eq, ← hm.context.focus_eq]
  refine ⟨rfl, rfl, ?_⟩
  dsimp only
  split
  · exact hafter
  · exact hafter.finishTurn

/-- In two scenes that differ at most in the private affairs of others than the actor and the
player, an update comes to the same: it has the same outcome, makes the same of the brain, and
leaves two scenes that differ in those affairs at most, which it has left alone. -/
theorem update_alike (id : ActorId) (b : Brain) (hworld : s.world.Seated)
    (hplayer : s.world.KnowsPlayer) (hfair : s.rules.Fair) (h : s.AlikeFor id t) :
    ∃ status b' s' t', b.update id s = .ok (status, b', s') ∧
      b.update id t = .ok (status, b', t') ∧ s'.AlikeFor id t' ∧
      s.TouchedBy id s' ∧ t.TouchedBy id t' := by
  have hin : (s.focusOn id).InStep id (t.focusOn id) :=
    ⟨rfl, ⟨h.world, h.memory_eq, rfl, h.dice_eq, h.rules_eq⟩, hworld.inBounds, hplayer⟩
  have hagree : (b.update id s).Agree
      (fun x y ↦ x.1 = y.1 ∧ x.2.1 = y.2.1 ∧ x.2.2.AlikeFor id y.2.2) (b.update id t) := by
    unfold update
    dsimp only
    rw [hin.alike.isReady_eq]
    split
    · refine (b.act_alike hin).bind fun r q hm ↦ ?_
      exact ⟨congrArg some hm.status_eq, hm.state_eq, hm.context⟩
    · exact ⟨rfl, rfl, hin.alike⟩
  have hs := b.update_conduct (ledBy_law id s) (.start hworld.housed hplayer)
  -- the tables of the other world agree as well, so an update is an act there too
  have ht := b.update_conduct (ledBy_law id t)
    (.start (h.world.seated hworld).housed (h.world.knowsPlayer hplayer))
  obtain ⟨⟨status, b', s'⟩, hupdate, hled⟩ :=
    (hs.mono (fun _ hled ↦ hled) fun _ ↦ hfair.not_crossed).exists_ok
  rcases hagree.elim with ⟨x, ⟨_, _, t'⟩, hx, hupdate', hstatus, hbrain, halike⟩ | ⟨e, hx, -⟩
  · rw [hupdate] at hx
    cases hx
    cases hstatus
    cases hbrain
    exact ⟨_, _, _, _, hupdate, hupdate', halike, hled.touched, (ht.of_eq_ok hupdate').touched⟩
  · rw [hupdate] at hx
    cases hx

end Brain

/-- The ambush, with somebody behind the rat. -/
def den : Scene :=
  { ambush with
    world := (({ (World.ofExtent ⟨3, 1⟩).settle .player { name := "hero", position := ⟨0, 0⟩ } with
      playerId := some .player }.settle ⟨1⟩ { name := "rat", position := ⟨1, 0⟩, energy := 150 }
      ).settle ⟨2⟩ { name := "ogre", position := ⟨2, 0⟩ }) }

def disguise (a : Actor) : Actor :=
  { a with name := "troll", hp := ⟨1, 90⟩, energy := 500, money := 12 }

/-- The same den, as far as the rat can tell. -/
def disguisedDen : Scene :=
  { den with
    world := den.world.modifyActor ⟨2⟩ disguise
    memory := den.memory.set ⟨2⟩ .lastTarget "0,0" }

theorem den_seated : den.world.Seated := by
  have hground := (World.ofExtent_consistent ⟨3, 1⟩).toSeated
  have hplayer := hground.settlePlayer (a := { name := "hero", position := ⟨0, 0⟩ })
    (by decide +kernel) (by decide +kernel)
  have hrat : World.Seated
      ({ (World.ofExtent ⟨3, 1⟩).settle .player { name := "hero", position := ⟨0, 0⟩ } with
        playerId := some .player }.settle ⟨1⟩
          { name := "rat", position := ⟨1, 0⟩, energy := 150 }) :=
    hplayer.settle (by decide +kernel) (by decide +kernel)
  exact hrat.settle (by decide +kernel) (by decide +kernel)

theorem den_knowsPlayer : den.world.KnowsPlayer := by
  have hhero : den.world.player? = some { name := "hero", position := ⟨0, 0⟩ } := by
    decide +kernel
  exact World.knowsPlayer_of_player hhero (by decide +kernel)

theorem den_alikeFor_rat : den.AlikeFor ⟨1⟩ disguisedDen where
  world := by
    have hother : (⟨2⟩ : ActorId) ≠ ⟨1⟩ := by decide
    have hmonster : den.world.playerId ≠ some ⟨2⟩ := by decide +kernel
    exact World.alikeFor_modifyActor hother hmonster fun _ ↦ rfl
  memory_eq := by decide +kernel
  focus_eq := rfl
  dice_eq := rfl
  rules_eq := rfl

/-- The rat strikes the hero in both dens, and takes no notice of who is behind it. -/
theorem den_alike :
    den.world.Seated ∧ den.world.KnowsPlayer ∧ den.rules.Fair ∧ den.AlikeFor ⟨1⟩ disguisedDen ∧
      ∃ b' s' t', (Temper.smart.brain {}).update ⟨1⟩ den = .ok (some .success, b', s') ∧
        (Temper.smart.brain {}).update ⟨1⟩ disguisedDen = .ok (some .success, b', t') ∧
        s'.AlikeFor ⟨1⟩ t' ∧ (s'.world.actor? ⟨2⟩).map (·.name) = some "ogre" ∧
        (t'.world.actor? ⟨2⟩).map (·.name) = some "troll" := by
  have hfair : den.rules.Fair := ⟨by decide, by decide⟩
  obtain ⟨status, b', s', t', hs, ht, halike, htouched, htouched'⟩ :=
    Brain.update_alike ⟨1⟩ (Temper.smart.brain {}) den_seated den_knowsPlayer hfair den_alikeFor_rat
  have hstatus : ((Temper.smart.brain {}).update ⟨1⟩ den).map (·.1) = .ok (some .success) := by
    decide +kernel
  rw [hs] at hstatus
  cases hstatus
  refine ⟨den_seated, den_knowsPlayer, hfair, den_alikeFor_rat, b', s', t', hs, ht, halike, ?_, ?_⟩
  · rw [htouched.world.others ⟨2⟩ (by decide) (by decide +kernel)]
    decide +kernel
  · rw [htouched'.world.others ⟨2⟩ (by decide) (by decide +kernel)]
    decide +kernel

end Delve

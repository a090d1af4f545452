import Delve.Proofs.Task.Frame
import Delve.Proofs.World.Goods
/-!
# Tasks that only move and fight

Most tasks change where actors stand, what energy they have left and how they feel. They leave the
ground alone and everything that lies on it, and nothing changes hands.
-/

namespace Delve

variable {s s' : Scene}

/-- The ground and the goods are the same: at the most, actors have stirred. -/
structure World.Stirs (w w' : World) : Prop extends w.SameGround w', w.SameGoods w'

namespace World.Stirs

variable {w w' w'' : World}

theorem refl (w : World) : w.Stirs w := ⟨.refl w, .refl w⟩

theorem trans (h : w.Stirs w') (h' : w'.Stirs w'') : w.Stirs w'' :=
  ⟨h.toSameGround.trans h'.toSameGround, h.toSameGoods.trans h'.toSameGoods⟩

theorem finishTurn (h : w.Stirs s.world) : w.Stirs s.finishTurn.world :=
  h.trans ⟨World.sameGround_modifyActor _ _ _, World.sameGoods_modifyActor _ _ fun _ ↦ rfl⟩

end World.Stirs

theorem stirs_stepTo {goal : Position} (h : s.stepTo goal = .ok s') :
    s.world.Stirs s'.world := by
  obtain ⟨a, ha, -, -, rfl⟩ := Scene.stepTo_eq_ok h
  exact ⟨⟨rfl, rfl, rfl⟩, World.sameGoods_relocate ha goal⟩

theorem stirs_walk (s : Scene) (p : Position) : s.world.Stirs (s.walk p).2.world := by
  unfold Scene.walk
  split
  · rename_i hstep
    exact (stirs_stepTo hstep).finishTurn
  · exact .refl s.world

theorem stirs_walkTo (s : Scene) (p : Option Position) :
    s.world.Stirs (s.walkTo p).2.world := by
  cases p with
  | none => exact .refl s.world
  | some p => exact stirs_walk s p

theorem stirs_idle (s : Scene) : s.world.Stirs (idle s).2.world := by
  unfold idle
  split
  · exact (World.Stirs.refl s.world).finishTurn
  · exact .refl s.world

theorem stirs_wander (s : Scene) : s.world.Stirs (wander s).2.world := by
  cases ha : s.actor? with
  | none =>
    rw [wander, Scene.position_of_absent ha]
    exact .refl s.world
  | some a =>
    rw [wander_eq ha]
    rcases s.choose_cases (s.world.walkableNeighbors a.position) with hnone | ⟨goal, -, hsome⟩
    · rw [hnone]
      exact .refl s.world
    · rw [hsome]
      exact stirs_walk { s with dice := s.dice.rolled } goal

theorem stirs_retreat (s : Scene) : s.world.Stirs (retreat s).2.world := by
  unfold retreat
  split
  · exact stirs_walkTo s _
  · exact .refl s.world

theorem stirs_follow (c : Chase) (s : Scene) (target : Position) :
    s.world.Stirs (c.follow s target).2.2.world := by
  unfold Chase.follow
  split
  · split
    · exact .refl s.world
    · split
      · rename_i hstep
        exact (stirs_stepTo hstep).finishTurn
      · exact .refl s.world
  · exact .refl s.world

theorem stirs_chase (c : Chase) (s : Scene) : s.world.Stirs (c.tick s).2.2.world := by
  unfold Chase.tick
  split
  · exact .refl s.world
  · exact .refl s.world
  · exact stirs_follow _ s _

theorem stirs_strike (s : Scene) (attacker defender : Actor) (chance : UInt32) :
    s.world.Stirs (strike s attacker defender chance).2.world := by
  obtain ⟨damage, heq⟩ := strike_context s attacker defender chance
  rw [heq]
  exact ⟨World.sameGround_modifyActor _ _ _, World.sameGoods_modifyActor _ _ fun _ ↦ rfl⟩

theorem stirs_attack {blow : Option Blow} (h : attack s = .ok (blow, s')) :
    s.world.Stirs s'.world := by
  unfold attack at h
  split at h
  · rename_i attacker defender _ _
    split at h
    · obtain ⟨chance, -, hblow⟩ := bind_eq_ok.mp h
      have hstrike := stirs_strike s attacker defender chance
      generalize strike s attacker defender chance = struck at hstrike hblow
      cases hblow
      exact hstrike.finishTurn
    · cases h
      exact .refl s.world
  · cases h
    exact .refl s.world

theorem stirs_remember (s : Scene) : s.world.Stirs (remember s).2.world := by
  unfold remember
  split <;> exact .refl s.world

theorem stirs_goTo (topic : Topic) (s : Scene) :
    s.world.Stirs (goToRemembered topic s).2.world := by
  unfold goToRemembered
  split
  · split
    · exact .refl s.world
    · split
      · exact .refl s.world
      · split
        · rename_i hstep
          exact (stirs_stepTo hstep).finishTurn
        · exact .refl s.world
  · exact .refl s.world

/-- Whether a task can do no more than move an actor or wound one. -/
def Task.isStirring : Task → Bool
  | idle | wander | retreat | chase _ | attack _ | remember | goTo _ => true
  | drink _ | pickUp _ | mineBlock | mineTunnel => false

theorem Task.tick_stirs {t : Task} {r : Step Task Scene} (h : t.tick s = .ok r)
    (ht : t.isStirring = true) : s.world.Stirs r.context.world := by
  cases t with
  | idle =>
    cases h
    exact stirs_idle s
  | wander =>
    cases h
    exact stirs_wander s
  | retreat =>
    cases h
    exact stirs_retreat s
  | chase c =>
    cases h
    exact stirs_chase c s
  | attack last =>
    obtain ⟨⟨blow, after⟩, hattack, hr⟩ := bind_eq_ok.mp h
    cases blow <;> cases hr <;> exact stirs_attack hattack
  | remember =>
    cases h
    exact stirs_remember s
  | goTo topic =>
    cases h
    exact stirs_goTo topic s
  | drink _ | pickUp _ | mineBlock | mineTunnel => cases ht

end Delve

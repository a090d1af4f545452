import Delve.Proofs.Game.Command
import Delve.Proofs.Task.Stride
/-!
# Where actors stand

In a world whose tables agree and in which nobody stands on an obstacle, this stays so for as long as
the game is played, whatever the brains and whatever is asked of the game. Only ticks of tasks move
anybody, and they do it cell by cell.
-/

namespace Delve

variable {rules : Rules} {s : Scene} {log : List (Tick Task Scene)}

/-- The tables of the world agree, nobody stands on an obstacle, and all ticks so far have moved
actors to neighbouring cells only. -/
structure Standing (rules : Rules) (s : Scene) (log : List (Tick Task Scene)) : Prop where
  seated : s.world.Seated
  clear : s.world.Clear
  rules_eq : s.rules = rules
  strides : ∀ t ∈ log, t.before.world.Strides t.after.world

theorem Standing.start (hworld : s.world.Seated) (hclear : s.world.Clear) :
    Standing s.rules s [] :=
  ⟨hworld, hclear, rfl, fun _ h ↦ nomatch h⟩

/-- Changes that leave everybody where they are do no harm. -/
theorem Standing.modifyActor (h : Standing rules s log) (id : ActorId) {change : Actor → Actor}
    (hposition : ∀ a, (change a).position = a.position) :
    Standing rules { s with world := s.world.modifyActor id change } log where
  seated := h.seated.modifyActor fun a _ ↦ hposition a
  clear := h.clear.strides ((World.Strides.refl s.world).modifyActor fun a _ ↦ hposition a)
  rules_eq := h.rules_eq
  strides := h.strides

theorem Standing.outcome {t : Task} {status : Status} {s' : Scene} (h : Standing rules s log)
    (houtcome : Task.Outcome t s status s') :
    Standing rules s' (log ++ [⟨t, s, status, s'⟩]) where
  seated := houtcome.seated h.seated
  clear := h.clear.strides houtcome.strides
  rules_eq := houtcome.rules_eq.trans h.rules_eq
  strides t' ht' := by
    rcases List.mem_append.mp ht' with ht' | ht'
    · exact h.strides t' ht'
    · rw [List.mem_singleton.mp ht']
      exact houtcome.strides

/-- The one fault that there is comes from rules that are not fair. -/
theorem standing_law (rules : Rules) : GameLaw (Standing rules) fun _ ↦ ¬ rules.Fair where
  tick t s log h := by
    refine (t.tick_comesTo h.seated.inBounds).mono (fun _ houtcome ↦ h.outcome houtcome) ?_
    intro _ hcrossed hfair
    rw [← h.rules_eq] at hfair
    exact hfair.not_crossed hcrossed
  test sense s log h := by
    have hworld := sense.world_test s
    exact ⟨hworld ▸ h.seated, hworld ▸ h.clear,
      (sense.act_test s).touched.rules_eq.trans h.rules_eq, h.strides⟩
  focusOn _ _ _ h := ⟨h.seated, h.clear, h.rules_eq, h.strides⟩
  pay {s _} h := h.modifyActor s.focus fun _ ↦ rfl
  gain id s _ h := by
    refine h.modifyActor id fun a ↦ ?_
    obtain ⟨_, _, heq⟩ := Actor.gainEnergy_eq a s.rules.turnTick
    rw [heq]
  vacate ha h := ⟨h.seated.vacate ha, h.clear.vacate, h.rules_eq, h.strides⟩
  forgetActor _ _ _ h := ⟨h.seated, h.clear, h.rules_eq, h.strides⟩

namespace Game

/-- Whatever is asked of a game, its tables go on agreeing, nobody comes to stand on an obstacle, and
whoever moves in a tick of a task goes to a neighbouring cell. Under fair rules, whatever is asked is
carried out. -/
theorem performAll_stands (g : Game) (cs : List Command) (hworld : g.scene.world.Seated)
    (hclear : g.scene.world.Clear) :
    (g.scene.rules.Fair → ∃ g', g.performAll cs = .ok g') ∧
      ∀ g', g.performAll cs = .ok g' →
        g'.scene.world.Seated ∧ g'.scene.world.Clear ∧
          ∀ t ∈ g.ticksOfAll cs, ∀ i a a', t.before.world.actor? i = some a →
            t.after.world.actor? i = some a' → a'.position ≠ a.position →
            a'.position ∈ a.position.neighbors := by
  have hplayed := performAll_law (standing_law g.scene.rules) cs (Standing.start hworld hclear)
  rw [List.nil_append] at hplayed
  constructor
  · intro hfair
    obtain ⟨g', hg', -⟩ := (hplayed.mono (fun _ ↦ id) fun _ hunfair ↦ hunfair hfair).exists_ok
    exact ⟨g', hg'⟩
  · intro g' hg'
    have hstanding := hplayed.of_eq_ok hg'
    refine ⟨hstanding.seated, hstanding.clear, fun t ht i a a' ha ha' hmoved ↦ ?_⟩
    obtain ⟨b, hb, hcell⟩ := (hstanding.strides t ht).actor i a' ha'
    rw [ha] at hb
    cases hb
    rcases hcell with hstay | ⟨hnear, -⟩
    · exact absurd hstay hmoved
    · exact Position.mem_neighbors_of_isNeighbor hnear

end Game

theorem ambush_clear : ambush.world.Clear := by
  intro id a ha
  have hground : ∀ p ∈ [(⟨0, 0⟩ : Position), ⟨1, 0⟩], ambush.world.isObstacle p = false := by
    decide +kernel
  apply hground
  -- there are the hero and the rat, and nobody else
  rcases getElem?_insert_eq_some ha with ⟨-, rfl⟩ | ha
  · decide
  · rcases getElem?_insert_eq_some ha with ⟨-, rfl⟩ | ha
    · decide
    · simp [World.ofExtent] at ha

/-- The hero is taken out of the ambush, so the rat has nobody to hunt and steps onto the free
cell. -/
theorem Game.ambush_stands :
    ambush.world.Seated ∧ ambush.world.Clear ∧
      ∃ g', (Game.ofScene ambush).performAll
          [.attach ⟨1⟩ .basic, .update ⟨1⟩, .removeActor .player, .round] = .ok g' ∧
        g'.scene.world.Seated ∧ g'.scene.world.Clear ∧
        (g'.scene.world.actor? ⟨1⟩).map (·.position) = some ⟨0, 0⟩ := by
  obtain ⟨hends, hstands⟩ := Game.performAll_stands (Game.ofScene ambush)
    [.attach ⟨1⟩ .basic, .update ⟨1⟩, .removeActor .player, .round] ambush_seated ambush_clear
  obtain ⟨g', hg'⟩ := hends ambush_fair
  obtain ⟨hseated, hclear, -⟩ := hstands g' hg'
  have hmoved : ((Game.ofScene ambush).performAll
      [.attach ⟨1⟩ .basic, .update ⟨1⟩, .removeActor .player, .round]).map
        (fun g ↦ (g.scene.world.actor? ⟨1⟩).map (·.position)) = .ok (some ⟨0, 0⟩) := by
    decide +kernel
  rw [hg'] at hmoved
  exact ⟨ambush_seated, ambush_clear, g', hg', hseated, hclear, Except.ok.inj hmoved⟩

end Delve

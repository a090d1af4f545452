import Delve.Proofs.Game.Account
import Delve.Proofs.Game.Standing
/-!
# When rounds come to an end

Of all the calculations of a turn, one can be left without an answer: the chance to hit, where as
signed words its limits are crossed. Under any other rules every round comes to an end, whatever
the brains, and whether or not turns cost anything. Under crossed ones a guard beside the player
stops the game as soon as it is its turn.
-/

namespace Delve

/-! ## 1. Rules that are not crossed -/

/-- Nobody leaves the world on foot, so a turn can only stop at a chance to hit. -/
theorem inside_law (rules : Rules) :
    GameLaw (fun s _ ↦ s.world.Inside ∧ s.rules = rules) fun _ ↦ rules.Crossed where
  tick t s log h := by
    refine (t.tick_comesTo h.1).mono (fun _ houtcome ↦ ?_) fun _ hcrossed ↦ h.2 ▸ hcrossed
    exact ⟨houtcome.durable World.inside_durable h.1, houtcome.rules_eq.trans h.2⟩
  test sense s log h := by
    rw [sense.world_test s, (sense.act_test s).touched.rules_eq]
    exact h
  focusOn _ _ _ h := h
  pay h := ⟨World.inside_durable.modifyActor h.1 fun _ _ ↦ rfl, h.2⟩
  gain id s _ h := by
    refine ⟨World.inside_durable.modifyActor h.1 fun a _ ↦ ?_, h.2⟩
    obtain ⟨_, _, heq⟩ := Actor.gainEnergy_eq a s.rules.turnTick
    rw [heq]
  vacate _ h := ⟨h.1.vacate, h.2⟩
  forgetActor _ _ _ h := h

namespace Game

/-- By induction on the rounds. -/
theorem afterRounds_comesTo {g : Game} {rules : Rules} (hworld : g.scene.world.Inside)
    (hrules : g.scene.rules = rules) (n : Nat) :
    (g.afterRounds n).ComesTo (fun r ↦ r.2.scene.world.Inside ∧ r.2.scene.rules = rules)
      fun _ ↦ rules.Crossed := by
  induction n with
  | zero => exact ⟨hworld, hrules⟩
  | succ n ih =>
    refine ih.bind fun r hr ↦ ?_
    exact (@round_law _ _ [] _ (inside_law rules) hr).bind fun _ hlater ↦ hlater

end Game

/-! ## 2. Crossed rules -/

theorem attack_of_crossed {s : Scene} {a defender : Actor} (ha : s.actor? = some a)
    (htarget : s.target? = some defender)
    (hnear : a.position.isNeighbor defender.position = true) (hcrossed : s.rules.Crossed) :
    attack s = .error .crossedHitChances := by
  unfold attack
  simp only [ha, htarget, hnear, ↓reduceIte]
  rw [hitChance_of_crossed hcrossed]
  rfl

theorem Position.inRange_one_of_isNeighbor {p q : Position} (h : p.isNeighbor q = true) :
    p.inRange q 1 = true := by
  unfold isNeighbor at h
  rw [Bool.and_eq_true, beq_iff_eq] at h
  rw [inRange, h.2]
  rfl

/-- A guard looks first whether the player is beside it, and if so, it strikes. -/
theorem Temper.guard_run_of_crossed {s : Scene} {a defender : Actor}
    (ha : s.actor? = some a) (htarget : s.target? = some defender)
    (hnear : a.position.isNeighbor defender.position = true) (hcrossed : s.rules.Crossed)
    (rules : Rules) : (guard.brain rules).run brainRepertoire s = .error .crossedHitChances := by
  have hprey : s.targetPosition? = some defender.position := by
    rw [Scene.targetPosition?, htarget, Option.map_some]
  have hbeside : brainRepertoire.test (.playerInRange 1) s =
      .ok ⟨.success, .playerInRange 1, s⟩ := by
    simp only [brainRepertoire, Sense.test, Sense.ask, Sense.betweenPositions,
      Scene.position_of_actor ha, hprey, Position.inRange_one_of_isNeighbor hnear]
    rfl
  have hstruck : brainRepertoire.tick (.attack none) s = .error .crossedHitChances := by
    show (attack s).bind _ = _
    rw [attack_of_crossed ha htarget hnear hcrossed]
    rfl
  have hfirst : (whenAdjacent (Node.leaf (.attack none))).run brainRepertoire s =
      .error .crossedHitChances := by
    rw [whenAdjacent, Node.gate, Node.run, hbeside]
    show (Node.run brainRepertoire (Node.task false (.attack none)) s).bind _ = _
    rw [Node.run]
    show ((brainRepertoire.tick (.attack none) s).bind _).bind _ = _
    rw [hstruck]
    rfl
  show ((Node.run brainRepertoire (guard.body rules) s).bind _) = _
  rw [body, Node.sel, Node.run, Node.runSelector, hfirst]
  rfl

theorem Brain.takeTurns_of_run_error {id : ActorId} {b : Brain} {s : Scene} {e : Fault}
    (hready : (s.focusOn id).isReady = true)
    (hrun : b.run brainRepertoire (s.focusOn id) = .error e) : b.takeTurns id s = .error e := by
  have hupdate : b.update id s = .error e := by
    unfold update act
    simp only [hready, ↓reduceIte, hrun]
    rfl
  rw [takeTurns, hupdate]

namespace Game

/-- A guard beside the player, with all the energy that there can be. -/
def siege (rules : Rules) : Game where
  scene := { ambush with
    world := ambush.world.modifyActor ⟨1⟩ fun a ↦ { a with energy := 0xFFFFFFFF }
    rules }
  brains := (∅ : ActorMap Brain).insert ⟨1⟩ (Temper.guard.brain rules)
  rounds := 0

theorem siege_seated (rules : Rules) : (siege rules).scene.world.Seated := by
  show (ambush.world.modifyActor ⟨1⟩ fun a ↦ { a with energy := 0xFFFFFFFF }).Seated
  exact ambush_seated.modifyActor fun _ _ ↦ rfl

theorem siege_brainIds (rules : Rules) : (siege rules).brainIds = [⟨1⟩] := rfl

theorem mem_siege_brains {rules : Rules} {id : ActorId} : id ∈ (siege rules).brains ↔ ⟨1⟩ = id := by
  show id ∈ (∅ : ActorMap Brain).insert ⟨1⟩ _ ↔ _
  rw [mem_insert_iff]
  simp

/-- There is no more energy to gain for the guard. -/
theorem siege_guard (rules : Rules) : (siege rules).opened.scene.world.actor? ⟨1⟩ = some
    { id := ⟨1⟩, name := "rat", position := ⟨1, 0⟩, energy := 0xFFFFFFFF } := by
  have hactor : (siege rules).scene.world.actor? ⟨1⟩ = some
      { id := ⟨1⟩, name := "rat", position := ⟨1, 0⟩, energy := 0xFFFFFFFF } := rfl
  have hfull : ∀ n : UInt32, (0xFFFFFFFF : UInt32).addClamp n = 0xFFFFFFFF := by
    intro n
    have hmax : (0xFFFFFFFF : UInt32).toNat = UInt32.size - 1 := rfl
    rw [← UInt32.toNat_inj, UInt32.toNat_addClamp, hmax]
    omega
  rw [opened, actor_gainEnergy, if_pos (mem_siege_brains.mpr rfl)]
  show ((siege rules).scene.world.actor? ⟨1⟩).map _ = _
  rw [hactor, Option.map_some]
  exact congrArg
    (fun energy ↦ some ({ id := ⟨1⟩, name := "rat", position := ⟨1, 0⟩, energy } : Actor)) (hfull _)

theorem siege_hero (rules : Rules) : (siege rules).opened.scene.world.player? = some
    { name := "hero", position := ⟨0, 0⟩ } := by
  have hplayer : (siege rules).opened.scene.world.playerId = some .player :=
    playerId_foldl_modifyActor _ _ _
  have hbrain : ActorId.player ∉ (siege rules).brains := by
    rw [mem_siege_brains]
    decide
  rw [World.player?, hplayer]
  show (siege rules).opened.scene.world.actor? .player = _
  rw [opened, actor_gainEnergy, if_neg hbrain]
  rfl

/-- The guard's turn is never over. -/
theorem siege_round {rules : Rules} (hcrossed : rules.Crossed) :
    (siege rules).round = .error .crossedHitChances := by
  have hrules : (siege rules).opened.scene.rules = rules := rfl
  have hguard := siege_guard rules
  have halive : ((siege rules).opened.scene.world.actor? ⟨1⟩).any (·.isAlive) = true := by
    rw [hguard]
    rfl
  have hready : ((siege rules).opened.scene.focusOn ⟨1⟩).isReady = true := by
    show ((siege rules).opened.scene.world.actor? ⟨1⟩).any (·.canAct rules.turnReady) = true
    rw [hguard]
    show (true && decide (rules.turnReady ≤ 0xFFFFFFFF)) = true
    rw [Bool.true_and, decide_eq_true_eq, UInt32.le_iff_toNat_le]
    exact Nat.le_of_lt_succ rules.turnReady.toNat_lt
  have htarget : ((siege rules).opened.scene.focusOn ⟨1⟩).target? = some
      { name := "hero", position := ⟨0, 0⟩ } := by
    show (siege rules).opened.scene.world.player?.filter _ = _
    rw [siege_hero]
    rfl
  have hbrain : (siege rules).opened.brain? ⟨1⟩ = some (Temper.guard.brain rules) := rfl
  have hrun := Temper.guard_run_of_crossed hguard htarget (by decide) hcrossed rules
  have hact : (siege rules).opened.actFor ⟨1⟩ = .error .crossedHitChances := by
    unfold actFor
    simp only [halive, ↓reduceIte, hbrain, Brain.takeTurns_of_run_error hready hrun]
    rfl
  show (siege rules).opened.actInOrder (siege rules).brainIds = _
  rw [siege_brainIds, actInOrder, hact]
  rfl

/-! ## 3. The rules that matter -/

/-- Whether games with ready-made brains can always be played on is a question of the rules alone:
they can if and only if the limits of the chance to hit are not crossed. -/
theorem rounds_complete_iff (rules : Rules) :
    (∀ g : Game, g.scene.rules = rules → g.scene.world.Seated →
      (∀ id b, g.brain? id = some b → ∃ temper : Temper, b = temper.brain rules) →
      ∀ n, ∃ outcomes g', g.afterRounds n = .ok (outcomes, g')) ↔ ¬ rules.Crossed := by
  constructor
  · -- a siege is a game with a ready-made brain, and it stops in the first round
    intro hcomplete hcrossed
    have hbrains : ∀ id b, (siege rules).brain? id = some b →
        ∃ temper : Temper, b = temper.brain rules := by
      intro id b hb
      rcases getElem?_insert_eq_some hb with ⟨-, rfl⟩ | hnone
      · exact ⟨.guard, rfl⟩
      · simp at hnone
    obtain ⟨outcomes, g', hplayed⟩ := hcomplete (siege rules) rfl (siege_seated rules) hbrains 1
    rw [afterRounds, afterRounds] at hplayed
    simp only [bind, Except.bind, siege_round hcrossed] at hplayed
    cases hplayed
  · -- no look at the brains is needed
    intro hcrossed g hrules hworld _ n
    obtain ⟨⟨outcomes, g'⟩, hplayed, -⟩ :=
      ((afterRounds_comesTo hworld.inBounds hrules n).mono (fun _ ↦ id) fun _ ↦ hcrossed).exists_ok
    exact ⟨outcomes, g', hplayed⟩

/-- The ambush under rules by which a blow lands at 95 of 100 at the least and at 5 at the most. -/
def crossedAmbush : Game where
  scene := { ambush with rules := { minHitChance := 95, maxHitChance := 5 } }
  brains := (∅ : ActorMap Brain).insert ⟨1⟩ (Temper.basic.brain {})
  rounds := 0

/-- The rat strikes, and nobody can tell what its chances are. -/
theorem crossedAmbush_stops :
    crossedAmbush.scene.world.Seated ∧
      (∀ id b, crossedAmbush.brain? id = some b →
        b = Temper.basic.brain crossedAmbush.scene.rules) ∧
      crossedAmbush.round = .error .crossedHitChances := by
  refine ⟨ambush_seated, fun id b hb ↦ ?_, ?_⟩
  · rcases getElem?_insert_eq_some hb with ⟨-, rfl⟩ | hnone
    · rfl
    · simp at hnone
  · have hstopped : crossedAmbush.round.map (·.1) = .error .crossedHitChances := by
      decide +kernel
    cases hround : crossedAmbush.round with
    | error e =>
      rw [hround] at hstopped
      exact congrArg _ (Except.error.inj hstopped)
    | ok played =>
      rw [hround] at hstopped
      cases hstopped

end Game

end Delve

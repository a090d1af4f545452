import Delve.Proofs.Game.Account
import Delve.Proofs.Game.Lasting
import Delve.Proofs.Game.Removal
/-!
# Playing in parts

A game that is played on its own ends with the fall of its player, if it had one when it was begun.
Whether it had one is looked up only once, so a game that is put down and taken up again could look
at things anew. It does not: a player never comes in while a game is played, and as long as the
player lives, the guard is the same as before. So a number of rounds can be played in parts. The
main statement is `play_splits`.
-/

namespace Delve.Game

variable {g g' g₁ g₂ : Game} {id : ActorId} {outcomes : List Outcome} {guarded : Bool}
  {a b n turns : Nat}

/-! ## 1. What a round counts -/

theorem rounds_actFor (h : g.actFor id = .ok (outcomes, g')) : g'.rounds = g.rounds := by
  unfold actFor at h
  split at h
  · split at h
    · cases h
      rfl
    · obtain ⟨r, -, h⟩ := bind_eq_ok.mp h
      cases h
      rfl
  · cases h
    rfl

theorem rounds_actInOrder {ids : List ActorId} (h : g.actInOrder ids = .ok (outcomes, g')) :
    g'.rounds = g.rounds := by
  induction ids generalizing g outcomes with
  | nil =>
    cases h
    rfl
  | cons id ids ih =>
    obtain ⟨⟨first, g₁⟩, hfirst, h⟩ := bind_eq_ok.mp h
    obtain ⟨⟨later, g₂⟩, hlater, h⟩ := bind_eq_ok.mp h
    cases h
    exact (ih hlater).trans (rounds_actFor hfirst)

/-- Whoever acts and leaves, a round counts for one. -/
theorem rounds_round (h : g.round = .ok (outcomes, g')) : g'.rounds = g.rounds + 1 :=
  rounds_actInOrder h

/-- Nobody becomes the player in the course of a game. -/
theorem noPlayer_lasting : Lasting fun g ↦ g.scene.world.playerId = none where
  attach _ h _ := h
  detach _ h := h
  focusOn _ h := h
  opened {g} h := (playerId_foldl_modifyActor _ g.brainIds g.scene.world).trans h
  turns _ h _ hled := hled.touched.world.playerId_eq.trans h
  removeActor {g} id h := by
    refine removeActor_world_cases (P := (·.playerId = none)) h fun a _ ↦ ?_
    show (if g.scene.world.playerId = some id then none else g.scene.world.playerId) = none
    rw [h, ite_self]

/-- What is kept from round to round while a game is played. -/
theorem exists_round (hg : g.Sound) : ∃ outcomes g', g.round = .ok (outcomes, g') ∧ g'.Sound ∧
    g'.rounds = g.rounds + 1 ∧
      (g.scene.world.playerId = none → g'.scene.world.playerId = none) := by
  obtain ⟨outcomes, g', hround, hacted⟩ := round_acted hg
  refine ⟨outcomes, g', hround, hacted.sound, rounds_round hround, fun hnone ↦ ?_⟩
  exact ((noPlayer_lasting.actInOrder hg.inOrder.opened (noPlayer_lasting.opened hnone)
    g.brainIds).of_eq_ok hround).2

/-! ## 2. Where a game stops -/

theorem playRounds_succ (hround : g.round = .ok (outcomes, g₁)) (guarded : Bool) (n : Nat) :
    playRounds guarded (n + 1) g =
      if guarded && !g₁.playerAlive then .ok (outcomes.length, g₁)
      else (playRounds guarded n g₁).map fun r ↦ (outcomes.length + r.1, r.2) := by
  rw [playRounds, hround]
  simp only [bind, Except.bind]
  split
  · rfl
  · cases playRounds guarded n g₁ <;> rfl

theorem afterRounds_cons (hround : g.round = .ok (outcomes, g₁)) {later : List Outcome}
    (hlater : g₁.afterRounds n = .ok (later, g₂)) :
    g.afterRounds (n + 1) = .ok (outcomes ++ later, g₂) := by
  rw [afterRounds_succ_eq, hround]
  show (g₁.afterRounds n).map _ = _
  rw [hlater]
  rfl

/-- The game has been played for `m` of `n` rounds. It is stopped short by the guard only, after
the first round that leaves no living player. -/
structure Stopped (guarded : Bool) (n : Nat) (g : Game) (m : Nat) (outcomes : List Outcome)
    (g' : Game) : Prop where
  le : m ≤ n
  played : g.afterRounds m = .ok (outcomes, g')
  sound : g'.Sound
  rounds_eq : g'.rounds = g.rounds + m
  noPlayer : g.scene.world.playerId = none → g'.scene.world.playerId = none
  short : m < n → guarded = true ∧ 0 < m ∧ g'.playerAlive = false
  alive : guarded = true → ∀ j, 0 < j → j < m →
    ∃ earlier now, g.afterRounds j = .ok (earlier, now) ∧ now.playerAlive = true

/-- By induction on the rounds: after the first one the game is stopped, or it goes on from
there. -/
theorem playRounds_stopped (guarded : Bool) (n : Nat) (hg : g.Sound) :
    ∃ m outcomes g', playRounds guarded n g = .ok (outcomes.length, g') ∧
      Stopped guarded n g m outcomes g' := by
  induction n generalizing g with
  | zero =>
    exact ⟨0, [], g, rfl, Nat.le_refl 0, rfl, hg, rfl, id, fun h ↦ absurd h (Nat.lt_irrefl 0),
      fun _ j _ hj ↦ absurd hj (Nat.not_lt_zero j)⟩
  | succ n ih =>
    obtain ⟨first, g₁, hfirst, hg₁, hcount, hplayer⟩ := exists_round hg
    have hone : g.afterRounds 1 = .ok (first, g₁) := by
      have h := afterRounds_cons (n := 0) hfirst rfl
      rwa [List.append_nil] at h
    rw [playRounds_succ hfirst]
    by_cases hstop : (guarded && !g₁.playerAlive) = true
    · rw [if_pos hstop]
      rw [Bool.and_eq_true, Bool.not_eq_true'] at hstop
      exact ⟨1, first, g₁, rfl, Nat.le_add_left 1 n, hone, hg₁, hcount, hplayer,
        fun _ ↦ ⟨hstop.1, Nat.one_pos, hstop.2⟩, fun _ j hpos hj ↦ absurd hpos (by omega)⟩
    · obtain ⟨m, later, g', hplay, h⟩ := ih hg₁
      rw [if_neg hstop, hplay]
      refine ⟨m + 1, first ++ later, g', ?_, Nat.succ_le_succ h.le,
        afterRounds_cons hfirst h.played, h.sound, ?_, fun hnone ↦ h.noPlayer (hplayer hnone),
        fun hlt ↦ ?_, fun hguarded j hpos hj ↦ ?_⟩
      · rw [List.length_append]
        rfl
      · rw [h.rounds_eq, hcount, Nat.add_assoc, Nat.add_comm 1 m]
      · obtain ⟨hguarded, -, hdead⟩ := h.short (Nat.lt_of_succ_lt_succ hlt)
        exact ⟨hguarded, Nat.succ_pos m, hdead⟩
      · match j with
        | 1 =>
          rw [hguarded, Bool.true_and, Bool.not_eq_true, Bool.not_eq_false'] at hstop
          exact ⟨first, g₁, hone, hstop⟩
        | j + 2 =>
          obtain ⟨earlier, now, hearlier, halive⟩ :=
            h.alive hguarded (j + 1) (Nat.succ_pos j) (Nat.lt_of_succ_lt_succ hj)
          exact ⟨first ++ earlier, now, afterRounds_cons hfirst hearlier, halive⟩

/-! ## 3. Going on with a game -/

/-- By induction on the rounds of the first part: none of them is the last one by the guard. -/
theorem playRounds_add (hfirst : playRounds guarded a g = .ok (turns, g₁))
    (halive : guarded = true → g₁.playerAlive = true) (b : Nat) :
    playRounds guarded (a + b) g =
      (playRounds guarded b g₁).map fun r ↦ (turns + r.1, r.2) := by
  induction a generalizing g turns with
  | zero =>
    cases hfirst
    simp only [Nat.zero_add]
    cases playRounds guarded b g₁ <;> rfl
  | succ a ih =>
    obtain ⟨⟨outcomes, now⟩, hround, -⟩ := bind_eq_ok.mp hfirst
    rw [playRounds_succ hround] at hfirst
    rw [Nat.add_right_comm, playRounds_succ hround]
    by_cases hstop : (guarded && !now.playerAlive) = true
    · -- the guard would have stopped the first part without a living player
      rw [if_pos hstop] at hfirst
      cases hfirst
      rw [Bool.and_eq_true, Bool.not_eq_true'] at hstop
      rw [halive hstop.1] at hstop
      cases hstop.2
    · rw [if_neg hstop] at hfirst ⊢
      obtain ⟨⟨later, g₂⟩, hlater, hsum⟩ := map_eq_ok.mp hfirst
      cases hsum
      rw [ih hlater]
      simp only [Nat.add_assoc]
      cases playRounds guarded b g₂ <;> rfl

theorem playerId_of_playerAlive (h : g.playerAlive = true) :
    g.scene.world.playerId.isSome = true := by
  obtain ⟨p, hp, -⟩ := (Option.any_eq_true _ _).mp h
  obtain ⟨id, hid, -⟩ := Option.bind_eq_some_iff.mp hp
  rw [hid]
  rfl

theorem play_eq (h : playRounds g.scene.world.playerId.isSome n g = .ok (turns, g')) :
    g.play n = .ok (g'.report turns, g') := by
  rw [play, h]
  rfl

/-- The guard of a game that has been put down is the one that it was begun with. -/
theorem Stopped.guard_eq {m : Nat} (h : Stopped guarded n g m outcomes g')
    (hgo : g'.playerAlive = true ∨ g.scene.world.playerId = none) :
    g'.scene.world.playerId.isSome = g.scene.world.playerId.isSome := by
  cases hplayer : g.scene.world.playerId with
  | none => rw [h.noPlayer hplayer]
  | some i =>
    rw [hplayer] at hgo
    exact playerId_of_playerAlive (hgo.resolve_right nofun)

theorem play_add (hg : g.Sound) (a b : Nat) :
    ∃ first g₁, g.play a = .ok (first, g₁) ∧
      (first.playerAlive = true ∨ g.scene.world.playerId = none →
        ∃ second g₂, g₁.play b = .ok (second, g₂) ∧
          g.play (a + b) = .ok ({ second with turns := first.turns + second.turns }, g₂)) := by
  obtain ⟨m, outcomes, g₁, hfirst, hstopped⟩ :=
    playRounds_stopped g.scene.world.playerId.isSome a hg
  refine ⟨_, g₁, play_eq hfirst, fun hgo ↦ ?_⟩
  have hguard := hstopped.guard_eq hgo
  obtain ⟨m', outcomes', g₂, hsecond, -⟩ :=
    playRounds_stopped g.scene.world.playerId.isSome b hstopped.sound
  have halive : g.scene.world.playerId.isSome = true → g₁.playerAlive = true := by
    intro hplayer
    refine hgo.resolve_right fun hnone ↦ ?_
    rw [hnone] at hplayer
    cases hplayer
  have hboth := playRounds_add hfirst halive b
  rw [hsecond] at hboth
  rw [← hguard] at hsecond
  exact ⟨_, g₂, play_eq hsecond, play_eq hboth⟩

/-- A game can be played in parts: where the player lives after the first part, or there was none in
the first place, a second part leads to the game that a single run leads to, with the same report
but for the turns, which add up. A run ends before its last round only in a game that had a player,
and then with the first round after which the player is dead or gone. -/
theorem play_splits (hg : g.Sound) :
    (∀ a b, ∃ first g₁, g.play a = .ok (first, g₁) ∧
      (first.playerAlive = true ∨ g.scene.world.playerId = none →
        ∃ second g₂, g₁.play b = .ok (second, g₂) ∧
          g.play (a + b) = .ok ({ second with turns := first.turns + second.turns }, g₂))) ∧
    ∀ n, ∃ m ≤ n, ∃ outcomes g', g.afterRounds m = .ok (outcomes, g') ∧
      g.play n = .ok (g'.report outcomes.length, g') ∧ g'.rounds = g.rounds + m ∧
      (m < n → g.scene.world.playerId.isSome = true ∧ 0 < m ∧ g'.playerAlive = false) ∧
      (g.scene.world.playerId.isSome = true → ∀ j, 0 < j → j < m →
        ∃ earlier now, g.afterRounds j = .ok (earlier, now) ∧ now.playerAlive = true) := by
  refine ⟨play_add hg, fun n ↦ ?_⟩
  obtain ⟨m, outcomes, g', hplayed, h⟩ :=
    playRounds_stopped g.scene.world.playerId.isSome n hg
  exact ⟨m, h.le, outcomes, g', h.played, play_eq hplayed, h.rounds_eq, h.short, h.alive⟩

/-- The hero falls in the first of three rounds, and nothing can be split off from that. Beside a
rat that has no brain it would live, and two rounds and three make five. -/
theorem lastStand_splits :
    lastStand.Sound ∧ (ofAmbush .wanderer).Sound ∧
      (∃ report g', lastStand.play 3 = .ok (report, g') ∧ report.rounds = 1 ∧
        report.playerAlive = false) ∧
      ∃ first second g₁ g₂, (ofAmbush .wanderer).play 2 = .ok (first, g₁) ∧
        g₁.play 3 = .ok (second, g₂) ∧
        (ofAmbush .wanderer).play 5 =
          .ok ({ second with turns := first.turns + second.turns }, g₂) := by
  have hstand := lastStand_sound
  have hambush := ofAmbush_sound .wanderer
  refine ⟨hstand, hambush, ?_, ?_⟩
  · obtain ⟨m, -, outcomes, g', -, hplay, hrounds, hshort, halive⟩ := (play_splits hstand).2 3
    have hplayer : lastStand.scene.world.playerId.isSome = true := by decide +kernel
    have hfall : (lastStand.afterRounds 1).map (·.2.playerAlive) = .ok false := by decide +kernel
    -- no round is played after the one in which the hero falls
    have hle : m ≤ 1 := by
      by_contra hmore
      obtain ⟨earlier, now, hearlier, hlives⟩ :=
        halive hplayer 1 Nat.one_pos (Nat.lt_of_not_le hmore)
      rw [hearlier] at hfall
      have hdead : now.playerAlive = false := Except.ok.inj hfall
      rw [hdead] at hlives
      cases hlives
    obtain ⟨-, hpos, hdead⟩ := hshort (by omega)
    obtain rfl : m = 1 := by omega
    exact ⟨_, g', hplay, hrounds, hdead⟩
  · obtain ⟨first, g₁, hfirst, hgo⟩ := (play_splits hambush).1 2 3
    have hlives : ((ofAmbush .wanderer).play 2).map (·.1.playerAlive) = .ok true := by
      decide +kernel
    rw [hfirst] at hlives
    obtain ⟨second, g₂, hsecond, hboth⟩ := hgo (Or.inl (Except.ok.inj hlives))
    exact ⟨first, second, g₁, g₂, hfirst, hsecond, hboth⟩

end Delve.Game

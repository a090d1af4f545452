import Delve.Proofs.Brain.Temper
import Delve.Proofs.Game.Round
import Delve.Simulation.Play
/-!
# The account of an actor

What an actor with a ready-made brain gains in energy it pays out in turns, to the last unit: over
any number of rounds its turns at their price and the energy that it has left add up to what it had
and what it has gained. So its speed alone says how many turns it gets, whatever others do to it
and whatever its brain decides.
-/

namespace Delve

/-! ## 1. Ready-made brains in a game -/

/-- A ready-made brain, or what has become of one. -/
def Brain.IsReadyMade (b : Brain) : Prop :=
  (∃ (temper : Temper) (rules : Rules), (temper.brain rules).Becomes b) ∨
    Brain.wanderer.Becomes b

theorem Brain.IsReadyMade.turns_le_one {b : Brain} (h : b.IsReadyMade) :
    ∀ p ∈ b.prospects, p.turns ≤ 1 := by
  rcases h with ⟨temper, rules, hbecomes⟩ | hbecomes
  · rw [prospects_of_becomes hbecomes]
    exact temper.turns_le_one rules
  · rw [prospects_of_becomes hbecomes]
    decide

namespace Game

variable {g g' : Game} {id : ActorId} {a : Actor}

/-- A living actor that is not the player and has a brain that pays for one turn at a time. -/
structure Steady (g : Game) (id : ActorId) (a : Actor) : Prop where
  actor_eq : g.scene.world.actor? id = some a
  alive : a.isAlive = true
  bounded : a.hp.current ≤ a.hp.maximum
  stranger : g.scene.world.playerId ≠ some id
  brain : ∃ b, g.brain? id = some b ∧ ∀ p ∈ b.prospects, p.turns ≤ 1

theorem Steady.spared (h : g.Steady id a) (hspares : g.Spares id g') : g'.Steady id a where
  actor_eq := (hspares.actor_eq h.stranger).trans h.actor_eq
  alive := h.alive
  bounded := h.bounded
  stranger := hspares.stranger h.stranger
  brain := by
    rw [hspares.brain_eq]
    exact h.brain

theorem Steady.energy_eq (h : g.Steady id a) : g.energy id = a.energy.toNat := by
  rw [energy, Brain.funds, Brain.energy?, h.actor_eq]
  rfl

/-- The actor in the course of a round, after `turns` more turns. All that it has paid is the price
of these turns. -/
structure Settled (id : ActorId) (a : Actor) (turns : Nat) (g g' : Game) (a' : Actor) : Prop where
  steady : g'.Steady id a'
  stats_eq : a'.stats = a.stats
  missed_eq : a'.missed = a.missed
  balance : turns * g.price + a'.energy.toNat = a.energy.toNat

/-- The actor's own turns. -/
theorem actFor_settled (hg : g.Sound) (ha : g.Steady id a) :
    ∃ outcomes g' a', g.actFor id = .ok (outcomes, g') ∧ g.Acted [id] outcomes g' ∧
      Settled id a (turnsOf id outcomes) g g' a' := by
  obtain ⟨b, hb, hsingle⟩ := ha.brain
  obtain ⟨statuses, b', s', htake, hturns⟩ :=
    b.takeTurns_turns id hg.seated hg.knowsPlayer hg.fair hg.price_pos
  have halive : (g.scene.world.actor? id).any (·.isAlive) = true := by
    rw [ha.actor_eq]
    exact ha.alive
  have hown := hturns.touched.world.own
  rw [ha.actor_eq] at hown
  obtain ⟨a', ha', hremains⟩ := exists_of_some_rel hown
  have hsteady : Steady { g with scene := s', brains := g.brains.insert id b' } id a' := by
    refine ⟨ha', hremains.isAlive ha.alive ha.bounded, (hremains.hp_kept ha.bounded).2, ?_, b',
      ?_, ?_⟩
    · show s'.world.playerId ≠ some id
      rw [hturns.touched.world.playerId_eq]
      exact ha.stranger
    · exact (getElem?_insert_eq_ite _ _ _ _).trans (if_pos rfl)
    · rwa [Brain.prospects_of_becomes hturns.becomes]
  have hcost := hturns.cost_eq hsingle
  have hbefore : Brain.funds g.scene id = a.energy.toNat := ha.energy_eq
  have hleft : Brain.funds s' id = a'.energy.toNat := hsteady.energy_eq
  rw [hbefore, hleft] at hcost
  refine ⟨_, _, a', actFor_of_alive halive hb htake, acted_of_turns hg hturns, hsteady,
    hremains.stats_eq, hremains.missed_eq, ?_⟩
  rw [turnsOf_map]
  exact hcost

theorem Settled.spared {a' : Actor} {turns : Nat} {g'' : Game} (h : Settled id a turns g g' a')
    (hspares : g'.Spares id g'') : Settled id a turns g g'' a' :=
  ⟨h.steady.spared hspares, h.stats_eq, h.missed_eq, h.balance⟩

/-- By induction on the actors that are still to act: those before and those after the actor do not
count, and it has its own turns in between. -/
theorem actInOrder_settled (ids : List ActorId) (hnodup : ids.Nodup) (hid : id ∈ ids) {g : Game}
    (hg : g.Sound) (ha : g.Steady id a) (hbrains : ∀ i ∈ ids, ∃ b, g.brain? i = some b) :
    ∃ outcomes g' a', g.actInOrder ids = .ok (outcomes, g') ∧ g.Acted ids outcomes g' ∧
      Settled id a (turnsOf id outcomes) g g' a' := by
  induction ids generalizing g with
  | nil => nomatch hid
  | cons j ids ih =>
    obtain ⟨hj, hnodup⟩ := List.nodup_cons.mp hnodup
    by_cases hown : j = id
    · -- the actor acts itself, and then it is left alone
      subst hown
      obtain ⟨first, g', a', hfirst, hacted, hsettled⟩ := actFor_settled hg ha
      obtain ⟨later, g'', hlater, hacted'⟩ :=
        actInOrder_acted ids hnodup hacted.sound (hacted.brains_kept hj hbrains)
      refine ⟨_, _, a', actInOrder_cons hfirst hlater, hacted.cons hacted' hj, ?_⟩
      rw [turnsOf_append, hacted'.turnsOf_eq_zero hj, Nat.add_zero]
      exact hsettled.spared (hacted'.spares j hj)
    · -- somebody else acts before it
      obtain ⟨b, hb⟩ := hbrains j List.mem_cons_self
      obtain ⟨first, g', hfirst, hacted⟩ := actFor_acted hg hb
      have hother : id ∉ [j] := List.mem_singleton.not.mpr (Ne.symm hown)
      have hlast : id ∈ ids := (List.mem_cons.mp hid).resolve_left (Ne.symm hown)
      obtain ⟨later, g'', a', hlater, hacted', hsettled⟩ := ih hnodup hlast hacted.sound
        (ha.spared (hacted.spares id hother)) (hacted.brains_kept hj hbrains)
      refine ⟨_, _, a', actInOrder_cons hfirst hlater, hacted.cons hacted' hj, ?_⟩
      have hbalance := hsettled.balance
      rw [price, hacted.rules_eq] at hbalance
      rw [turnsOf_append, hacted.turnsOf_eq_zero hother, Nat.zero_add]
      exact ⟨hsettled.steady, hsettled.stats_eq, hsettled.missed_eq, hbalance⟩

/-! ## 2. One round -/

theorem Steady.mem_brains (h : g.Steady id a) : id ∈ g.brains := by
  obtain ⟨b, hb, -⟩ := h.brain
  exact mem_of_getElem?_eq_some hb

theorem Steady.opened (h : g.Steady id a) :
    g.opened.Steady id (a.gainEnergy g.scene.rules.turnTick) := by
  obtain ⟨missed, energy, heq⟩ := Actor.gainEnergy_eq a g.scene.rules.turnTick
  refine ⟨?_, ?_, ?_, ?_, h.brain⟩
  · rw [Game.opened, actor_gainEnergy, if_pos h.mem_brains, h.actor_eq]
    rfl
  · rw [heq]
    exact h.alive
  · rw [heq]
    exact h.bounded
  · rw [Game.opened, Game.gainEnergy, playerId_foldl_modifyActor]
    exact h.stranger

/-- The actor after a round: what it has gained is what it has paid and what it has left, which is
less than the price of a turn. -/
theorem round_settled (hg : g.Sound) (ha : g.Steady id a) :
    ∃ outcomes g' a', g.round = .ok (outcomes, g') ∧ g'.Sound ∧ g'.scene.rules = g.scene.rules ∧
      Settled id (a.gainEnergy g.scene.rules.turnTick) (turnsOf id outcomes) g g' a' ∧
      a'.energy.toNat < g.price := by
  have hmem : id ∈ g.brainIds := mem_brainIds.mpr ha.mem_brains
  obtain ⟨outcomes, g', a', hround, hacted, hsettled⟩ := actInOrder_settled g.brainIds
    Std.ExtTreeMap.nodup_keys hmem hg.opened ha.opened g.exists_brain
  have hspent := hacted.isReady_eq id hmem
  have hshort := energy_lt_of_not_isReady hspent hsettled.steady.actor_eq hsettled.steady.alive
  rw [hacted.rules_eq] at hshort
  exact ⟨outcomes, g', a', hround, hacted.sound, hacted.rules_eq,
    ⟨hsettled.steady, hsettled.stats_eq, hsettled.missed_eq, hsettled.balance⟩,
    UInt32.lt_iff_toNat_lt.mp hshort⟩

/-! ## 3. Many rounds -/

/-- The outcomes of `n` rounds in a row, with the game after them. -/
def afterRounds (g : Game) : Nat → Except Fault (List Outcome × Game)
  | 0 => .ok ([], g)
  | n + 1 => do
    let (earlier, g) ← g.afterRounds n
    let (latest, g) ← g.round
    return (earlier ++ latest, g)

/-- The rounds can as well be counted from the first one on. -/
theorem afterRounds_succ_eq (g : Game) (n : Nat) :
    g.afterRounds (n + 1) = g.round.bind fun first ↦
      (first.2.afterRounds n).map fun later ↦ (first.1 ++ later.1, later.2) := by
  induction n with
  | zero =>
    simp only [afterRounds, bind, Except.bind, pure, Except.pure, Except.map, List.nil_append,
      List.append_nil]
  | succ n ih =>
    rw [afterRounds, ih]
    cases g.round with
    | error e => rfl
    | ok first =>
      simp only [bind, Except.bind, afterRounds]
      cases first.2.afterRounds n with
      | error e => rfl
      | ok later =>
        simp only [Except.map]
        cases later.2.round with
        | error e => rfl
        | ok last => simp only [pure, Except.pure, List.append_assoc]

/-- A game that is played without a guard is played round by round, and its turns are counted. -/
theorem playRounds_eq (n : Nat) (g : Game) :
    playRounds false n g = (g.afterRounds n).map fun played ↦ (played.1.length, played.2) := by
  induction n generalizing g with
  | zero => rfl
  | succ n ih =>
    rw [playRounds, afterRounds_succ_eq]
    cases g.round with
    | error e => rfl
    | ok first =>
      simp only [bind, Except.bind, Bool.false_and, Bool.false_eq_true, ↓reduceIte, ih]
      cases first.2.afterRounds n with
      | error e => rfl
      | ok later => simp only [Except.map, pure, Except.pure, List.length_append]

/-- The books of an actor after `n` rounds with `turns` turns in all. -/
structure Booked (id : ActorId) (a : Actor) (g : Game) (n turns : Nat) (g' : Game) (a' : Actor) :
    Prop where
  sound : g'.Sound
  rules_eq : g'.scene.rules = g.scene.rules
  steady : g'.Steady id a'
  stats_eq : a'.stats = a.stats
  missed_eq : a'.missed.toNat = n % a.period
  balance : turns * g.price + a'.energy.toNat =
    a.energy.toNat + n / a.period * (a.rate * g.scene.rules.turnTick.toNat)
  energy_le : a'.energy.toNat ≤ max a.energy.toNat g.price
  energy_lt : 0 < n → a'.energy.toNat < g.price

theorem Booked.zero (hg : g.Sound) (ha : g.Steady id a) (hmissed : a.missed = 0) :
    Booked id a g 0 0 g a where
  sound := hg
  rules_eq := rfl
  steady := ha
  stats_eq := rfl
  missed_eq := by
    rw [hmissed, Nat.zero_mod]
    rfl
  balance := by simp
  energy_le := Nat.le_max_left _ _
  energy_lt h := absurd h (Nat.lt_irrefl 0)

/-- One more round adds its turns and, if it ends a period, its gain to the books. -/
theorem Booked.round {n turns : Nat} {a' : Actor} (h : Booked id a g n turns g' a')
    (hspeed : a.stats.speed.toInt < 2 ^ 31 - 1)
    (hroom : max a.energy.toNat g.price + a.rate * g.scene.rules.turnTick.toNat < 2 ^ 32) :
    ∃ latest g'' a'', g'.round = .ok (latest, g'') ∧
      Booked id a g (n + 1) (turns + turnsOf id latest) g'' a'' := by
  obtain ⟨latest, g'', a'', hround, hsound, hrules, hsettled, hshort⟩ := round_settled h.sound h.steady
  have hperiod : a'.period = a.period := by rw [Actor.period, Actor.period, h.stats_eq]
  have hrate : a'.rate = a.rate := by rw [Actor.rate, Actor.rate, h.stats_eq]
  -- what is left from earlier rounds is little enough for the gain to fit the word
  have hafford : a'.energy.toNat + a'.rate * g'.scene.rules.turnTick.toNat < 2 ^ 32 := by
    have hle := h.energy_le
    rw [hrate, h.rules_eq]
    omega
  obtain ⟨hcount, hgain⟩ := Actor.gainEnergy_count (h.stats_eq ▸ hspeed) (hperiod ▸ h.missed_eq)
    hafford
  rw [hperiod, hrate, h.rules_eq] at hgain
  rw [hperiod] at hcount
  have hbalance := hsettled.balance
  rw [price, h.rules_eq] at hbalance hshort
  refine ⟨latest, g'', a'', hround, hsound, hrules.trans h.rules_eq, hsettled.steady, ?_, ?_, ?_, ?_,
    fun _ ↦ hshort⟩
  · obtain ⟨_, _, heq⟩ := Actor.gainEnergy_eq a' g'.scene.rules.turnTick
    rw [hsettled.stats_eq, heq, h.stats_eq]
  · rw [hsettled.missed_eq, hcount]
  · have hold := h.balance
    rw [price] at hold ⊢
    rw [Nat.add_mul]
    omega
  · exact Nat.le_trans (Nat.le_of_lt hshort) (Nat.le_max_right _ _)

end Game

end Delve

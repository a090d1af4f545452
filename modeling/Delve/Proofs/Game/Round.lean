import Delve.Game
import Delve.Proofs.Brain.Turns
import Delve.Proofs.Energy
/-!
# Rounds

In a round the actors act one after another, each of them until its energy is spent. What an actor
does leaves the energy of the others alone, so nobody who has acted is ready again when the round
ends, and nobody gets more turns than its energy pays for. Every round comes to an end, whatever
the brains.
-/

namespace Delve.Game

/-! ## 1. Games and outcomes -/

/-- What the turn order relies on. -/
structure Sound (g : Game) : Prop where
  seated : g.scene.world.Seated
  knowsPlayer : g.scene.world.KnowsPlayer
  fair : g.scene.rules.Fair
  /-- Turns are not for free. -/
  price_pos : 0 < g.scene.rules.turnReady

/-- The price of a turn. -/
def price (g : Game) : Nat := g.scene.rules.turnReady.toNat

def energy (g : Game) (id : ActorId) : Nat := Brain.funds g.scene id

def isReady (g : Game) (id : ActorId) : Bool := (g.scene.focusOn id).isReady

/-- How many of the outcomes are those of one actor. -/
def turnsOf (id : ActorId) (outcomes : List Outcome) : Nat := outcomes.countP (·.actor = id)

variable {g g' g'' : Game} {id i : ActorId} {ids : List ActorId}
  {outcomes first later : List Outcome}

@[simp] theorem turnsOf_nil (id : ActorId) : turnsOf id [] = 0 := rfl

@[simp] theorem turnsOf_append (id : ActorId) (first later : List Outcome) :
    turnsOf id (first ++ later) = turnsOf id first + turnsOf id later :=
  List.countP_append

theorem turnsOf_eq_zero (h : ∀ o ∈ outcomes, o.actor ≠ id) : turnsOf id outcomes = 0 := by
  apply List.countP_eq_zero.mpr
  intro o ho
  simpa using h o ho

theorem turnsOf_map (id : ActorId) (statuses : List Status) :
    turnsOf id (statuses.map (Outcome.mk id)) = statuses.length := by
  rw [← List.length_map (f := Outcome.mk id)]
  apply List.countP_eq_length.mpr
  intro o ho
  obtain ⟨status, -, rfl⟩ := List.mem_map.mp ho
  exact decide_eq_true rfl

/-! ## 2. What others do to an actor -/

/-- The game later on, after doings of others than the actor `i`. The actor has its brain and its
energy; if it is the player, it may have been hurt. -/
structure Spares (i : ActorId) (g g' : Game) : Prop where
  wounded : Option.Rel Actor.Wounded (g.scene.world.actor? i) (g'.scene.world.actor? i)
  actor_eq : g.scene.world.playerId ≠ some i → g'.scene.world.actor? i = g.scene.world.actor? i
  stranger : g.scene.world.playerId ≠ some i → g'.scene.world.playerId ≠ some i
  brain_eq : g'.brain? i = g.brain? i

theorem Spares.refl (i : ActorId) (g : Game) : g.Spares i g :=
  ⟨rel_refl Actor.Wounded.refl _, fun _ ↦ rfl, id, rfl⟩

theorem Spares.trans (h : g.Spares i g') (h' : g'.Spares i g'') : g.Spares i g'' where
  wounded := rel_trans (r := Actor.Wounded) (fun _ _ _ ↦ .trans) h.wounded h'.wounded
  actor_eq hother := (h'.actor_eq (h.stranger hother)).trans (h.actor_eq hother)
  stranger hother := h'.stranger (h.stranger hother)
  brain_eq := h'.brain_eq.trans h.brain_eq

theorem Spares.energy_eq (h : g.Spares i g') : g'.energy i = g.energy i := by
  have hwounded := h.wounded
  unfold energy Brain.funds Brain.energy?
  revert hwounded
  generalize g.scene.world.actor? i = before
  generalize g'.scene.world.actor? i = after
  intro hwounded
  cases hwounded with
  | none => rfl
  | some hwound =>
    obtain ⟨_, -, rfl⟩ := hwound
    rfl

/-- Whoever is alive and not ready cannot pay for a turn. -/
theorem energy_lt_of_not_isReady {a : Actor} (h : g.isReady id = false)
    (ha : g.scene.world.actor? id = some a) (halive : a.isAlive = true) :
    a.energy < g.scene.rules.turnReady := by
  have h : (g.scene.world.actor? id).any (·.canAct g.scene.rules.turnReady) = false := h
  rw [ha] at h
  have h : a.canAct g.scene.rules.turnReady = false := h
  rw [Actor.canAct, halive, Bool.true_and, decide_eq_false_iff_not] at h
  exact UInt32.not_le.mp h

theorem Spares.isReady_eq (h : g.Spares i g') (hrules : g'.scene.rules = g.scene.rules)
    (hready : g.isReady i = false) : g'.isReady i = false := by
  have hwounded := h.wounded
  have hready : (g.scene.world.actor? i).any (·.canAct g.scene.rules.turnReady) = false := hready
  show (g'.scene.world.actor? i).any (·.canAct g'.scene.rules.turnReady) = false
  rw [hrules]
  revert hwounded hready
  generalize g.scene.world.actor? i = before
  generalize g'.scene.world.actor? i = after
  intro hwounded hready
  cases hwounded with
  | none => rfl
  | some hwound => exact Bool.eq_false_iff.mpr (mt hwound.canAct_of (Bool.eq_false_iff.mp hready))

/-! ## 3. Acting in order -/

/-- What has come of letting some actors act, one after another. -/
structure Acted (ids : List ActorId) (g : Game) (outcomes : List Outcome) (g' : Game) : Prop where
  sound : g'.Sound
  rules_eq : g'.scene.rules = g.scene.rules
  spares : ∀ i ∉ ids, g.Spares i g'
  actor_mem : ∀ o ∈ outcomes, o.actor ∈ ids
  cost_le : ∀ i, turnsOf i outcomes * g.price + g'.energy i ≤ g.energy i
  isReady_eq : ∀ i ∈ ids, g'.isReady i = false
  ordered : ids.Pairwise (·.number < ·.number) →
    outcomes.Pairwise fun o o' ↦ o.actor.number ≤ o'.actor.number

theorem Acted.turnsOf_eq_zero (h : g.Acted ids outcomes g') (hid : id ∉ ids) :
    turnsOf id outcomes = 0 := by
  apply Game.turnsOf_eq_zero
  rintro o ho rfl
  exact hid (h.actor_mem o ho)

theorem Acted.nil (hg : g.Sound) : g.Acted [] [] g where
  sound := hg
  rules_eq := rfl
  spares i _ := .refl i g
  actor_mem _ h := nomatch h
  cost_le i := by simp
  isReady_eq _ h := nomatch h
  ordered _ := .nil

/-- Whoever acts later leaves alone who has acted before. -/
theorem Acted.cons (h : g.Acted [id] first g') (h' : g'.Acted ids later g'') (hid : id ∉ ids) :
    g.Acted (id :: ids) (first ++ later) g'' where
  sound := h'.sound
  rules_eq := h'.rules_eq.trans h.rules_eq
  spares i hi := by
    rw [List.mem_cons, not_or] at hi
    exact (h.spares i (List.mem_singleton.not.mpr hi.1)).trans (h'.spares i hi.2)
  actor_mem o ho := by
    rw [List.mem_append] at ho
    rcases ho with ho | ho
    · exact List.mem_cons.mpr (Or.inl (List.mem_singleton.mp (h.actor_mem o ho)))
    · exact List.mem_cons_of_mem id (h'.actor_mem o ho)
  cost_le i := by
    have hfirst := h.cost_le i
    have hlater := h'.cost_le i
    have hprice : g'.price = g.price := by rw [price, price, h.rules_eq]
    rw [hprice] at hlater
    rw [turnsOf_append, Nat.add_mul]
    omega
  isReady_eq i hi := by
    rcases List.mem_cons.mp hi with rfl | hi
    · -- nothing that happens later makes the first one ready again
      exact (h'.spares i hid).isReady_eq h'.rules_eq (h.isReady_eq i (List.mem_singleton_self i))
    · exact h'.isReady_eq i hi
  ordered hids := by
    rw [List.pairwise_cons] at hids
    rw [List.pairwise_append]
    refine ⟨h.ordered (List.pairwise_singleton _ id), h'.ordered hids.2, ?_⟩
    intro o ho o' ho'
    rw [List.mem_singleton.mp (h.actor_mem o ho)]
    exact UInt32.le_of_lt (hids.1 o'.actor (h'.actor_mem o' ho'))

theorem spares_of_touched {s' : Scene} {b' : Brain} (h : g.scene.TouchedBy id s') (hi : i ≠ id) :
    g.Spares i { g with scene := s', brains := g.brains.insert id b' } where
  wounded := by
    by_cases hplayer : g.scene.world.playerId = some i
    · exact h.world.player i hi hplayer
    · rw [h.world.others i hi hplayer]
      exact rel_refl Actor.Wounded.refl _
  actor_eq hother := h.world.others i hi hother
  stranger hother := by
    show s'.world.playerId ≠ some i
    rwa [h.world.playerId_eq]
  brain_eq := getElem?_insert_of_ne g.brains (Ne.symm hi) b'

/-- An actor that has taken turns. -/
theorem acted_of_turns {b b' : Brain} {s' : Scene} {statuses : List Status} (hg : g.Sound)
    (h : Brain.Turns id b g.scene statuses b' s') :
    g.Acted [id] (statuses.map (Outcome.mk id))
      { g with scene := s', brains := g.brains.insert id b' } where
  sound := by
    have hrules := h.touched.rules_eq
    exact ⟨h.seated, h.touched.world.knowsPlayer hg.knowsPlayer, hrules ▸ hg.fair,
      hrules ▸ hg.price_pos⟩
  rules_eq := h.touched.rules_eq
  spares i hi := spares_of_touched h.touched (List.mem_singleton.not.mp hi)
  actor_mem o ho := by
    obtain ⟨status, -, rfl⟩ := List.mem_map.mp ho
    exact List.mem_singleton_self id
  cost_le i := by
    by_cases hi : i = id
    · subst hi
      rw [turnsOf_map]
      exact h.cost_le
    · have hnone : turnsOf i (statuses.map (Outcome.mk id)) = 0 := by
        apply turnsOf_eq_zero
        intro o ho
        obtain ⟨status, -, rfl⟩ := List.mem_map.mp ho
        exact Ne.symm hi
      rw [hnone, Nat.zero_mul, Nat.zero_add, (spares_of_touched h.touched hi).energy_eq]
  isReady_eq i hi := by
    rw [List.mem_singleton.mp hi]
    exact h.isReady_eq
  ordered _ := by
    -- all outcomes are those of one actor
    rw [List.pairwise_map]
    exact List.pairwise_of_forall fun _ _ ↦ UInt32.le_refl _

theorem removeActor_world (g : Game) (id : ActorId) :
    (g.removeActor id).2.scene.world =
      (g.scene.world.actor? id).elim g.scene.world (g.scene.world.vacate id) := by
  cases ha : g.scene.world.actor? id with
  | none =>
    show (g.scene.world.removeActor? id).elim g.scene.world (·.2) = _
    rw [World.removeActor?, ha]
    rfl
  | some a =>
    show (g.scene.world.removeActor? id).elim g.scene.world (·.2) = _
    rw [World.removeActor_of_some ha]
    rfl

/-- What is true of the world, and of it without the actor, is true of the world after a removal. -/
theorem removeActor_world_cases {P : World → Prop} (hworld : P g.scene.world)
    (hvacate : ∀ a, g.scene.world.actor? id = some a → P (g.scene.world.vacate id a)) :
    P (g.removeActor id).2.scene.world := by
  rw [removeActor_world]
  cases ha : g.scene.world.actor? id with
  | none => exact hworld
  | some a => exact hvacate a ha

theorem actor_removeActor (g : Game) (id i : ActorId) :
    (g.removeActor id).2.scene.world.actor? i =
      if i = id then none else g.scene.world.actor? i := by
  rw [removeActor_world]
  cases ha : g.scene.world.actor? id with
  | none =>
    show g.scene.world.actor? i = _
    split
    · rename_i hi
      rw [hi, ha]
    · rfl
  | some a =>
    show (g.scene.world.actors.erase id)[i]? = _
    rw [getElem?_erase_eq_ite]
    simp only [eq_comm]
    rfl

theorem spares_of_removal (hi : i ≠ id) : g.Spares i (g.removeActor id).2 where
  wounded := by
    rw [actor_removeActor, if_neg hi]
    exact rel_refl Actor.Wounded.refl _
  actor_eq _ := by rw [actor_removeActor, if_neg hi]
  stranger hother := by
    rw [removeActor_world]
    cases g.scene.world.actor? id with
    | none => exact hother
    | some a =>
      show (if g.scene.world.playerId = some id then none else g.scene.world.playerId) ≠ some i
      split
      · exact fun h ↦ nomatch h
      · exact hother
  brain_eq := getElem?_erase_of_ne g.brains (Ne.symm hi)

/-- An actor that has left the game. -/
theorem acted_of_removal (hg : g.Sound) (id : ActorId) : g.Acted [id] [] (g.removeActor id).2 where
  sound := ⟨removeActor_world_cases hg.seated fun _ ha ↦ hg.seated.vacate ha,
    removeActor_world_cases hg.knowsPlayer fun _ _ ↦ hg.knowsPlayer.vacate, hg.fair, hg.price_pos⟩
  rules_eq := rfl
  spares i hi := spares_of_removal (List.mem_singleton.not.mp hi)
  actor_mem _ h := nomatch h
  cost_le i := by
    rw [turnsOf_nil, Nat.zero_mul, Nat.zero_add]
    by_cases hi : i = id
    · subst hi
      rw [energy, Brain.funds, Brain.energy?, actor_removeActor, if_pos rfl]
      exact Nat.zero_le _
    · rw [(spares_of_removal hi).energy_eq]
  isReady_eq i hi := by
    rw [List.mem_singleton.mp hi]
    show ((g.removeActor id).2.scene.world.actor? id).any _ = false
    rw [actor_removeActor, if_pos rfl]
    rfl
  ordered _ := .nil

theorem actFor_of_alive {b b' : Brain} {s' : Scene} {statuses : List Status}
    (halive : (g.scene.world.actor? id).any (·.isAlive) = true) (hb : g.brain? id = some b)
    (htake : b.takeTurns id g.scene = .ok (statuses, b', s')) :
    g.actFor id = .ok (statuses.map (Outcome.mk id),
      { g with scene := s', brains := g.brains.insert id b' }) := by
  unfold actFor
  simp only [halive, ↓reduceIte, hb, htake, bind, Except.bind, pure, Except.pure]

theorem actFor_of_not_alive (h : (g.scene.world.actor? id).any (·.isAlive) = false) :
    g.actFor id = .ok ([], (g.removeActor id).2) := by
  unfold actFor
  simp only [h, Bool.false_eq_true, ↓reduceIte, pure, Except.pure]

/-- An actor that has a brain acts while its energy lasts or leaves the game, and comes to an end
with that. -/
theorem actFor_acted (hg : g.Sound) {b : Brain} (hb : g.brain? id = some b) :
    ∃ outcomes g', g.actFor id = .ok (outcomes, g') ∧ g.Acted [id] outcomes g' := by
  cases halive : (g.scene.world.actor? id).any (·.isAlive) with
  | true =>
    obtain ⟨statuses, b', s', htake, hturns⟩ :=
      b.takeTurns_turns id hg.seated hg.knowsPlayer hg.fair hg.price_pos
    exact ⟨_, _, actFor_of_alive halive hb htake, acted_of_turns hg hturns⟩
  | false => exact ⟨_, _, actFor_of_not_alive halive, acted_of_removal hg id⟩

/-- Those who are still to act keep their brains. -/
theorem Acted.brains_kept (h : g.Acted [id] first g') (hid : id ∉ ids)
    (hbrains : ∀ i ∈ id :: ids, ∃ b, g.brain? i = some b) :
    ∀ i ∈ ids, ∃ b, g'.brain? i = some b := by
  intro i hi
  have hne : i ≠ id := by
    rintro rfl
    exact hid hi
  rw [(h.spares i (List.mem_singleton.not.mpr hne)).brain_eq]
  exact hbrains i (List.mem_cons_of_mem id hi)

theorem actInOrder_cons (hfirst : g.actFor id = .ok (first, g'))
    (hlater : g'.actInOrder ids = .ok (later, g'')) :
    g.actInOrder (id :: ids) = .ok (first ++ later, g'') := by
  rw [actInOrder, hfirst]
  simp only [bind, Except.bind, hlater]
  rfl

/-- What none of them breaks by acting or leaving, the actors do not break one after another. -/
theorem actInOrder_comesTo {P : Game → Prop} {E : Fault → Prop} (ids : List ActorId)
    (h : ∀ id ∈ ids, ∀ {g : Game}, P g → (g.actFor id).ComesTo (fun r ↦ P r.2) E) (hg : P g) :
    (g.actInOrder ids).ComesTo (fun r ↦ P r.2) E := by
  induction ids generalizing g with
  | nil => exact hg
  | cons id ids ih =>
    refine (h id List.mem_cons_self hg).bind fun first hfirst ↦ ?_
    exact (ih (fun i hi ↦ h i (List.mem_cons_of_mem id hi)) hfirst).bind fun _ hlater ↦ hlater

/-- By induction on the actors that are still to act. -/
theorem actInOrder_acted (ids : List ActorId) (hnodup : ids.Nodup) {g : Game} (hg : g.Sound)
    (hbrains : ∀ i ∈ ids, ∃ b, g.brain? i = some b) :
    ∃ outcomes g', g.actInOrder ids = .ok (outcomes, g') ∧ g.Acted ids outcomes g' := by
  induction ids generalizing g with
  | nil => exact ⟨_, _, rfl, .nil hg⟩
  | cons id ids ih =>
    obtain ⟨hid, hnodup⟩ := List.nodup_cons.mp hnodup
    obtain ⟨b, hb⟩ := hbrains id List.mem_cons_self
    obtain ⟨first, g', hfirst, hacted⟩ := actFor_acted hg hb
    obtain ⟨later, g'', hlater, hacted'⟩ := ih hnodup hacted.sound (hacted.brains_kept hid hbrains)
    exact ⟨_, _, actInOrder_cons hfirst hlater, hacted.cons hacted' hid⟩

/-! ## 4. Rounds -/

/-- Every actor of a list, in which none is named twice, changes once. -/
theorem actor_foldl_modifyActor (change : Actor → Actor) (ids : List ActorId) (hnodup : ids.Nodup)
    (w : World) (i : ActorId) :
    (ids.foldl (fun w id ↦ w.modifyActor id change) w).actor? i =
      if i ∈ ids then (w.actor? i).map change else w.actor? i := by
  induction ids generalizing w with
  | nil => rfl
  | cons id ids ih =>
    obtain ⟨hid, hnodup⟩ := List.nodup_cons.mp hnodup
    rw [List.foldl_cons, ih hnodup, World.actor_modifyActor]
    by_cases hi : i = id
    · subst hi
      rw [if_neg hid, if_pos rfl, if_pos List.mem_cons_self]
    · have hmem : i ∈ id :: ids ↔ i ∈ ids := by
        rw [List.mem_cons, or_iff_right hi]
      simp only [hmem, if_neg (Ne.symm hi)]

theorem durable_foldl_modifyActor {P : World → Prop} (hP : World.Durable P)
    {change : Actor → Actor} (hposition : ∀ a, (change a).position = a.position)
    (ids : List ActorId) {w : World} (h : P w) :
    P (ids.foldl (fun w id ↦ w.modifyActor id change) w) := by
  induction ids generalizing w with
  | nil => exact h
  | cons id ids ih => exact ih (hP.modifyActor h fun a _ ↦ hposition a)

theorem playerId_foldl_modifyActor (change : Actor → Actor) (ids : List ActorId) (w : World) :
    (ids.foldl (fun w id ↦ w.modifyActor id change) w).playerId = w.playerId := by
  induction ids generalizing w with
  | nil => rfl
  | cons id ids ih =>
    rw [List.foldl_cons, ih, World.playerId_modifyActor]

theorem actor_gainEnergy (g : Game) (i : ActorId) :
    g.gainEnergy.scene.world.actor? i =
      if i ∈ g.brains then (g.scene.world.actor? i).map (·.gainEnergy g.scene.rules.turnTick)
      else g.scene.world.actor? i := by
  simp only [← Std.ExtTreeMap.mem_keys (k := i)]
  exact actor_foldl_modifyActor _ g.brainIds Std.ExtTreeMap.nodup_keys g.scene.world i

theorem durable_gainEnergy {P : World → Prop} (hP : World.Durable P) (h : P g.scene.world) :
    P g.gainEnergy.scene.world := by
  refine durable_foldl_modifyActor hP (fun a ↦ ?_) g.brainIds h
  obtain ⟨_, _, heq⟩ := Actor.gainEnergy_eq a g.scene.rules.turnTick
  rw [heq]

theorem knowsPlayer_gainEnergy (h : g.scene.world.KnowsPlayer) :
    g.gainEnergy.scene.world.KnowsPlayer := by
  have hplayer : g.gainEnergy.scene.world.playerId = g.scene.world.playerId :=
    playerId_foldl_modifyActor _ g.brainIds g.scene.world
  intro a ha
  obtain ⟨i, hi, hactor⟩ := Option.bind_eq_some_iff.mp ha
  rw [hplayer] at hi ⊢
  -- a gain does not change who an actor is
  have hold : ∃ c, g.scene.world.actor? i = some c ∧ a.id = c.id := by
    rw [actor_gainEnergy] at hactor
    split at hactor
    · obtain ⟨c, hc, rfl⟩ := Option.map_eq_some_iff.mp hactor
      obtain ⟨_, _, heq⟩ := Actor.gainEnergy_eq c g.scene.rules.turnTick
      exact ⟨c, hc, by rw [heq]⟩
    · exact ⟨a, hactor, rfl⟩
  obtain ⟨c, hc, hid⟩ := hold
  rw [hid]
  exact h c (Option.bind_eq_some_iff.mpr ⟨i, hi, hc⟩)

theorem Sound.gainEnergy (hg : g.Sound) : g.gainEnergy.Sound :=
  ⟨durable_gainEnergy World.seated_durable hg.seated, knowsPlayer_gainEnergy hg.knowsPlayer,
    hg.fair, hg.price_pos⟩

/-- The game at the beginning of a round, with what everybody gains in it. -/
def opened (g : Game) : Game := { g with rounds := g.rounds + 1 }.gainEnergy

theorem Sound.opened (hg : g.Sound) : g.opened.Sound := by
  have hcounted : { g with rounds := g.rounds + 1 }.Sound :=
    ⟨hg.seated, hg.knowsPlayer, hg.fair, hg.price_pos⟩
  exact hcounted.gainEnergy

theorem mem_brainIds : id ∈ g.brainIds ↔ id ∈ g.brains := Std.ExtTreeMap.mem_keys

theorem brainIds_ascending (g : Game) : g.brainIds.Pairwise (·.number < ·.number) := by
  refine List.Pairwise.imp ?_ Std.ExtTreeMap.ordered_keys
  intro i j hij
  exact compareOfLessAndEq_eq_lt.mp (show compareOfLessAndEq i.number j.number = .lt from hij)

theorem exists_brain (g : Game) : ∀ i ∈ g.brainIds, ∃ b, g.brain? i = some b := by
  intro i hi
  have hi : i ∈ g.brains := mem_brainIds.mp hi
  exact ⟨g.brains[i], Std.ExtTreeMap.getElem?_eq_some_getElem hi⟩

/-- After the gain of energy, every actor with a brain acts in its turn. -/
theorem round_acted (hg : g.Sound) :
    ∃ outcomes g', g.round = .ok (outcomes, g') ∧ g.opened.Acted g.brainIds outcomes g' :=
  actInOrder_acted g.brainIds Std.ExtTreeMap.nodup_keys hg.opened g.exists_brain

/-- Nobody gets a brain in a round. -/
theorem Acted.mem_brains (h : g.opened.Acted g.brainIds outcomes g') (hid : id ∈ g'.brains) :
    id ∈ g.brains := by
  by_contra hnew
  have hkept : g'.brains[id]? = g.brains[id]? := (h.spares id (mem_brainIds.not.mpr hnew)).brain_eq
  rw [Std.ExtTreeMap.getElem?_eq_none hnew, Std.ExtTreeMap.getElem?_eq_some_getElem hid] at hkept
  cases hkept

/-- Every round comes to an end, whatever the brains. Afterwards nobody who is alive can pay for
another turn; nobody has taken more turns than its energy after the gain pays for, since every
update that gives an actor a turn takes the price of one turn or more; and the outcomes are grouped
by actor, by ascending handle. -/
theorem round_progress (hg : g.Sound) :
    (∃ outcomes g', g.round = .ok (outcomes, g') ∧ (∀ id ∈ g'.brains, id ∈ g.brains) ∧
      (∀ id ∈ g.brains, ∀ a, g'.scene.world.actor? id = some a → a.isAlive = true →
        a.energy < g.scene.rules.turnReady) ∧
      (∀ id, turnsOf id outcomes ≤ g.gainEnergy.energy id / g.price) ∧
      outcomes.Pairwise fun o o' ↦ o.actor.number ≤ o'.actor.number) ∧
    ∀ (id : ActorId) (b b' : Brain) (s s' : Scene) (status : Status), s.world.Seated →
      s.world.KnowsPlayer → s.rules = g.scene.rules →
      b.update id s = .ok (some status, b', s') →
      Brain.funds s' id + g.price ≤ Brain.funds s id := by
  have hpos : 0 < g.price := UInt32.lt_iff_toNat_lt.mp hg.price_pos
  constructor
  · obtain ⟨outcomes, g', hround, hacted⟩ := round_acted hg
    refine ⟨outcomes, g', hround, fun _ hid ↦ hacted.mem_brains hid, ?_, ?_,
      hacted.ordered g.brainIds_ascending⟩
    · intro id hid a ha halive
      have hspent := hacted.isReady_eq id (mem_brainIds.mpr hid)
      have hshort := energy_lt_of_not_isReady hspent ha halive
      rwa [hacted.rules_eq] at hshort
    · intro id
      have hcost := hacted.cost_le id
      rw [Nat.le_div_iff_mul_le hpos]
      exact Nat.le_of_add_right_le hcost
  · intro id b b' s s' status hworld hplayer hrules hupdate
    cases hready : (s.focusOn id).isReady with
    | false =>
      rw [Brain.update_of_not_isReady hready] at hupdate
      cases hupdate
    | true =>
      obtain ⟨_, _, _, hsame, hturn⟩ := b.update_turn hworld hplayer (hrules ▸ hg.fair) hready
      rw [hupdate] at hsame
      cases hsame
      have hpaid := hturn.cost_le
      rw [hrules] at hpaid
      rw [Nat.add_comm]
      exact hpaid

/-- The ambush as a game in which the rat has a brain and the hero has none. -/
def ofAmbush (b : Brain) : Game where
  scene := ambush
  brains := (∅ : ActorMap Brain).insert ⟨1⟩ b
  rounds := 0

theorem ofAmbush_sound (b : Brain) : (ofAmbush b).Sound where
  seated := ambush_seated
  knowsPlayer := ambush_knowsPlayer
  fair := ambush_fair
  price_pos := by
    show 0 < ambush.rules.turnReady
    decide

/-- The rat has 250 after the gain, so it strikes twice and cannot pay for another blow. -/
theorem ofAmbush_progress :
    (ofAmbush (.of (.leaf (.attack none)))).Sound ∧
      ∃ outcomes g', (ofAmbush (.of (.leaf (.attack none)))).round = .ok (outcomes, g') ∧
        outcomes = [⟨⟨1⟩, .success⟩, ⟨⟨1⟩, .success⟩] ∧ g'.energy ⟨1⟩ = 50 ∧
        (∀ a, g'.scene.world.actor? ⟨1⟩ = some a → a.isAlive = true → a.energy < 100) ∧
        turnsOf ⟨1⟩ outcomes ≤ 250 / 100 := by
  have hsound := ofAmbush_sound (.of (.leaf (.attack none)))
  have hfunds : (ofAmbush (.of (.leaf (.attack none)))).gainEnergy.energy ⟨1⟩ = 250 := by
    decide +kernel
  have hround : (ofAmbush (.of (.leaf (.attack none)))).round.map
      (fun r ↦ (r.1, r.2.energy ⟨1⟩)) = .ok ([⟨⟨1⟩, .success⟩, ⟨⟨1⟩, .success⟩], 50) := by
    decide +kernel
  obtain ⟨⟨outcomes, g', hplayed, -, hspent, hturns, -⟩, -⟩ := round_progress hsound
  rw [hplayed] at hround
  obtain ⟨houtcomes, henergy⟩ := Prod.mk.inj (Except.ok.inj hround)
  have hturns := hturns ⟨1⟩
  rw [hfunds] at hturns
  exact ⟨hsound, outcomes, g', hplayed, houtcomes, henergy, hspent ⟨1⟩ (by decide +kernel), hturns⟩

end Delve.Game

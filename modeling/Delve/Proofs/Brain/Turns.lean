import Delve.Proofs.Brain.Origin
/-!
# Turn after turn

An actor that is given turn after turn pays for every one of them. The energy that it has at first
says how many turns it can get at most, and it is not ready any more when they come to an end. No
turn touches the energy of anybody else.
-/

namespace Delve.Brain

variable {id : ActorId} {b b' b'' : Brain} {s s' s'' : Scene} {status : Status}
  {statuses : List Status}

/-! ## 1. One turn -/

/-- What an update has done that gave the actor a turn. -/
structure Turn (id : ActorId) (b : Brain) (s : Scene) (b' : Brain) (s' : Scene) : Prop where
  becomes : b.Becomes b'
  touched : s.TouchedBy id s'
  seated : s'.world.Seated
  affordable : s.rules.turnReady.toNat ≤ funds s id
  cost : ∃ p ∈ b.prospects,
    funds s' id = funds s id - max 1 p.turns * s.rules.turnReady.toNat

theorem update_turn (b : Brain) (hworld : s.world.Seated) (hplayer : s.world.KnowsPlayer)
    (hfair : s.rules.Fair) (hready : (s.focusOn id).isReady = true) :
    ∃ status b' s', b.update id s = .ok (some status, b', s') ∧ Turn id b s b' s' := by
  obtain ⟨q, r, -, hact, htouched, hseated, -⟩ :=
    b.act_frame (inPlay_of_isReady hworld hfair hready) hplayer
  have hupdate := update_of_isReady hready hact
  obtain ⟨_, after, -, hsame, p, hp, -, hspends⟩ := b.update_spends hworld hfair hready
  -- both lemmas speak of the same update
  rw [hupdate, Except.ok.injEq, Prod.mk.injEq, Prod.mk.injEq] at hsame
  obtain ⟨-, -, rfl⟩ := hsame
  exact ⟨r.status, r.state, r.context, hupdate, .single ⟨id, s, _, _, hupdate⟩,
    (s.touchedBy_focusOn id id).trans htouched, hseated, turnReady_le_funds hready, p, hp,
    hspends.funds_eq⟩

/-- A turn is paid for, with the price of one turn or more. -/
theorem Turn.cost_le (h : Turn id b s b' s') :
    s.rules.turnReady.toNat + funds s' id ≤ funds s id := by
  obtain ⟨p, -, hcost⟩ := h.cost
  have hprice := h.affordable
  have hmore := Nat.le_mul_of_pos_left s.rules.turnReady.toNat (Nat.le_max_left 1 p.turns)
  omega

/-- A brain that never pays for more than one turn in the course of an evaluation pays for exactly
one. -/
theorem Turn.cost_eq (h : Turn id b s b' s') (hsingle : ∀ p ∈ b.prospects, p.turns ≤ 1) :
    s.rules.turnReady.toNat + funds s' id = funds s id := by
  obtain ⟨p, hp, hcost⟩ := h.cost
  have hprice := h.affordable
  rw [Nat.max_eq_left (hsingle p hp), Nat.one_mul] at hcost
  omega

/-! ## 2. Turns in a row -/

/-- What has been done by giving an actor turn after turn. -/
structure Turns (id : ActorId) (b : Brain) (s : Scene) (statuses : List Status) (b' : Brain)
    (s' : Scene) : Prop where
  becomes : b.Becomes b'
  touched : s.TouchedBy id s'
  seated : s'.world.Seated
  isReady_eq : (s'.focusOn id).isReady = false
  cost_le : statuses.length * s.rules.turnReady.toNat + funds s' id ≤ funds s id
  cost_eq : (∀ p ∈ b.prospects, p.turns ≤ 1) →
    statuses.length * s.rules.turnReady.toNat + funds s' id = funds s id

theorem Turns.nil (hworld : s.world.Seated) (hready : (s.focusOn id).isReady = false) :
    Turns id b s [] b (s.focusOn id) where
  becomes := .refl
  touched := s.touchedBy_focusOn id id
  seated := hworld
  isReady_eq := hready
  cost_le := by
    rw [List.length_nil, Nat.zero_mul, Nat.zero_add]
    exact Nat.le_refl _
  cost_eq _ := by
    rw [List.length_nil, Nat.zero_mul, Nat.zero_add]
    rfl

theorem Turns.cons (status : Status) (h : Turn id b s b' s')
    (h' : Turns id b' s' statuses b'' s'') : Turns id b s (status :: statuses) b'' s'' where
  becomes := h.becomes.trans h'.becomes
  touched := h.touched.trans h'.touched
  seated := h'.seated
  isReady_eq := h'.isReady_eq
  cost_le := by
    have hfirst := h.cost_le
    have hlater := h'.cost_le
    rw [h.touched.rules_eq] at hlater
    rw [List.length_cons, Nat.succ_mul]
    omega
  cost_eq hsingle := by
    have hfirst := h.cost_eq hsingle
    have hlater := h'.cost_eq (prospects_of_becomes h.becomes ▸ hsingle)
    rw [h.touched.rules_eq] at hlater
    rw [List.length_cons, Nat.succ_mul]
    omega

theorem takeTurns_of_none (h : b.update id s = .ok (none, b', s')) :
    b.takeTurns id s = .ok ([], b', s') := by
  rw [takeTurns, h]

/-- As long as a turn costs something, there is a next one to be asked for. -/
theorem takeTurns_of_some (h : b.update id s = .ok (some status, b', s'))
    (hless : funds s' id < funds s id) (hlater : b'.takeTurns id s' = .ok (statuses, b'', s'')) :
    b.takeTurns id s = .ok (status :: statuses, b'', s'') := by
  have hless : (energy? s' id).elim 0 (·.toNat) < (energy? s id).elim 0 (·.toNat) := hless
  rw [takeTurns, h]
  dsimp only
  rw [if_pos hless, hlater]

/-- By induction on the energy: whatever the brain, the turns come to an end, and they do so for
want of energy. -/
theorem takeTurns_turns (id : ActorId) (b : Brain) (hworld : s.world.Seated) (hplayer : s.world.KnowsPlayer)
    (hfair : s.rules.Fair) (hprice : 0 < s.rules.turnReady) :
    ∃ statuses b' s', b.takeTurns id s = .ok (statuses, b', s') ∧ Turns id b s statuses b' s' := by
  induction hfunds : funds s id using Nat.strong_induction_on generalizing b s with
  | _ n ih =>
    cases hready : (s.focusOn id).isReady with
    | false =>
      exact ⟨[], b, _, takeTurns_of_none (update_of_not_isReady hready), .nil hworld hready⟩
    | true =>
      obtain ⟨status, b', s', hupdate, hturn⟩ := b.update_turn hworld hplayer hfair hready
      have hrules := hturn.touched.rules_eq
      have hpaid := hturn.cost_le
      have hpos := UInt32.lt_iff_toNat_lt.mp hprice
      have hzero : (0 : UInt32).toNat = 0 := rfl
      -- every turn costs something, so there is less energy for the rest
      have hless : funds s' id < funds s id := by omega
      obtain ⟨later, b'', s'', hlater, hturns⟩ := ih (funds s' id) (hfunds ▸ hless) b' hturn.seated
        (hturn.touched.world.knowsPlayer hplayer) (hrules ▸ hfair) (hrules ▸ hprice) rfl
      exact ⟨status :: later, b'', s'', takeTurns_of_some hupdate hless hlater,
        .cons status hturn hturns⟩

end Delve.Brain

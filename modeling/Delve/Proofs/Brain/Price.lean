import Delve.Proofs.Brain.Journal
import Delve.Proofs.Brain.Prospect
/-!
# What a turn costs

A tick that succeeds has to be paid for, unless its task has only noted a cell or arrived at one.
An evaluation may tick more than one task, and each of them takes its own price. So a turn costs as
many prices as ticks were paid for in it, and one where there was none.
-/

namespace Delve

variable {s s' : Scene} {log : List (Tick Task Scene)}

/-! ## 1. Ticks with a price -/

instance Task.instDecidableIsFree : (t : Task) → (s : Scene) → Decidable (t.IsFree s)
  | .remember, _ => isTrue trivial
  | .goTo topic, s =>
    decidable_of_iff
      (s.position?.any (fun own ↦ s.memory.position? s.focus topic = some own) = true) (by
        simp [IsFree, Option.any_eq_true])
  | .idle, _ | .wander, _ | .retreat, _ | .chase _, _ | .attack _, _ | .drink _, _ | .pickUp _, _
  | .mineBlock, _ | .mineTunnel, _ => isFalse not_false

/-- Whether the actor has paid for a tick. -/
def Tick.IsPaid (t : Tick Task Scene) : Prop := t.status = .success ∧ ¬ t.task.IsFree t.before

instance (t : Tick Task Scene) : Decidable t.IsPaid := inferInstanceAs (Decidable (_ ∧ _))

def paidTicks (log : List (Tick Task Scene)) : Nat := log.countP (·.IsPaid)

theorem paidTicks_append_singleton (log : List (Tick Task Scene)) (t : Tick Task Scene) :
    paidTicks (log ++ [t]) = paidTicks log + if t.IsPaid then 1 else 0 := by
  simp [paidTicks, List.countP_append, List.countP_singleton]

/-- Ticks cost what is said to be paid for them. -/
theorem Task.Outcome.spends {t : Task} {status : Status} (hs : s.InPlay)
    (h : Task.Outcome t s status s') :
    s.Spends (if Tick.IsPaid ⟨t, s, status, s'⟩ then 1 else 0) s' := by
  cases h with
  | refused | givenUp | waiting =>
    rw [if_neg (by simp [Tick.IsPaid])]
    exact .of_world_eq hs rfl rfl rfl
  | noted task =>
    subst task
    rw [if_neg (fun hpaid ↦ hpaid.2 trivial)]
    exact .of_world_eq hs rfl rfl rfl
  | arrived _ free =>
    rw [if_neg (fun hpaid ↦ hpaid.2 free)]
    exact .of_world_eq hs rfl rfl rfl
  | done busy deed =>
    rw [if_pos ⟨rfl, busy⟩]
    exact deed.spends hs

/-- In the course of an evaluation the actor has spent the price of the ticks so far. -/
theorem spends_law (s : Scene) :
    LeafLaw (fun now log ↦ s.Spends (paidTicks log) now) fun _ ↦ False where
  tick t now log hspends := by
    obtain ⟨r, hr, houtcome⟩ := t.tick_outcome hspends.inPlay.seated hspends.inPlay.fair
    refine Except.comesTo_of_exists_ok ⟨r, hr, ?_⟩
    rw [paidTicks_append_singleton]
    exact hspends.trans (houtcome.spends hspends.inPlay)
  test sense now log hspends := by
    have hasked := hspends.trans (sense.spends_test hspends.inPlay)
    rwa [Nat.add_zero] at hasked

/-! ## 2. Turns -/

namespace Brain

variable {a : Actor} {id : ActorId}

theorem act_paid (b : Brain) (hs : s.InPlay) (hready : s.isReady = true) :
    ∃ r, b.act s = .ok r ∧ s.Spends (max 1 (paidTicks (b.ticksOfRun s))) r.context := by
  have hstart : s.Spends (paidTicks []) s := .of_world_eq hs rfl rfl rfl
  obtain ⟨r, hr, hspends⟩ := (run_law (spends_law s) b hstart).exists_ok
  obtain ⟨after, hact, hpaid⟩ := act_of_spends hs hready hr hspends
  exact ⟨_, hact, hpaid⟩

/-- A turn costs the price of every tick that was paid for in it, and never less than one price, as
far as the energy goes. So it costs exactly one price where no more than one tick was paid for, and
wherever the brain does not foresee that more of them are. -/
theorem update_cost (b : Brain) (hworld : s.world.Seated) (hfair : s.rules.Fair)
    (ha : s.world.actor? id = some a) (hready : a.canAct s.rules.turnReady = true) :
    ∃ status b' s' a', b.update id s = .ok (some status, b', s') ∧
      s'.world.actor? id = some a' ∧
      a'.energy.toNat =
        a.energy.toNat - max 1 (paidTicks (b.ticks id s)) * s.rules.turnReady.toNat ∧
      (paidTicks (b.ticks id s) ≤ 1 ∨ (∀ p ∈ b.prospects, p.turns ≤ 1) →
        a'.energy.toNat + s.rules.turnReady.toNat = a.energy.toNat) := by
  have hfocus : (s.focusOn id).actor? = some a := ha
  have hnow : (s.focusOn id).isReady = true := by
    rw [Scene.isReady, hfocus]
    exact hready
  have hplay := inPlay_of_isReady hworld hfair hnow
  obtain ⟨r, hact, hspends⟩ := b.act_paid hplay hnow
  obtain ⟨a', ha'⟩ := hspends.inPlay.present
  have hleft : funds r.context id = a'.energy.toNat := by
    rw [← funds_of_actor ha', hspends.focus_eq]
    rfl
  have hbefore : funds (s.focusOn id) id = a.energy.toNat := funds_of_actor hfocus
  have hprice := turnReady_le_funds hnow
  rw [funds_of_actor hfocus] at hprice
  have hprice : s.rules.turnReady.toNat ≤ a.energy.toNat := hprice
  have hticks : b.ticks id s = b.ticksOfRun (s.focusOn id) := if_pos hnow
  have hcost : a'.energy.toNat =
      a.energy.toNat - max 1 (paidTicks (b.ticks id s)) * s.rules.turnReady.toNat := by
    rw [hticks, ← hleft, ← hbefore]
    exact hspends.funds_eq
  refine ⟨_, _, _, a', update_of_isReady hnow hact, ?_, hcost, ?_⟩
  · rw [← ha', Scene.actor?, hspends.focus_eq]
    rfl
  · rintro (hone | hforeseen)
    · rw [Nat.max_eq_left hone, Nat.one_mul] at hcost
      omega
    · -- the same turn, as it was foreseen
      obtain ⟨_, after, -, hact', p, hp, -, hspends'⟩ := b.act_spends hplay hnow
      rw [hact, Except.ok.injEq] at hact'
      have hsame : r.context = after := by rw [hact']
      have hfunds := hspends'.funds_eq
      rw [← hsame, Nat.max_eq_left (hforeseen p hp), Nat.one_mul] at hfunds
      have hfunds : funds r.context id =
        funds (s.focusOn id) id - s.rules.turnReady.toNat := hfunds
      omega

end Brain

/-- A rat by itself, with the energy of two turns and a half. -/
def rested : Scene where
  focus := ⟨1⟩
  world := (World.ofExtent ⟨2, 1⟩).settle ⟨1⟩ { name := "rat", position := ⟨0, 0⟩, energy := 250 }
  memory := .empty
  dice := { seed := 7 }
  rules := {}

theorem rested_seated : rested.world.Seated :=
  (World.ofExtent_consistent ⟨2, 1⟩).toSeated.settle (by decide +kernel) (by decide +kernel)

theorem rested_rat : rested.world.actor? ⟨1⟩ =
    some { id := ⟨1⟩, name := "rat", position := ⟨0, 0⟩, energy := 250 } := by
  decide +kernel

/-- A brain that waits twice in one evaluation. -/
def idlingTwice : Brain := .of (.seq [.leaf .idle, .leaf .idle])

/-- Both ticks are paid for: the turn costs 200. -/
theorem rested_cost :
    rested.world.Seated ∧ rested.rules.Fair ∧
      ∃ status b' s' a', idlingTwice.update ⟨1⟩ rested = .ok (some status, b', s') ∧
        s'.world.actor? ⟨1⟩ = some a' ∧ paidTicks (idlingTwice.ticks ⟨1⟩ rested) = 2 ∧
        a'.energy.toNat = 50 := by
  have hfair : rested.rules.Fair := ⟨by decide, by decide⟩
  obtain ⟨status, b', s', a', hupdate, ha', hcost, -⟩ :=
    idlingTwice.update_cost rested_seated hfair rested_rat (by decide +kernel)
  have hticks : paidTicks (idlingTwice.ticks ⟨1⟩ rested) = 2 := by decide +kernel
  rw [hticks] at hcost
  exact ⟨rested_seated, hfair, status, b', s', a', hupdate, ha', hticks, hcost⟩

/-- A turn does not always cost one price: here an actor that was ready is left with 50 of 250,
where a turn is 100. -/
theorem rested_pays_twice :
    ¬ ∀ (b : Brain) (id : ActorId) (s : Scene) (a : Actor), s.world.Seated → s.rules.Fair →
      1 ≤ s.rules.turnReady → s.world.actor? id = some a →
      a.canAct s.rules.turnReady = true → ∀ status b' s' a',
      b.update id s = .ok (some status, b', s') → s'.world.actor? id = some a' →
      a'.energy.toNat + s.rules.turnReady.toNat = a.energy.toNat := by
  intro h
  have hturn : (idlingTwice.update ⟨1⟩ rested).map
      (fun r ↦ (r.1, (r.2.2.world.actor? ⟨1⟩).map (·.energy))) = .ok (some .success, some 50) := by
    decide +kernel
  cases hupdate : idlingTwice.update ⟨1⟩ rested with
  | error e =>
    rw [hupdate] at hturn
    cases hturn
  | ok r =>
    obtain ⟨status, b', s'⟩ := r
    rw [hupdate] at hturn
    obtain ⟨rfl, hleft⟩ := Prod.mk.inj (Except.ok.inj hturn)
    obtain ⟨a', ha', hfifty⟩ := Option.map_eq_some_iff.mp hleft
    have hsum := h idlingTwice ⟨1⟩ rested _ rested_seated ⟨by decide, by decide⟩ (by decide)
      rested_rat (by decide +kernel) _ b' s' a' hupdate ha'
    rw [hfifty] at hsum
    exact absurd hsum (by decide)

end Delve

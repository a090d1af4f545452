import Delve.Brain.Temper
import Delve.Proofs.Brain.Origin
/-!
# The turns of ready-made brains

The prospects of the ready-made brains can be read off, and they are the prospects of whatever the
brains have become. Where a brain falls back on wandering and waiting, every turn succeeds and
costs one turn.
-/

namespace Delve

namespace Temper

/-- In the course of an evaluation of a ready-made brain, one turn is paid for at most. -/
theorem turns_le_one (temper : Temper) (rules : Rules) :
    ∀ p ∈ (temper.brain rules).prospects, p.turns ≤ 1 := by
  have hall : (temper.brain rules).prospects.all (·.turns ≤ 1) = true := by
    cases temper <;> rfl
  intro p hp
  exact of_decide_eq_true (List.all_eq_true.mp hall p hp)

/-- A brain that falls back on waiting cannot do worse than to wait, which an actor that is ready
does at once. -/
theorem status_eq_success {temper : Temper} (htemper : temper ≠ .guard) (rules : Rules) :
    ∀ p ∈ (temper.brain rules).prospects, p.status = .success := by
  have hall : (temper.brain rules).prospects.all (·.status = .success) = true := by
    cases temper with
    | guard => exact absurd rfl htemper
    | _ => rfl
  intro p hp
  exact of_decide_eq_true (List.all_eq_true.mp hall p hp)

/-- Every turn of a brain that falls back on waiting succeeds, so the brain is never reset, and it
costs exactly one turn: whatever rules the brain was built from, whatever it has become by earlier
updates, and whatever the actor meets with. -/
theorem update_succeeds {temper : Temper} (htemper : temper ≠ .guard) (rules : Rules) {b : Brain}
    (hbrain : (temper.brain rules).Becomes b) {id : ActorId} {s : Scene} {a : Actor}
    (hworld : s.world.Seated) (hfair : s.rules.Fair) (ha : s.world.actor? id = some a)
    (hready : a.canAct s.rules.turnReady = true) :
    ∃ r s' a', b.run brainRepertoire (s.focusOn id) = .ok r ∧
      b.update id s = .ok (some .success, r.state, s') ∧ s'.world.actor? id = some a' ∧
      a'.energy.toNat + s.rules.turnReady.toNat = a.energy.toNat := by
  have hfocus : (s.focusOn id).actor? = some a := ha
  have hnow : (s.focusOn id).isReady = true := by
    rw [Scene.isReady, hfocus]
    exact hready
  obtain ⟨r, s', hr, hupdate, p, hp, hstatus, hspends⟩ := b.update_spends hworld hfair hnow
  rw [Brain.prospects_of_becomes hbrain] at hp
  have hsuccess : r.status = .success := by
    rw [← hstatus, status_eq_success htemper rules p hp]
  obtain ⟨a', ha'⟩ := hspends.inPlay.present
  have hprice := Brain.turnReady_le_funds hnow
  have hfunds := hspends.funds_eq
  rw [Nat.max_eq_left (turns_le_one temper rules p hp), Nat.one_mul, ← hspends.focus_eq,
    Brain.funds_of_actor ha', hspends.focus_eq, Brain.funds_of_actor hfocus] at hfunds
  rw [Brain.funds_of_actor hfocus] at hprice
  refine ⟨r, s', a', hr, ?_, ?_, ?_⟩
  · rw [hupdate, hsuccess]
    rfl
  · rw [← ha', Scene.actor?, hspends.focus_eq]
    rfl
  · have hrules : (s.focusOn id).rules = s.rules := rfl
    rw [hrules] at hfunds hprice
    omega

end Temper

/-- The rat is hunting. Both of its turns succeed, the one of the new brain and the one of what it
has become by then, and each of them costs 100 of its 150. -/
theorem ambush_succeeds :
    Temper.smart ≠ .guard ∧ ambush.world.Seated ∧ ambush.rules.Fair ∧
      ∃ b s₁, (Temper.smart.brain {}).update ⟨1⟩ ambush = .ok (some .success, b, s₁) ∧
        ∃ b' s' a', b.update ⟨1⟩ ambush = .ok (some .success, b', s') ∧
          s'.world.actor? ⟨1⟩ = some a' ∧ a'.energy.toNat = 50 := by
  have htemper : Temper.smart ≠ .guard := by decide
  obtain ⟨r, s₁, -, -, hfirst, -, -⟩ := Temper.update_succeeds htemper {} .refl ambush_seated ambush_fair
    ambush_rat (by decide +kernel)
  have hbecomes : (Temper.smart.brain {}).Becomes r.state := .single ⟨⟨1⟩, ambush, _, s₁, hfirst⟩
  obtain ⟨r', s', a', -, hsecond, ha', henergy⟩ := Temper.update_succeeds htemper {} hbecomes
    ambush_seated ambush_fair ambush_rat (by decide +kernel)
  have hprice : ambush.rules.turnReady.toNat = 100 := by decide +kernel
  rw [hprice] at henergy
  exact ⟨htemper, ambush_seated, ambush_fair, r.state, s₁, hfirst, r'.state, s', a', hsecond, ha',
    Nat.add_right_cancel henergy⟩

end Delve

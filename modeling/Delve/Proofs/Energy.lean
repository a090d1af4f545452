import Mathlib.Algebra.Order.Ring.Int
import Mathlib.Logic.Function.Iterate
import Delve.Actor
/-!
# Energy over rounds

Every actor gains energy in periods: each round at speed 0 and above, and below it every so many
rounds, of which those without a gain are counted. Two facts say what a round does to the count and
to the energy (`gainEnergy_cases`), and one lemma carries them through any number of rounds
(`iterate_gainEnergy`). The energy is a word that saturates, and cutting off the sum in every round
comes to the same as cutting it off at the end. The main statement is `gainEnergy_rounds`.
-/

namespace Delve.Actor

variable {a : Actor}

/-! ## 1. One round -/

/-- The rounds from one gain of energy to the next. -/
def period (a : Actor) : Nat := (min a.stats.speed.toInt 0).natAbs + 1

theorem period_pos (a : Actor) : 0 < a.period := Nat.succ_pos _

theorem period_of_nonneg (h : 0 ≤ a.stats.speed.toInt) : a.period = 1 := by
  unfold period
  omega

theorem period_of_neg (h : a.stats.speed.toInt < 0) :
    a.period = a.stats.speed.toInt.natAbs + 1 := by
  unfold period
  omega

/-- The ticks that a gain is worth. -/
def rate (a : Actor) : Nat := (max (a.stats.speed.toInt + 1) 1).toNat

theorem toNat_rate (hspeed : a.stats.speed.toInt < 2 ^ 31 - 1) :
    (max (a.stats.speed + 1) 1).toUInt32.toNat = a.rate := by
  have hone : (1 : Int32).toInt = 1 := rfl
  have hlow := a.stats.speed.le_toInt
  have hsum : (a.stats.speed + 1).toInt = a.stats.speed.toInt + 1 := by
    rw [Int32.toInt_add, hone, Int.bmod_eq_of_le] <;> omega
  have hmax : (max (a.stats.speed + 1) 1).toInt = max (a.stats.speed.toInt + 1) 1 := by
    rw [Int32.toInt_max, hsum, hone]
  have hword : ((max (a.stats.speed + 1) 1).toUInt32.toNat : Int) =
      max (a.stats.speed.toInt + 1) 1 := by
    rw [Int32.toNat_toUInt32_of_nonneg (by rw [hmax]; omega), hmax]
  unfold rate
  omega

/-- Nothing else about an actor changes. -/
theorem gainEnergy_eq (a : Actor) (tick : UInt32) :
    ∃ missed energy, a.gainEnergy tick = { a with missed, energy } := by
  unfold gainEnergy
  dsimp only
  split <;> exact ⟨_, _, rfl⟩

/-- A round without a gain is counted, and the gain comes when the count is complete. It is cut off
at the largest word. -/
theorem gainEnergy_cases (hspeed : a.stats.speed.toInt < 2 ^ 31 - 1)
    (hmissed : a.missed.toNat < a.period) (tick : UInt32) :
    (a.missed.toNat + 1 < a.period ∧ ∃ missed : UInt32,
      missed.toNat = a.missed.toNat + 1 ∧ a.gainEnergy tick = { a with missed }) ∨
    (a.missed.toNat + 1 = a.period ∧ ∃ energy : UInt32,
      energy.toNat = min (a.energy.toNat + a.rate * tick.toNat) (2 ^ 32 - 1) ∧
      a.gainEnergy tick = { a with missed := 0, energy }) := by
  have hzero : (0 : Int32).toInt = 0 := rfl
  have hsize : UInt32.size = 2 ^ 32 := rfl
  have hmagnitude := a.stats.speed.toNat_magnitude
  unfold gainEnergy
  dsimp only
  unfold period at hmissed ⊢
  split
  · -- a slow actor whose count is not complete
    rename_i hslow
    rw [Int32.lt_iff_toInt_lt, hzero, UInt32.lt_iff_toNat_lt] at hslow
    left
    refine ⟨by omega, _, ?_, rfl⟩
    have hlt := a.stats.speed.magnitude.toNat_lt
    rw [UInt32.toNat_add, UInt32.toNat_one]
    omega
  · -- the count is complete, which at speed 0 and above it always is
    rename_i hgain
    rw [Int32.lt_iff_toInt_lt, hzero, UInt32.lt_iff_toNat_lt] at hgain
    right
    refine ⟨by omega, _, ?_, rfl⟩
    rw [UInt32.toNat_addClamp, UInt32.toNat_mulClamp, toNat_rate hspeed]
    omega

/-- In the round after the first `n`, the actor counts on, and gains what the end of a period
brings. -/
theorem gainEnergy_next {n : Nat} (hspeed : a.stats.speed.toInt < 2 ^ 31 - 1)
    (hcount : a.missed.toNat = n % a.period) (tick : UInt32) :
    ∃ missed energy : UInt32, a.gainEnergy tick = { a with missed, energy } ∧
      missed.toNat = (n + 1) % a.period ∧
      energy.toNat = min (a.energy.toNat +
        ((n + 1) / a.period - n / a.period) * (a.rate * tick.toNat)) (2 ^ 32 - 1) := by
  have hmissed : a.missed.toNat < a.period := hcount ▸ Nat.mod_lt n a.period_pos
  have hword := a.energy.toNat_lt
  have hn := Nat.mod_add_div n a.period
  rcases gainEnergy_cases hspeed hmissed tick with
    ⟨hlt, missed, hmiss, heq⟩ | ⟨hlast, energy, hgain, heq⟩
  · -- the round lies within a period
    rw [hcount] at hlt hmiss
    have hnext : (n + 1) / a.period = n / a.period ∧ (n + 1) % a.period = n % a.period + 1 :=
      (Nat.div_mod_unique a.period_pos).mpr ⟨by omega, hlt⟩
    refine ⟨missed, a.energy, heq, hmiss.trans hnext.2.symm, ?_⟩
    rw [hnext.1, Nat.sub_self, Nat.zero_mul]
    omega
  · -- the round ends a period
    rw [hcount] at hlast
    have hnext : (n + 1) / a.period = n / a.period + 1 ∧ (n + 1) % a.period = 0 :=
      (Nat.div_mod_unique a.period_pos).mpr ⟨by rw [Nat.mul_succ]; omega, a.period_pos⟩
    refine ⟨0, energy, heq, hnext.2.symm, ?_⟩
    rw [hgain, hnext.1, Nat.add_sub_cancel_left, Nat.one_mul]

/-- The same for a gain that fits the word. -/
theorem gainEnergy_count {n : Nat} {tick : UInt32} (hspeed : a.stats.speed.toInt < 2 ^ 31 - 1)
    (hcount : a.missed.toNat = n % a.period)
    (hroom : a.energy.toNat + a.rate * tick.toNat < 2 ^ 32) :
    (a.gainEnergy tick).missed.toNat = (n + 1) % a.period ∧
      (a.gainEnergy tick).energy.toNat + n / a.period * (a.rate * tick.toNat) =
        a.energy.toNat + (n + 1) / a.period * (a.rate * tick.toNat) := by
  obtain ⟨missed, energy, heq, hnext, hsum⟩ := gainEnergy_next hspeed hcount tick
  have hle : n / a.period ≤ (n + 1) / a.period := Nat.div_le_div_right (Nat.le_succ n)
  have hstep : (n + 1) / a.period ≤ n / a.period + 1 := by
    rw [← Nat.add_div_right n a.period_pos]
    exact Nat.div_le_div_right (Nat.add_le_add_left a.period_pos n)
  have hbought := Nat.mul_le_mul_right (a.rate * tick.toNat) hle
  have hgain : ((n + 1) / a.period - n / a.period) * (a.rate * tick.toNat) ≤
      1 * (a.rate * tick.toNat) := Nat.mul_le_mul_right _ (Nat.sub_le_iff_le_add'.mpr hstep)
  rw [Nat.sub_mul] at hgain hsum
  rw [heq]
  refine ⟨hnext, ?_⟩
  dsimp only
  omega

/-! ## 2. Any number of rounds -/

/-- Cutting off the sum before the last gains are added makes no difference. -/
theorem min_add_min {x q q' gain most : Nat} (h : q ≤ q') :
    min (min (x + q * gain) most + (q' - q) * gain) most = min (x + q' * gain) most := by
  have hmul : q * gain ≤ q' * gain := Nat.mul_le_mul_right _ h
  rw [Nat.sub_mul]
  omega

/-- By induction on the number of rounds, from any count of rounds missed. -/
theorem iterate_gainEnergy (hspeed : a.stats.speed.toInt < 2 ^ 31 - 1)
    (hmissed : a.missed.toNat < a.period) (tick : UInt32) (n : Nat) :
    ∃ missed energy : UInt32, (gainEnergy · tick)^[n] a = { a with missed, energy } ∧
      missed.toNat = (a.missed.toNat + n) % a.period ∧
      energy.toNat = min (a.energy.toNat +
        (a.missed.toNat + n) / a.period * (a.rate * tick.toNat)) (2 ^ 32 - 1) := by
  induction n with
  | zero =>
    have hword := a.energy.toNat_lt
    refine ⟨a.missed, a.energy, rfl, (Nat.mod_eq_of_lt hmissed).symm, ?_⟩
    rw [Nat.add_zero, Nat.div_eq_of_lt hmissed]
    omega
  | succ n ih =>
    obtain ⟨missed, energy, heq, hcount, hsum⟩ := ih
    obtain ⟨missed', energy', heq', hcount', hsum'⟩ :=
      gainEnergy_next (a := { a with missed, energy }) hspeed hcount tick
    refine ⟨missed', energy', ?_, hcount', ?_⟩
    · rw [Function.iterate_succ_apply', heq, heq']
    · have hle : (a.missed.toNat + n) / a.period ≤ (a.missed.toNat + (n + 1)) / a.period :=
        Nat.div_le_div_right (Nat.le_succ _)
      have hsum' : energy'.toNat = min (energy.toNat + ((a.missed.toNat + (n + 1)) / a.period -
          (a.missed.toNat + n) / a.period) * (a.rate * tick.toNat)) (2 ^ 32 - 1) := hsum'
      rw [hsum', hsum, min_add_min hle]

/-- The energy that an actor gains in `n` rounds at a rate of `tick`. Every point of speed above
zero brings another tick in every round, every point below zero makes the ticks rarer. -/
def income (a : Actor) (tick n : Nat) : Nat :=
  let speed := a.stats.speed.toInt
  if 0 ≤ speed then n * (speed.toNat + 1) * tick else n / (speed.natAbs + 1) * tick

theorem income_eq (a : Actor) (tick n : Nat) :
    a.income tick n = n / a.period * (a.rate * tick) := by
  unfold income rate
  dsimp only
  split
  · rename_i hfast
    have hrate : (max (a.stats.speed.toInt + 1) 1).toNat = a.stats.speed.toInt.toNat + 1 := by omega
    rw [period_of_nonneg hfast, hrate, Nat.div_one, Nat.mul_assoc]
  · rename_i hslow
    have hrate : (max (a.stats.speed.toInt + 1) 1).toNat = 1 := by omega
    rw [period_of_neg (by omega), hrate, Nat.one_mul]

theorem mod_period (a : Actor) (n : Nat) :
    n % a.period =
      if 0 ≤ a.stats.speed.toInt then 0 else n % (a.stats.speed.toInt.natAbs + 1) := by
  split
  · rename_i hfast
    rw [period_of_nonneg hfast, Nat.mod_one]
  · rename_i hslow
    rw [period_of_neg (by omega)]

/-- What `n` rounds bring to an actor that has not missed any: its energy is what it had with its
income of the rounds, up to the largest word, and a slow actor has missed the rounds since its last
gain. Nothing else about it changes. -/
theorem gainEnergy_rounds (hspeed : a.stats.speed ≠ Int32.maxValue) (hmissed : a.missed = 0)
    (tick : UInt32) (n : Nat) :
    ∃ missed energy : UInt32, (gainEnergy · tick)^[n] a = { a with missed, energy } ∧
      energy.toNat = min (2 ^ 32 - 1) (a.energy.toNat + a.income tick.toNat n) ∧
      missed.toNat =
        if 0 ≤ a.stats.speed.toInt then 0 else n % (a.stats.speed.toInt.natAbs + 1) := by
  have hslow : a.stats.speed.toInt < 2 ^ 31 - 1 := by
    have hlt := a.stats.speed.toInt_lt
    have hne : a.stats.speed.toInt ≠ 2 ^ 31 - 1 := fun h ↦ hspeed (Int32.toInt_inj.mp h)
    omega
  have hstart : a.missed.toNat = 0 := by
    rw [hmissed]
    rfl
  obtain ⟨missed, energy, heq, hcount, hsum⟩ :=
    iterate_gainEnergy hslow (by rw [hstart]; exact a.period_pos) tick n
  rw [hstart, Nat.zero_add] at hcount hsum
  rw [← income_eq, Nat.min_comm] at hsum
  exact ⟨missed, energy, heq, hsum, hcount.trans (a.mod_period n)⟩

/-- An actor at the lowest speed, which gains once in 2147483649 rounds. -/
def statue : Actor where
  name := "statue"
  position := ⟨0, 0⟩
  stats := { speed := Int32.minValue }
  energy := 7

theorem statue_rounds :
    statue.stats.speed ≠ Int32.maxValue ∧ statue.missed = 0 ∧
      ∃ missed energy : UInt32,
        (gainEnergy · 100)^[2 * 2147483649 + 5] statue = { statue with missed, energy } ∧
        energy.toNat = 207 ∧ missed.toNat = 5 := by
  obtain ⟨missed, energy, heq, hsum, hcount⟩ :=
    gainEnergy_rounds (a := statue) (by decide) rfl 100 (2 * 2147483649 + 5)
  exact ⟨by decide, rfl, missed, energy, heq, hsum.trans (by decide), hcount.trans (by decide)⟩

end Delve.Actor

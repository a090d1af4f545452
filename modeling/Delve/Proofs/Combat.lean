import Delve.Combat
import Delve.Proofs.Except
import Delve.Proofs.Grid
/-!
# The numbers of combat

There is a chance to hit unless the limits of the rules are crossed. As long as the rules fit the
signed word, it is the chance that unbounded numbers give, for all skills: the words of the
calculation saturate, but only where the chance is past one of the limits already. The same holds
of the harm of a blow, up to the largest word. The main statement is `numbers_exact`.
-/

namespace Delve

/-! ## 1. Limits of the chance -/

/-- The chances to hit are in order and fit the signed word. -/
structure Rules.Fair (r : Rules) : Prop where
  ordered : r.minHitChance ≤ r.maxHitChance
  fits : r.maxHitChance.toNat < 2 ^ 31

/-- As signed words, the chances to hit are not in order. -/
def Rules.Crossed (r : Rules) : Prop := r.maxHitChance.toInt32 < r.minHitChance.toInt32

instance (r : Rules) : Decidable r.Crossed :=
  inferInstanceAs (Decidable (r.maxHitChance.toInt32 < r.minHitChance.toInt32))

theorem Rules.Fair.not_crossed {r : Rules} (h : r.Fair) : ¬ r.Crossed := by
  have hordered := UInt32.le_iff_toNat_le.mp h.ordered
  have hfits := h.fits
  rw [Rules.Crossed, Int32.lt_iff_toInt_lt, toInt_toInt32 hfits, toInt_toInt32 (by omega)]
  omega

theorem hitChance_of_crossed {r : Rules} (h : r.Crossed) (attacker defender : Int32) :
    Combat.hitChance attacker defender r = .error .crossedHitChances := by
  unfold Combat.hitChance
  exact if_pos h

/-- There is a chance to hit unless the limits are crossed. -/
theorem hitChance_comesTo (attacker defender : Int32) (r : Rules) :
    (Combat.hitChance attacker defender r).ComesTo (fun _ ↦ True) fun _ ↦ r.Crossed := by
  unfold Combat.hitChance
  dsimp only
  split
  · rename_i hcrossed
    exact hcrossed
  · exact trivial

namespace Combat

/-! ## 2. Numbers held in a word -/

/-- What a signed word can hold of a number: the nearest one to it. -/
def nearest (i : Int) : Int := max (-2 ^ 31) (min i (2 ^ 31 - 1))

/-- A factor that is out of range leads to a product that is out of range on the same side, unless
the other one is 0. -/
theorem nearest_mul_nearest {k : Int} (hk : 0 ≤ k) (i : Int) :
    nearest (nearest i * k) = nearest (i * k) := by
  rcases hk.eq_or_lt with rfl | hpos
  · rw [Int.mul_zero, Int.mul_zero]
  rcases lt_or_ge i (-2 ^ 31) with hlow | hlow
  · -- below the range: the least word and its products all come to the least word
    have hnear : nearest i = -2 ^ 31 := by unfold nearest; omega
    have hheld : -2 ^ 31 * k ≤ -2 ^ 31 * 1 := Int.mul_le_mul_of_nonpos_left (by decide) hpos
    have hfree : i * k ≤ -2 ^ 31 * k := Int.mul_le_mul_of_nonneg_right (by omega) hk
    rw [hnear]
    unfold nearest
    omega
  rcases lt_or_ge (2 ^ 31 - 1) i with hhigh | hhigh
  · -- above the range: the largest word and its products all come to the largest word
    have hnear : nearest i = 2 ^ 31 - 1 := by unfold nearest; omega
    have hheld : (2 ^ 31 - 1) * 1 ≤ (2 ^ 31 - 1) * k :=
      Int.mul_le_mul_of_nonneg_left hpos (by decide)
    have hfree : (2 ^ 31 - 1) * k ≤ i * k := Int.mul_le_mul_of_nonneg_right (by omega) hk
    rw [hnear]
    unfold nearest
    omega
  · have hnear : nearest i = i := by unfold nearest; omega
    rw [hnear]

section Limits

variable {base low high : Int}

/-- Between limits that fit the word, a number and what the word holds of it come to the same. -/
theorem limit_nearest (hlow : 0 ≤ low) (hhigh : high < 2 ^ 31) (hle : low ≤ high) (i : Int) :
    max low (min (nearest i) high) = max low (min i high) := by
  unfold nearest
  omega

/-- The base is not negative. So a summand below the range keeps the sum below 0, where it is under
the lower limit either way. -/
theorem limit_add_nearest (hbase : 0 ≤ base) (hbase' : base < 2 ^ 31) (hlow : 0 ≤ low)
    (hhigh : high < 2 ^ 31) (hle : low ≤ high) (i : Int) :
    max low (min (base + nearest i) high) = max low (min (base + i) high) := by
  unfold nearest
  omega

end Limits

/-- Cutting a word off at two limits cuts off its number. -/
theorem toInt_limit {low high : Int32} (hle : ¬ high < low) (c : Int32) :
    (if c < low then low else if high < c then high else c).toInt =
      max low.toInt (min c.toInt high.toInt) := by
  rw [Int32.lt_iff_toInt_lt] at hle
  split
  · rename_i hbelow
    rw [Int32.lt_iff_toInt_lt] at hbelow
    omega
  · rename_i hbelow
    rw [Int32.lt_iff_toInt_lt] at hbelow
    split
    · rename_i habove
      rw [Int32.lt_iff_toInt_lt] at habove
      omega
    · rename_i habove
      rw [Int32.lt_iff_toInt_lt] at habove
      omega

/-! ## 3. Chance and harm -/

variable {r : Rules}

/-- The chance in hundredths that `edge` points of skill make under the rules, over unbounded
numbers. -/
def chance (r : Rules) (edge : Int) : Int :=
  max r.minHitChance.toNat
    (min (r.baseHitChance.toNat + edge * r.hitChancePerSkill.toNat) r.maxHitChance.toNat)

theorem chance_mono (r : Rules) {edge edge' : Int} (h : edge ≤ edge') :
    chance r edge ≤ chance r edge' := by
  have hmul : edge * r.hitChancePerSkill.toNat ≤ edge' * r.hitChancePerSkill.toNat :=
    Int.mul_le_mul_of_nonneg_right h (Int.natCast_nonneg _)
  unfold chance
  omega

/-- The saturations are taken off from the inside: the difference of the skills first, then its
product, then the sum. -/
theorem exists_hitChance (hfair : r.Fair) (hbase : r.baseHitChance.toNat < 2 ^ 31)
    (hskill : r.hitChancePerSkill.toNat < 2 ^ 31) (attacker defender : Int32) :
    ∃ c, hitChance attacker defender r = .ok c ∧
      (c.toNat : Int) = chance r (attacker.toInt - defender.toInt) := by
  have hordered := UInt32.le_iff_toNat_le.mp hfair.ordered
  have hfits := hfair.fits
  have hlow := toInt_toInt32 (Nat.lt_of_le_of_lt hordered hfits)
  have hhigh := toInt_toInt32 hfits
  have hmoved : (r.baseHitChance.toInt32.addClamp
      ((attacker.subClamp defender).mulClamp r.hitChancePerSkill.toInt32)).toInt =
      nearest (r.baseHitChance.toNat +
        nearest ((attacker.toInt - defender.toInt) * r.hitChancePerSkill.toNat)) := by
    rw [Int32.toInt_addClamp, Int32.toInt_mulClamp, Int32.toInt_subClamp, toInt_toInt32 hbase,
      toInt_toInt32 hskill, ← nearest_mul_nearest (Int.natCast_nonneg _)]
    rfl
  have hlimit := toInt_limit hfair.not_crossed (r.baseHitChance.toInt32.addClamp
    ((attacker.subClamp defender).mulClamp r.hitChancePerSkill.toInt32))
  rw [hmoved, hlow, hhigh, limit_nearest (by omega) (by omega) (by omega),
    limit_add_nearest (by omega) (by omega) (by omega) (by omega) (by omega)] at hlimit
  refine ⟨_, if_neg hfair.not_crossed, ?_⟩
  rw [Int32.toNat_toUInt32_of_nonneg (by rw [hlimit]; omega), hlimit]
  rfl

theorem toNat_damage (attacker defender : Stats) :
    ((damage attacker defender).toNat : Int) =
      min (max (attacker.strength.toInt - defender.defense.toInt) 1) (2 ^ 31 - 1) := by
  have hone : (1 : Int32).toInt = 1 := rfl
  have hleast : Int32.minValue.toInt = -2 ^ 31 := rfl
  have hmost : Int32.maxValue.toInt = 2 ^ 31 - 1 := rfl
  have hheld : (max (attacker.strength.subClamp defender.defense) 1).toInt =
      min (max (attacker.strength.toInt - defender.defense.toInt) 1) (2 ^ 31 - 1) := by
    rw [Int32.toInt_max, Int32.toInt_subClamp, hone]
    omega
  rw [damage, Int32.toNat_toUInt32_of_nonneg (by rw [hheld]; omega), hheld]

/-- Under rules that fit the signed word, the chance to hit is the base chance moved by the
difference of the skills and held between the limits, over unbounded numbers. So it never falls as
the attacker gets better and never rises as the defender does. The harm is the difference of
strength and defense, at least 1 and at most the largest signed word. -/
theorem numbers_exact (hfair : r.Fair) (hbase : r.baseHitChance.toNat < 2 ^ 31)
    (hskill : r.hitChancePerSkill.toNat < 2 ^ 31) :
    (∀ attacker defender : Int32, ∃ c, hitChance attacker defender r = .ok c ∧
      (c.toNat : Int) = max (r.minHitChance.toNat : Int) (min (r.baseHitChance.toNat +
        (attacker.toInt - defender.toInt) * r.hitChancePerSkill.toNat) r.maxHitChance.toNat)) ∧
    (∀ {attacker attacker' defender defender' : Int32} {c c' : UInt32}, attacker ≤ attacker' →
      defender' ≤ defender → hitChance attacker defender r = .ok c →
      hitChance attacker' defender' r = .ok c' → c ≤ c') ∧
    ∀ attacker defender : Stats, ((damage attacker defender).toNat : Int) =
      min (max (attacker.strength.toInt - defender.defense.toInt) 1) (2 ^ 31 - 1) := by
  refine ⟨exists_hitChance hfair hbase hskill, ?_, toNat_damage⟩
  intro attacker attacker' defender defender' c c' hattacker hdefender hc hc'
  obtain ⟨_, heq, hchance⟩ := exists_hitChance hfair hbase hskill attacker defender
  obtain ⟨_, heq', hchance'⟩ := exists_hitChance hfair hbase hskill attacker' defender'
  cases heq.symm.trans hc
  cases heq'.symm.trans hc'
  rw [Int32.le_iff_toInt_le] at hattacker hdefender
  have hmono := chance_mono r (show attacker.toInt - defender.toInt ≤
    attacker'.toInt - defender'.toInt by omega)
  rw [UInt32.le_iff_toNat_le]
  omega

/-- Rules under which every difference of skills goes out of range. -/
def steepRules : Rules := { baseHitChance := 2147483647, hitChancePerSkill := 2147483647 }

/-- The best attacker against the worst defender: all three operations saturate on the way. -/
theorem steepRules_numbers_exact :
    steepRules.Fair ∧ steepRules.baseHitChance.toNat < 2 ^ 31 ∧
      steepRules.hitChancePerSkill.toNat < 2 ^ 31 ∧
      ∃ c, hitChance Int32.maxValue Int32.minValue steepRules = .ok c ∧ (c.toNat : Int) = 95 := by
  have hfair : steepRules.Fair := ⟨by decide, by decide⟩
  obtain ⟨c, hc, hchance⟩ :=
    (numbers_exact hfair (by decide) (by decide)).1 Int32.maxValue Int32.minValue
  exact ⟨hfair, by decide, by decide, c, hc, hchance.trans (by decide)⟩

end Combat

end Delve

import Mathlib.Algebra.Group.Nat.Even
import Mathlib.Algebra.Ring.Nat
import Mathlib.Data.Nat.GCD.Basic
import Mathlib.Tactic.Ring
import Delve.Proofs.Line
import Delve.World.Sight
/-!
# Sight both ways

On the way there and on the way back the line is rounded in the direction of travel. So the two ways
differ exactly at cells where the true line passes halfway between two cells. Such a place is on the
line if the longer way, measured with what both ways have in common, is even. Where it is odd, the
line back is the line there backwards, and whoever sees is seen. The main statement is
`sight_mutual`.
-/

namespace Delve

/-! ## 1. Halves -/

section Halves

variable {long side k : Nat}

/-- What is due there and what is due back make up the whole way, except halfway between two cells:
there both are rounded up. -/
theorem due_add_due (hlong : 0 < long) (hk : k ≤ long) :
    due long side k + due long side (long - k) = side ↔
      ¬ 2 * long ∣ 2 * (side * k) + long := by
  have hthere := due_bounds hlong side k
  have hback := due_bounds hlong side (long - k)
  have hway : side * k + side * (long - k) = long * side := by
    rw [← Nat.mul_add, Nat.add_sub_cancel' hk, Nat.mul_comm]
  constructor
  · rintro hsum ⟨c, hc⟩
    rw [Nat.mul_assoc] at hc
    have hdue : due long side k = c := (due_eq_iff hlong).mpr (by omega)
    have hwhole : long * side = long * c + long * due long side (long - k) := by
      rw [← Nat.mul_add, ← hdue, hsum]
    omega
  · intro htie
    have hrest : 2 * (side * k) + long ≠ 2 * (long * due long side k) :=
      fun heq ↦ htie ⟨_, heq.trans (Nat.mul_assoc ..).symm⟩
    have hle : due long side k + due long side (long - k) < side + 1 := by
      refine Nat.lt_of_mul_lt_mul_left (a := long) ?_
      rw [Nat.mul_add, Nat.mul_succ]
      omega
    have hge : side < due long side k + due long side (long - k) + 1 := by
      refine Nat.lt_of_mul_lt_mul_left (a := long) ?_
      rw [Nat.mul_succ, Nat.mul_add]
      omega
    omega

/-- Halves turn up exactly if the longer side is an even multiple of the common measure. -/
theorem exists_half_iff (hlong : 0 < long) (side : Nat) :
    (∃ k ≤ long, 2 * long ∣ 2 * (side * k) + long) ↔ Even (long / Nat.gcd long side) := by
  have hg : 0 < Nat.gcd long side := Nat.gcd_pos_of_pos_left _ hlong
  obtain ⟨l, s, hcoprime, hl, hs⟩ := Nat.exists_coprime long side
  generalize Nat.gcd long side = g at *
  subst hl hs
  have hreduce : ∀ k, 2 * (l * g) ∣ 2 * (s * g * k) + l * g ↔ 2 * l ∣ 2 * (s * k) + l := by
    intro k
    have hfactor : 2 * (s * g * k) + l * g = (2 * (s * k) + l) * g := by ring
    rw [hfactor, ← Nat.mul_assoc, Nat.mul_dvd_mul_iff_right hg]
  simp only [hreduce]
  rw [Nat.mul_div_cancel _ hg, even_iff_two_dvd]
  constructor
  · rintro ⟨k, -, c, hc⟩
    rw [Nat.mul_assoc] at hc
    omega
  · rintro ⟨h, rfl⟩
    -- the other side is odd then, and the first half is in the middle of the first stretch
    have hodd : ¬ 2 ∣ s := fun hs ↦ Nat.not_coprime_of_dvd_of_dvd (by decide) ⟨h, rfl⟩ hs hcoprime
    obtain ⟨t, ht⟩ : 2 ∣ s + 1 := by omega
    refine ⟨h, ?_, t, ?_⟩
    · have hle := Nat.le_mul_of_pos_right (2 * h) hg
      omega
    · calc 2 * (s * h) + 2 * h = 2 * h * (s + 1) := by ring
        _ = 2 * (2 * h) * t := by rw [ht]; ring

end Halves

/-! ## 2. There and back -/

theorem waypoint_reverse_iff {start goal : Int32} {long k : Nat} (hk : k ≤ long) :
    waypoint goal start long k = waypoint start goal long (long - k) ↔
      due long (goal.toInt - start.toInt).natAbs k +
        due long (goal.toInt - start.toInt).natAbs (long - k) =
          (goal.toInt - start.toInt).natAbs := by
  have hside : (start.toInt - goal.toInt).natAbs = (goal.toInt - start.toInt).natAbs := by omega
  have hthere := due_le (goal.toInt - start.toInt).natAbs hk
  have hback := due_le (goal.toInt - start.toInt).natAbs (Nat.sub_le long k)
  rw [← Int32.toInt_inj, toInt_waypoint hk, toInt_waypoint (Nat.sub_le long k), hside]
  rcases Int.lt_trichotomy goal.toInt start.toInt with hlt | heq | hgt
  · rw [Int.sign_eq_neg_one_of_neg (show goal.toInt - start.toInt < 0 by omega),
      Int.sign_eq_one_of_pos (show 0 < start.toInt - goal.toInt by omega)]
    omega
  · simp only [heq, Int.sub_self, Int.sign_zero, Int.natAbs_zero] at hthere hback ⊢
    omega
  · rw [Int.sign_eq_one_of_pos (show 0 < goal.toInt - start.toInt by omega),
      Int.sign_eq_neg_one_of_neg (show start.toInt - goal.toInt < 0 by omega)]
    omega

namespace Position

variable {p q : Position}

theorem across_neg (p q : Position) : q.across p = -p.across q := by
  unfold across
  omega

theorem down_neg (p q : Position) : q.down p = -p.down q := by
  unfold down
  omega

theorem longer_comm (p q : Position) : q.longer p = p.longer q := by
  rw [longer, across_neg, down_neg, Int.natAbs_neg, Int.natAbs_neg, longer]

theorem IsNear.symm (h : p.IsNear q) : q.IsNear p where
  across_lt := by
    rw [across_neg, Int.natAbs_neg]
    exact h.across_lt
  down_lt := by
    rw [down_neg, Int.natAbs_neg]
    exact h.down_lt

theorem longer_pos (h : p ≠ q) : 0 < p.longer q :=
  Nat.pos_of_ne_zero fun hzero ↦ h (eq_of_longer_eq_zero hzero)

/-- The cell of the line back is the one of the line there, unless the shorter way is halved. -/
theorem waycell_reverse_iff (hne : p ≠ q) {k : Nat} (hk : k ≤ p.longer q) :
    q.waycell p k = p.waycell q (p.longer q - k) ↔
      ¬ 2 * p.longer q ∣ 2 * (p.shorter q * k) + p.longer q := by
  have hlong := longer_pos hne
  have hself : due (p.longer q) (p.longer q) k + due (p.longer q) (p.longer q) (p.longer q - k) =
      p.longer q := by
    rw [due_self hlong, due_self hlong, Nat.add_sub_cancel' hk]
  rw [waycell, waycell, longer_comm, Position.mk.injEq, waypoint_reverse_iff hk,
    waypoint_reverse_iff hk, ← due_add_due hlong hk]
  rcases Nat.le_total (p.down q).natAbs (p.across q).natAbs with hwide | hhigh
  · have hacross : (q.x.toInt - p.x.toInt).natAbs = p.longer q := (Nat.max_eq_left hwide).symm
    have hdown : (q.y.toInt - p.y.toInt).natAbs = p.shorter q := (Nat.min_eq_right hwide).symm
    rw [hacross, hdown]
    exact and_iff_right hself
  · have hacross : (q.x.toInt - p.x.toInt).natAbs = p.shorter q := (Nat.min_eq_left hhigh).symm
    have hdown : (q.y.toInt - p.y.toInt).natAbs = p.longer q := (Nat.max_eq_right hhigh).symm
    rw [hacross, hdown]
    exact and_iff_left hself

end Position

theorem line_reverse_iff_forall {p q : Position} (h : p.IsNear q) :
    (line p q).reverse = line q p ↔
      ∀ k ≤ p.longer q, q.waycell p k = p.waycell q (p.longer q - k) := by
  have hback : (line p q).reverse =
      (List.range (p.longer q + 1)).map fun k ↦ p.waycell q (p.longer q - k) := by
    rw [line_eq h]
    refine List.ext_getElem (by simp) fun k hk _ ↦ ?_
    rw [List.getElem_reverse]
    simp
  rw [hback, line_eq h.symm, Position.longer_comm, List.map_inj_left]
  simp only [List.mem_range, Nat.lt_succ_iff]
  exact forall₂_congr fun k _ ↦ eq_comm

/-- The line back has the cells of the line there exactly if the longer side of the way is an odd
multiple of what it has in common with the shorter one. -/
theorem line_reverse_iff {p q : Position} (h : p.IsNear q) (hne : p ≠ q) :
    (line p q).reverse = line q p ↔
      Odd (p.longer q / Nat.gcd (p.across q).natAbs (p.down q).natAbs) := by
  have hgcd : Nat.gcd (p.across q).natAbs (p.down q).natAbs =
      Nat.gcd (p.longer q) (p.shorter q) := by
    unfold Position.longer Position.shorter
    rcases Nat.le_total (p.down q).natAbs (p.across q).natAbs with hwide | hhigh
    · rw [Nat.max_eq_left hwide, Nat.min_eq_right hwide]
    · rw [Nat.max_eq_right hhigh, Nat.min_eq_left hhigh, Nat.gcd_comm]
  rw [line_reverse_iff_forall h, hgcd, ← Nat.not_even_iff_odd,
    ← exists_half_iff (Position.longer_pos hne)]
  simp only [not_exists, not_and]
  exact forall₂_congr fun k hk ↦ Position.waycell_reverse_iff hne hk

theorem canSee_comm_of_reverse {p q : Position} (h : (line p q).reverse = line q p) (w : World) :
    w.canSee p q = w.canSee q p := by
  have hclear : ∀ cell : Position, (cell == p || cell == q || !w.isObstacle cell) =
      (cell == q || cell == p || !w.isObstacle cell) := fun cell ↦ by
    rw [Bool.or_comm (cell == p)]
  rw [World.canSee, World.canSee, ← h, List.all_reverse, Bool.and_comm (w.inBounds p)]
  simp only [hclear]

/-- The line back is the line there backwards exactly if the longer side of the way is an odd
multiple of the greatest measure that it has in common with the shorter one. Whenever it is, either
of two cells sees the other or neither does, whatever the world is like. -/
theorem sight_mutual {p q : Position} (h : p.IsNear q) (hne : p ≠ q) :
    ((line p q).reverse = line q p ↔
      Odd (p.longer q / Nat.gcd (p.across q).natAbs (p.down q).natAbs)) ∧
    (Odd (p.longer q / Nat.gcd (p.across q).natAbs (p.down q).natAbs) →
      ∀ w : World, w.canSee p q = w.canSee q p) :=
  ⟨line_reverse_iff h hne,
    fun hodd ↦ canSee_comm_of_reverse ((line_reverse_iff h hne).mpr hodd)⟩

/-- Over three columns and a row sight is mutual in all worlds. Over two columns and a row the line
back comes through another cell. -/
theorem sight_mutual_slopes :
    Position.IsNear ⟨0, 0⟩ ⟨3, 1⟩ ∧ (∀ w : World, w.canSee ⟨0, 0⟩ ⟨3, 1⟩ = w.canSee ⟨3, 1⟩ ⟨0, 0⟩) ∧
    Position.IsNear ⟨0, 0⟩ ⟨2, 1⟩ ∧ (line ⟨0, 0⟩ ⟨2, 1⟩).reverse ≠ line ⟨2, 1⟩ ⟨0, 0⟩ := by
  have hodd : Position.IsNear ⟨0, 0⟩ ⟨3, 1⟩ := ⟨by decide, by decide⟩
  have heven : Position.IsNear ⟨0, 0⟩ ⟨2, 1⟩ := ⟨by decide, by decide⟩
  refine ⟨hodd, (sight_mutual hodd (by decide)).2 (by decide), heven, fun heq ↦ ?_⟩
  exact absurd ((sight_mutual heven (by decide)).1.mp heq) (by decide)

end Delve

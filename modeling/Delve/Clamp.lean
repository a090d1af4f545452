/-!
# Arithmetic that stops at the ends of the word

Meters, energy and combat never wrap: a result that does not fit is held at the nearest value
that does. The lemmas at the end of each section give every operation over unbounded numbers.
-/

namespace UInt32

/-- The sum, held at the largest word. -/
def addClamp (a b : UInt32) : UInt32 := .ofNatClamp (a.toNat + b.toNat)

def subClamp (a b : UInt32) : UInt32 := .ofNat (a.toNat - b.toNat)

def mulClamp (a b : UInt32) : UInt32 := .ofNatClamp (a.toNat * b.toNat)

theorem toNat_ofNatClamp_eq_min (n : Nat) : (UInt32.ofNatClamp n).toNat = min n (UInt32.size - 1) := by
  have size : UInt32.size = 4294967296 := rfl
  unfold UInt32.ofNatClamp
  split <;> simp only [UInt32.toNat_ofNatLT] <;> omega

theorem toNat_addClamp (a b : UInt32) :
    (a.addClamp b).toNat = min (a.toNat + b.toNat) (UInt32.size - 1) :=
  toNat_ofNatClamp_eq_min _

theorem toNat_subClamp (a b : UInt32) : (a.subClamp b).toNat = a.toNat - b.toNat := by
  have h := a.toNat_lt
  simp only [subClamp, UInt32.toNat_ofNat']
  omega

theorem toNat_mulClamp (a b : UInt32) :
    (a.mulClamp b).toNat = min (a.toNat * b.toNat) (UInt32.size - 1) :=
  toNat_ofNatClamp_eq_min _

end UInt32

namespace Int32

def addClamp (a b : Int32) : Int32 := .ofIntClamp (a.toInt + b.toInt)

def subClamp (a b : Int32) : Int32 := .ofIntClamp (a.toInt - b.toInt)

def mulClamp (a b : Int32) : Int32 := .ofIntClamp (a.toInt * b.toInt)

/-- How far apart two numbers are. It always fits the unsigned word. -/
def gap (a b : Int32) : UInt32 := .ofNat (a.toInt - b.toInt).natAbs

/-- The number of units from zero, which also fits for the least number. -/
def magnitude (a : Int32) : UInt32 := .ofNat a.toInt.natAbs

theorem toInt_ofIntClamp_eq_max (i : Int) :
    (Int32.ofIntClamp i).toInt = max Int32.minValue.toInt (min i Int32.maxValue.toInt) := by
  have low : Int32.minValue.toInt = -2147483648 := rfl
  have high : Int32.maxValue.toInt = 2147483647 := rfl
  unfold Int32.ofIntClamp
  split
  · split
    · rw [Int32.toInt_ofIntLE]
      omega
    · omega
  · omega

theorem toInt_addClamp (a b : Int32) :
    (a.addClamp b).toInt =
      max Int32.minValue.toInt (min (a.toInt + b.toInt) Int32.maxValue.toInt) :=
  toInt_ofIntClamp_eq_max _

theorem toInt_subClamp (a b : Int32) :
    (a.subClamp b).toInt =
      max Int32.minValue.toInt (min (a.toInt - b.toInt) Int32.maxValue.toInt) :=
  toInt_ofIntClamp_eq_max _

theorem toInt_mulClamp (a b : Int32) :
    (a.mulClamp b).toInt =
      max Int32.minValue.toInt (min (a.toInt * b.toInt) Int32.maxValue.toInt) :=
  toInt_ofIntClamp_eq_max _

theorem toInt_max (a b : Int32) : (max a b).toInt = max a.toInt b.toInt := by
  show (if a ≤ b then b else a).toInt = _
  split
  · rename_i h
    rw [Int32.le_iff_toInt_le] at h
    omega
  · rename_i h
    rw [Int32.le_iff_toInt_le] at h
    omega

theorem toNat_toUInt32_of_nonneg {a : Int32} (h : 0 ≤ a.toInt) :
    (a.toUInt32.toNat : Int) = a.toInt := by
  have hzero : (0 : Int32).toInt = 0 := rfl
  rw [Int32.toNat_toUInt32_of_le (by rw [Int32.le_iff_toInt_le, hzero]; exact h),
    ← Int32.toNat_toInt, Int.toNat_of_nonneg h]

theorem toNat_gap (a b : Int32) : (a.gap b).toNat = (a.toInt - b.toInt).natAbs := by
  have ha := a.toInt_lt
  have hb := b.toInt_lt
  have ha' := a.le_toInt
  have hb' := b.le_toInt
  simp only [gap, UInt32.toNat_ofNat']
  omega

theorem gap_comm (a b : Int32) : a.gap b = b.gap a := by
  apply UInt32.toNat_inj.mp
  rw [toNat_gap, toNat_gap]
  omega

theorem toNat_magnitude (a : Int32) : a.magnitude.toNat = a.toInt.natAbs := by
  have ha := a.toInt_lt
  have ha' := a.le_toInt
  simp only [magnitude, UInt32.toNat_ofNat']
  omega

end Int32

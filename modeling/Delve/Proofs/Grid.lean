import Mathlib.Algebra.Order.Ring.Int
import Mathlib.Data.Fintype.EquivFin
import Delve.Grid.Extent
/-!
# The grid without a word size

Coordinates are signed words, and a step over the end of one comes out at the other end. On the
inner cells that does not happen, and every cell that an extent contains is one of them.
-/

namespace Delve

/-! ## 1. Distances -/

namespace Position

/-- The number of straight steps between two cells of the unbounded grid. -/
def separation (p q : Position) : Nat :=
  (p.x.toInt - q.x.toInt).natAbs + (p.y.toInt - q.y.toInt).natAbs

/-- A cell is inner if no king's move from it runs over the end of a coordinate. -/
def IsInner (p : Position) : Prop :=
  (-2 ^ 31 < p.x.toInt ∧ p.x.toInt < 2 ^ 31 - 1) ∧ -2 ^ 31 < p.y.toInt ∧ p.y.toInt < 2 ^ 31 - 1

instance (p : Position) : Decidable p.IsInner := inferInstanceAs (Decidable (_ ∧ _))

theorem toNat_blockDistance {p q : Position} (h : p.separation q < 2 ^ 32) :
    (p.blockDistance q).toNat = p.separation q := by
  unfold separation at h
  rw [blockDistance, UInt32.toNat_add, Int32.toNat_gap, Int32.toNat_gap, Nat.mod_eq_of_lt h]
  rfl

/-- A king's move goes one column or one row far, or both. -/
theorem reach_of_mem_kingSteps {d : Int32 × Int32} (hd : d ∈ kingSteps) :
    max d.1.toInt.natAbs d.2.toInt.natAbs = 1 := by
  simp only [kingSteps, List.mem_cons, List.not_mem_nil, or_false] at hd
  rcases hd with rfl | rfl | rfl | rfl | rfl | rfl | rfl | rfl <;> decide

theorem neg_mem_kingSteps {d : Int32 × Int32} (hd : d ∈ kingSteps) :
    (-d.1, -d.2) ∈ kingSteps := by
  simp only [kingSteps, List.mem_cons, List.not_mem_nil, or_false] at hd
  rcases hd with rfl | rfl | rfl | rfl | rfl | rfl | rfl | rfl <;> decide

theorem toInt_offset {p : Position} (hp : p.IsInner) {d : Int32 × Int32} (hd : d ∈ kingSteps) :
    (p.offset d.1 d.2).x.toInt = p.x.toInt + d.1.toInt ∧
      (p.offset d.1 d.2).y.toInt = p.y.toInt + d.2.toInt := by
  obtain ⟨hx, hy⟩ := hp
  have hreach := reach_of_mem_kingSteps hd
  simp only [offset, Int32.toInt_add]
  constructor <;> rw [Int.bmod_eq_of_le] <;> omega

/-- A king's move changes the distance to a cell by two at most. -/
theorem separation_offset {p : Position} (hp : p.IsInner) {d : Int32 × Int32}
    (hd : d ∈ kingSteps) (q : Position) :
    (p.offset d.1 d.2).separation q ≤ p.separation q + 2 ∧
      p.separation q ≤ (p.offset d.1 d.2).separation q + 2 := by
  obtain ⟨hx, hy⟩ := toInt_offset hp hd
  have hreach := reach_of_mem_kingSteps hd
  unfold separation
  rw [hx, hy]
  omega

theorem offset_neg (p : Position) (dx dy : Int32) :
    (p.offset dx dy).offset (-dx) (-dy) = p := by
  cases p
  simp only [offset, Position.mk.injEq]
  constructor <;> grind

theorem separation_self (p : Position) : p.separation p = 0 := by
  unfold separation
  omega

theorem eq_of_toInt_eq {p q : Position} (hx : p.x.toInt = q.x.toInt)
    (hy : p.y.toInt = q.y.toInt) : p = q := by
  cases p
  cases q
  exact Position.mk.injEq .. ▸ ⟨Int32.toInt_inj.mp hx, Int32.toInt_inj.mp hy⟩

/-- The same of a king's move onto an inner cell, wherever it comes from. -/
theorem separation_offset_of_isInner {p : Position} {d : Int32 × Int32} (hd : d ∈ kingSteps)
    (hp : (p.offset d.1 d.2).IsInner) (q : Position) :
    (p.offset d.1 d.2).separation q ≤ p.separation q + 2 ∧
      p.separation q ≤ (p.offset d.1 d.2).separation q + 2 := by
  have hreturn := separation_offset hp (neg_mem_kingSteps hd) q
  rw [offset_neg] at hreturn
  exact hreturn.symm

end Position

/-! ## 2. Between two cells -/

namespace Position

variable {a b c g : Position}

/-- The cell lies in the rectangle that has `a` and `b` at opposite corners. -/
structure IsBetween (c a b : Position) : Prop where
  left : min a.x.toInt b.x.toInt ≤ c.x.toInt
  right : c.x.toInt ≤ max a.x.toInt b.x.toInt
  top : min a.y.toInt b.y.toInt ≤ c.y.toInt
  bottom : c.y.toInt ≤ max a.y.toInt b.y.toInt

theorem separation_le_add (a b c : Position) :
    a.separation c ≤ a.separation b + b.separation c := by
  unfold separation
  omega

/-- Whatever lies between a cell on the way and the end of it lies between both ends. -/
theorem IsBetween.trans (hc : c.IsBetween b g) (hb : b.IsBetween a g) : c.IsBetween a g := by
  obtain ⟨hleft, hright, htop, hbottom⟩ := hb
  obtain ⟨hleft', hright', htop', hbottom'⟩ := hc
  constructor <;> omega

end Position

/-! ## 3. How many cells there are -/

namespace Position

/-- A cell is numbered by its two coordinates, one after the other. -/
def number (p : Position) : Nat :=
  (p.x.toInt + 2 ^ 31).toNat * 2 ^ 32 + (p.y.toInt + 2 ^ 31).toNat

theorem coordinates_bounded (p : Position) :
    (-2 ^ 31 ≤ p.x.toInt ∧ p.x.toInt < 2 ^ 31) ∧ -2 ^ 31 ≤ p.y.toInt ∧ p.y.toInt < 2 ^ 31 :=
  ⟨⟨p.x.le_toInt, p.x.toInt_lt⟩, p.y.le_toInt, p.y.toInt_lt⟩

theorem number_lt (p : Position) : p.number < 2 ^ 64 := by
  have hp := p.coordinates_bounded
  unfold number
  omega

theorem number_injective : Function.Injective number := by
  intro p q hpq
  have hp := p.coordinates_bounded
  have hq := q.coordinates_bounded
  unfold number at hpq
  exact eq_of_toInt_eq (by omega) (by omega)

instance : Finite Position :=
  Finite.of_injective (fun p ↦ (⟨p.number, p.number_lt⟩ : Fin (2 ^ 64)))
    fun _ _ h ↦ number_injective (Fin.mk.inj h)

end Position

/-! ## 4. Neighbours -/

namespace Position

variable {p q : Position}

theorem toNat_kingDistance (p q : Position) :
    (p.kingDistance q).toNat =
      max (p.x.toInt - q.x.toInt).natAbs (p.y.toInt - q.y.toInt).natAbs := by
  rw [kingDistance, ← Int32.toNat_gap, ← Int32.toNat_gap]
  show (if p.x.gap q.x ≤ p.y.gap q.y then p.y.gap q.y else p.x.gap q.x).toNat = _
  split
  · rename_i h
    rw [Nat.max_eq_right (UInt32.le_iff_toNat_le.mp h)]
  · rename_i h
    rw [UInt32.le_iff_toNat_le] at h
    rw [Nat.max_eq_left (by omega)]

theorem isNeighbor_comm (p q : Position) : p.isNeighbor q = q.isNeighbor p := by
  rw [isNeighbor, isNeighbor, kingDistance_comm, bne_comm]

theorem ne_of_isNeighbor (h : p.isNeighbor q = true) : p ≠ q := by
  rw [isNeighbor, Bool.and_eq_true, bne_iff_ne] at h
  exact h.1

theorem isNeighbor_iff (p q : Position) :
    p.isNeighbor q = true ↔ p ≠ q ∧ (p.x.toInt - q.x.toInt).natAbs ≤ 1 ∧
      (p.y.toInt - q.y.toInt).natAbs ≤ 1 := by
  have hone : (1 : UInt32).toNat = 1 := rfl
  rw [isNeighbor, Bool.and_eq_true, bne_iff_ne, beq_iff_eq, ← UInt32.toNat_inj,
    toNat_kingDistance, hone]
  refine and_congr_right fun hne ↦ ?_
  have hapart : ¬ (p.x.toInt = q.x.toInt ∧ p.y.toInt = q.y.toInt) :=
    fun ⟨hx, hy⟩ ↦ hne (eq_of_toInt_eq hx hy)
  omega

/-- The neighbours of a cell are the other cells within one king's move. -/
theorem inRange_one (hne : p ≠ q) : p.inRange q 1 = p.isNeighbor q := by
  have hone : (1 : UInt32).toNat = 1 := rfl
  rw [Bool.eq_iff_iff, isNeighbor_iff, inRange, decide_eq_true_eq, UInt32.le_iff_toNat_le,
    toNat_kingDistance, hone, max_le_iff]
  exact (and_iff_right hne).symm

/-- Every king's move from an inner cell leads to a neighbour. -/
theorem isNeighbor_offset (hp : p.IsInner) {d : Int32 × Int32} (hd : d ∈ kingSteps) :
    p.isNeighbor (p.offset d.1 d.2) = true := by
  have hreach := reach_of_mem_kingSteps hd
  obtain ⟨hx, hy⟩ := toInt_offset hp hd
  have hking : (p.kingDistance (p.offset d.1 d.2)).toNat = 1 := by
    rw [toNat_kingDistance, hx, hy]
    omega
  have hne : p ≠ p.offset d.1 d.2 := by
    intro heq
    rw [← heq, toNat_kingDistance] at hking
    omega
  rw [isNeighbor, Bool.and_eq_true, bne_iff_ne, beq_iff_eq]
  exact ⟨hne, UInt32.toNat_inj.mp hking⟩

/-- The same of a king's move onto an inner cell, wherever it comes from. -/
theorem isNeighbor_offset_of_isInner {d : Int32 × Int32} (hd : d ∈ kingSteps)
    (hp : (p.offset d.1 d.2).IsInner) : p.isNeighbor (p.offset d.1 d.2) = true := by
  have hreturn := isNeighbor_offset hp (neg_mem_kingSteps hd)
  rwa [offset_neg, isNeighbor_comm] at hreturn

/-- Every straight step onto an inner cell leads to an orthogonal neighbour, wherever it comes
from. -/
theorem isOrthogonalNeighbor_offset_of_isInner {d : Int32 × Int32} (hd : d ∈ orthogonalSteps)
    (hp : (p.offset d.1 d.2).IsInner) : p.isOrthogonalNeighbor (p.offset d.1 d.2) = true := by
  have hking : orthogonalSteps ⊆ kingSteps := by decide
  obtain ⟨hx, hy⟩ := toInt_offset hp (neg_mem_kingSteps (hking hd))
  rw [offset_neg] at hx hy
  have hone : p.separation (p.offset d.1 d.2) = 1 := by
    unfold separation
    rw [hx, hy]
    simp only [orthogonalSteps, List.mem_cons, List.not_mem_nil, or_false] at hd
    rcases hd with rfl | rfl | rfl | rfl <;> simp
  rw [isOrthogonalNeighbor, beq_iff_eq, ← UInt32.toNat_inj, toNat_blockDistance (by omega), hone]
  rfl

theorem isNeighbor_of_mem_neighbors (hp : p.IsInner) (hq : q ∈ p.neighbors) :
    p.isNeighbor q = true := by
  rw [neighbors, List.mem_map] at hq
  obtain ⟨d, hd, rfl⟩ := hq
  exact isNeighbor_offset hp hd

theorem offset_sub (p q : Position) : p.offset (q.x - p.x) (q.y - p.y) = q := by
  cases p
  cases q
  simp only [offset, Position.mk.injEq]
  constructor <;> grind

theorem sub_cases {a b : Int32} (h : (b.toInt - a.toInt).natAbs ≤ 1) :
    b - a = -1 ∨ b - a = 0 ∨ b - a = 1 := by
  -- words that are close to each other are not torn apart by the end of the word
  have hsub : (b - a).toInt = b.toInt - a.toInt := by
    rw [Int32.toInt_sub, Int.bmod_eq_of_le] <;> omega
  have hcases : (b - a).toInt = -1 ∨ (b - a).toInt = 0 ∨ (b - a).toInt = 1 := by omega
  rcases hcases with h | h | h
  · exact Or.inl (Int32.toInt_inj.mp h)
  · exact Or.inr (Or.inl (Int32.toInt_inj.mp h))
  · exact Or.inr (Or.inr (Int32.toInt_inj.mp h))

/-- Whatever the cell, its neighbours are where the king's moves lead. -/
theorem mem_neighbors_of_isNeighbor (h : p.isNeighbor q = true) : q ∈ p.neighbors := by
  rw [isNeighbor, Bool.and_eq_true, bne_iff_ne, beq_iff_eq] at h
  obtain ⟨hne, hking⟩ := h
  have hdistance := toNat_kingDistance p q
  rw [hking, show (1 : UInt32).toNat = 1 from rfl] at hdistance
  have hx := sub_cases (a := p.x) (b := q.x) (by omega)
  have hy := sub_cases (a := p.y) (b := q.y) (by omega)
  have hoffset := offset_sub p q
  have hstay : ¬ (q.x - p.x = 0 ∧ q.y - p.y = 0) := by
    rintro ⟨hx0, hy0⟩
    rw [hx0, hy0] at hoffset
    apply hne
    rw [← hoffset]
    cases p
    simp [offset]
  rw [neighbors, List.mem_map]
  refine ⟨(q.x - p.x, q.y - p.y), ?_, hoffset⟩
  -- nine differences, one of which is to stay
  revert hstay
  rcases hx with hx | hx | hx <;> rcases hy with hy | hy | hy <;> rw [hx, hy] <;> decide

end Position

/-! ## 5. Cells of an extent -/

theorem toInt_toInt32 {n : UInt32} (h : n.toNat < 2 ^ 31) : n.toInt32.toInt = n.toNat := by
  show n.toBitVec.toInt = n.toBitVec.toNat
  exact BitVec.toInt_eq_toNat_of_lt (by show 2 * n.toNat < 2 ^ 32; omega)

/-- The cell of a column and a row, both counted from zero. -/
def cell (x y : Nat) : Position := ⟨.ofNat x, .ofNat y⟩

theorem cell_inj {x y x' y' : Nat} (h : cell x y = cell x' y') (hx : x < 2 ^ 31)
    (hy : y < 2 ^ 31) (hx' : x' < 2 ^ 31) (hy' : y' < 2 ^ 31) : x = x' ∧ y = y' := by
  obtain ⟨hcolumn, hrow⟩ := Position.mk.inj h
  have hcolumn := congrArg Int32.toNatClampNeg hcolumn
  have hrow := congrArg Int32.toNatClampNeg hrow
  rw [Int32.toNatClampNeg_ofNat_of_lt hx, Int32.toNatClampNeg_ofNat_of_lt hx'] at hcolumn
  rw [Int32.toNatClampNeg_ofNat_of_lt hy, Int32.toNatClampNeg_ofNat_of_lt hy'] at hrow
  exact ⟨hcolumn, hrow⟩

namespace Extent

variable {e : Extent} {p q : Position} {x y : Nat}

theorem contains_iff (e : Extent) (p : Position) :
    e.contains p = true ↔ (0 ≤ p.x.toInt ∧ p.x.toInt < e.width.toInt32.toInt) ∧
      0 ≤ p.y.toInt ∧ p.y.toInt < e.height.toInt32.toInt := by
  have hzero : (0 : Int32).toInt = 0 := rfl
  simp only [contains, Bool.and_eq_true, decide_eq_true_eq, Int32.le_iff_toInt_le,
    Int32.lt_iff_toInt_lt, hzero]
  omega

theorem isInner_of_contains (h : e.contains p = true) : p.IsInner := by
  rw [contains_iff] at h
  have hwidth := e.width.toInt32.toInt_lt
  have hheight := e.height.toInt32.toInt_lt
  unfold Position.IsInner
  omega

/-- Both sides can be counted by a signed word. -/
structure Signed (e : Extent) : Prop where
  width_lt : e.width.toNat < 2 ^ 31
  height_lt : e.height.toNat < 2 ^ 31

/-- A cell can only be inside where both sides can be counted by a signed word. -/
theorem signed_of_index? {i : Nat} (h : e.index? p = some i) : e.Signed := by
  have hinside : e.contains p = true := by
    unfold index? at h
    split at h
    · assumption
    · cases h
  rw [contains_iff] at hinside
  have hside : ∀ side : UInt32, 0 < side.toInt32.toInt → side.toNat < 2 ^ 31 := by
    intro side hpos
    have hvalue : side.toInt32.toInt = side.toBitVec.toInt := rfl
    rw [hvalue, BitVec.toInt_eq_toNat_cond] at hpos
    show side.toBitVec.toNat < 2 ^ 31
    split at hpos <;> omega
  exact ⟨hside e.width (by omega), hside e.height (by omega)⟩

theorem Signed.contains_cell (h : e.Signed) (hx : x < e.width.toNat) (hy : y < e.height.toNat) :
    e.contains (cell x y) = true := by
  have hwidth := h.width_lt
  have hheight := h.height_lt
  rw [contains_iff, cell, toInt_toInt32 hwidth, toInt_toInt32 hheight,
    Int32.toInt_ofNat_of_lt (by omega), Int32.toInt_ofNat_of_lt (by omega)]
  omega

theorem Signed.exists_cell (h : e.Signed) (hp : e.contains p = true) :
    ∃ x y, x < e.width.toNat ∧ y < e.height.toNat ∧ p = cell x y := by
  rw [contains_iff, toInt_toInt32 h.width_lt, toInt_toInt32 h.height_lt] at hp
  have hcolumn := Int32.toNat_toInt p.x
  have hrow := Int32.toNat_toInt p.y
  refine ⟨p.x.toNatClampNeg, p.y.toNatClampNeg, by omega, by omega, ?_⟩
  have hzero : (0 : Int32).toInt = 0 := rfl
  rw [cell, Int32.ofNat_toNatClampNeg _ (by rw [Int32.le_iff_toInt_le, hzero]; omega),
    Int32.ofNat_toNatClampNeg _ (by rw [Int32.le_iff_toInt_le, hzero]; omega)]

theorem Signed.index?_cell (h : e.Signed) (hx : x < e.width.toNat) (hy : y < e.height.toNat) :
    e.index? (cell x y) = some (y * e.width.toNat + x) := by
  have hwidth := h.width_lt
  have hheight := h.height_lt
  rw [index?, if_pos (h.contains_cell hx hy), cell, Int32.toNatClampNeg_ofNat_of_lt (by omega),
    Int32.toNatClampNeg_ofNat_of_lt (by omega)]

theorem place_lt (hx : x < e.width.toNat) (hy : y < e.height.toNat) :
    y * e.width.toNat + x < e.area := by
  have hrow : (y + 1) * e.width.toNat ≤ e.width.toNat * e.height.toNat := by
    rw [Nat.mul_comm]
    exact Nat.mul_le_mul_left _ hy
  rw [Nat.succ_mul] at hrow
  show _ < e.width.toNat * e.height.toNat
  omega

/-- Every place in the ground belongs to a cell. -/
theorem Signed.exists_index (h : e.Signed) {i : Nat} (hi : i < e.area) :
    ∃ x y, x < e.width.toNat ∧ y < e.height.toNat ∧ e.index? (cell x y) = some i := by
  have hpos : 0 < e.width.toNat := Nat.pos_of_mul_pos_right (Nat.zero_lt_of_lt hi)
  have hx : i % e.width.toNat < e.width.toNat := Nat.mod_lt _ hpos
  have hy : i / e.width.toNat < e.height.toNat := Nat.div_lt_of_lt_mul hi
  refine ⟨i % e.width.toNat, i / e.width.toNat, hx, hy, ?_⟩
  rw [h.index?_cell hx hy, Nat.mul_comm, Nat.div_add_mod]

/-- No two cells share a place in the ground. -/
theorem Signed.index?_inj (h : e.Signed) {i : Nat} (hp : e.index? p = some i)
    (hq : e.index? q = some i) : p = q := by
  have hcontains : ∀ {r : Position}, e.index? r = some i → e.contains r = true := by
    intro r hr
    unfold index? at hr
    split at hr
    · assumption
    · cases hr
  obtain ⟨x, y, hx, hy, rfl⟩ := h.exists_cell (hcontains hp)
  obtain ⟨x', y', hx', hy', rfl⟩ := h.exists_cell (hcontains hq)
  rw [h.index?_cell hx hy] at hp
  rw [h.index?_cell hx' hy', ← hp, Option.some.injEq] at hq
  have hpos : 0 < e.width.toNat := by omega
  have hrow := congrArg (· / e.width.toNat) hq
  have hcolumn := congrArg (· % e.width.toNat) hq
  simp only [Nat.mul_add_mod_self_right, Nat.mod_eq_of_lt hx, Nat.mod_eq_of_lt hx'] at hcolumn
  rw [Nat.mul_comm y', Nat.mul_comm y] at hrow
  simp only [Nat.mul_add_div hpos, Nat.div_eq_of_lt hx, Nat.div_eq_of_lt hx', Nat.add_zero] at hrow
  rw [hrow, hcolumn]

theorem Signed.rows_eq (h : e.Signed) :
    e.rows = (List.range e.height.toNat).map fun y ↦
      (List.range e.width.toNat).map fun x ↦ cell x y := by
  have hspan : ∀ {side : UInt32}, side.toNat < 2 ^ 31 →
      span side = (List.range side.toNat).map fun n ↦ .ofNat n := by
    intro side hside
    rw [span, ← Int32.toNat_toInt, toInt_toInt32 hside, Int.toNat_natCast]
  simp only [rows, hspan h.width_lt, hspan h.height_lt, List.map_map]
  rfl

end Extent

end Delve

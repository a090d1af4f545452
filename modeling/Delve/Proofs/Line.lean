import Mathlib.Logic.Function.Iterate
import Delve.Grid.Line
import Delve.Proofs.Grid
/-!
# The law of the line

The walk between two cells takes a step along the longer axis every time. Along the shorter axis it
takes the steps that are due: the share that the true line has of them by then, rounded to the
nearest number. The error term is the difference between what is still to go along one axis and
along the other, each weighed with the length of the other axis, and twice the error tells on which
side of a half the share lies. So both comparisons of a step ask the same question, one for each
axis, and the walk ends where it should. The main statement is `line_isStraight`.
-/

namespace Delve

/-! ## 1. Steps that are due -/

/-- How many of `side` steps are due when `k` of `long` have been taken: their share, rounded to the
nearest number, and upwards from a half. -/
def due (long side k : Nat) : Nat := (2 * side * k + long) / (2 * long)

section Due

variable {long side k n a b : Nat}

theorem due_eq_iff (hlong : 0 < long) : due long side k = n ↔
    2 * (long * n) ≤ 2 * (side * k) + long ∧ 2 * (side * k) + long < 2 * (long * n) + 2 * long := by
  have hpos : 0 < 2 * long := by omega
  rw [due, Nat.div_eq_iff hpos, Nat.mul_assoc, Nat.mul_comm n, Nat.mul_assoc 2 long n]
  omega

theorem due_bounds (hlong : 0 < long) (side k : Nat) :
    2 * (long * due long side k) ≤ 2 * (side * k) + long ∧
      2 * (side * k) + long < 2 * (long * due long side k) + 2 * long :=
  (due_eq_iff hlong).mp rfl

theorem due_zero (long side : Nat) : due long side 0 = 0 := by
  unfold due
  rcases Nat.eq_zero_or_pos long with rfl | hlong
  · exact Nat.div_zero _
  · exact Nat.div_eq_of_lt (by omega)

/-- Along the longer axis every step is due. -/
theorem due_self (hlong : 0 < long) (k : Nat) : due long long k = k :=
  (due_eq_iff hlong).mpr (by omega)

/-- In the end all steps have become due. -/
theorem due_long (hlong : 0 < long) (side : Nat) : due long side long = side :=
  (due_eq_iff hlong).mpr (by rw [Nat.mul_comm side]; omega)

theorem due_le (side : Nat) (hk : k ≤ long) : due long side k ≤ side := by
  rcases Nat.eq_zero_or_pos long with rfl | hlong
  · rw [Nat.le_zero.mp hk, due_zero]
    exact Nat.zero_le side
  · have hmono : due long side k ≤ due long side long :=
      Nat.div_le_div_right (Nat.add_le_add_right (Nat.mul_le_mul_left _ hk) _)
    rwa [due_long hlong] at hmono

/-- When one more step is due along an axis of `a` steps, if the other one has `b`. One of the two
is the longer axis. -/
theorem due_succ (hlong : 0 < long) (hmax : max a b = long) (k : Nat) :
    due long a (k + 1) =
      if b * (2 * due long a k + 1) ≤ 2 * (a * (due long b k + 1)) then due long a k + 1
      else due long a k := by
  have hcases : a = long ∧ b ≤ long ∨ a ≤ long ∧ b = long := by omega
  rcases hcases with ⟨rfl, hb⟩ | ⟨ha, rfl⟩
  -- along the longer axis the question is always answered with yes
  · have hother := due_bounds hlong b k
    rw [due_self hlong, due_self hlong, if_pos]
    grind
  · have hown := due_bounds hlong a k
    rw [due_self hlong]
    split
    · rw [due_eq_iff hlong]
      grind
    · rw [due_eq_iff hlong]
      grind

theorem due_succ_cases (hlong : 0 < long) (hmax : max a b = long) (k : Nat) :
    due long a (k + 1) = due long a k + 1 ∨ due long a (k + 1) = due long a k := by
  rw [due_succ hlong hmax]
  split
  · exact Or.inl rfl
  · exact Or.inr rfl

end Due

/-! ## 2. One coordinate -/

theorem toInt_add_of_fits {a b : Int32} (hlo : -2 ^ 31 ≤ a.toInt + b.toInt)
    (hhi : a.toInt + b.toInt < 2 ^ 31) : (a + b).toInt = a.toInt + b.toInt := by
  rw [Int32.toInt_add, Int.bmod_eq_of_le] <;> omega

theorem toInt_sub_of_fits {a b : Int32} (hlo : -2 ^ 31 ≤ a.toInt - b.toInt)
    (hhi : a.toInt - b.toInt < 2 ^ 31) : (a - b).toInt = a.toInt - b.toInt := by
  rw [Int32.toInt_sub, Int.bmod_eq_of_le] <;> omega

/-- Only the least number has an absolute value that does not fit. -/
theorem toInt_abs {a : Int32} (h : a.toInt ≠ -2 ^ 31) : a.abs.toInt = a.toInt.natAbs := by
  have hbits : a.toBitVec ≠ BitVec.intMin 32 := by
    intro heq
    have hleast : a.toInt = (BitVec.intMin 32).toInt := congrArg BitVec.toInt heq
    exact h (hleast.trans (by decide))
  show a.abs.toBitVec.toInt = _
  rw [Int32.toBitVec_abs]
  exact BitVec.toInt_abs_eq_natAbs_of_ne_intMin hbits

/-- The coordinate after `k` of `long` steps towards `goal`. -/
def waypoint (start goal : Int32) (long k : Nat) : Int32 :=
  .ofInt (start.toInt + (goal.toInt - start.toInt).sign *
    due long (goal.toInt - start.toInt).natAbs k)

section Waypoint

variable {start goal : Int32} {long k l : Nat}

/-- A part of the way does not lead out of the range between its ends. -/
theorem sign_mul_bounds {d : Int} {n : Nat} (h : n ≤ d.natAbs) :
    min 0 d ≤ d.sign * n ∧ d.sign * n ≤ max 0 d := by
  rcases Int.lt_trichotomy d 0 with hneg | rfl | hpos
  · rw [Int.sign_eq_neg_one_of_neg hneg]
    omega
  · simp
  · rw [Int.sign_eq_one_of_pos hpos]
    omega

theorem toInt_waypoint (hk : k ≤ long) :
    (waypoint start goal long k).toInt = start.toInt + (goal.toInt - start.toInt).sign *
      due long (goal.toInt - start.toInt).natAbs k := by
  have hbounds := sign_mul_bounds (due_le (goal.toInt - start.toInt).natAbs hk)
  have hstart := start.toInt_lt
  have hstart' := start.le_toInt
  have hgoal := goal.toInt_lt
  have hgoal' := goal.le_toInt
  rw [waypoint, Int32.toInt_ofInt_of_le] <;> omega

theorem waypoint_between (hk : k ≤ long) :
    min start.toInt goal.toInt ≤ (waypoint start goal long k).toInt ∧
      (waypoint start goal long k).toInt ≤ max start.toInt goal.toInt := by
  have hbounds := sign_mul_bounds (due_le (goal.toInt - start.toInt).natAbs hk)
  rw [toInt_waypoint hk]
  omega

theorem waypoint_zero (start goal : Int32) (long : Nat) : waypoint start goal long 0 = start := by
  rw [← Int32.toInt_inj, toInt_waypoint (Nat.zero_le long), due_zero, Int.natCast_zero,
    Int.mul_zero, Int.add_zero]

theorem waypoint_long (hlong : 0 < long) : waypoint start goal long long = goal := by
  rw [← Int32.toInt_inj, toInt_waypoint (Nat.le_refl long), due_long hlong, Int.sign_mul_natAbs]
  omega

/-- Along an axis as long as the way itself every step leads on. -/
theorem toInt_waypoint_self (hside : (goal.toInt - start.toInt).natAbs = long) (hk : k ≤ long) :
    (waypoint start goal long k).toInt = start.toInt + (goal.toInt - start.toInt).sign * k := by
  rw [toInt_waypoint hk, hside]
  rcases Nat.eq_zero_or_pos long with rfl | hlong
  · rw [Nat.le_zero.mp hk, due_zero]
  · rw [due_self hlong]

theorem waypoint_inj (hside : (goal.toInt - start.toInt).natAbs = long) (hk : k ≤ long)
    (hl : l ≤ long) (h : waypoint start goal long k = waypoint start goal long l) : k = l := by
  rw [← Int32.toInt_inj, toInt_waypoint_self hside hk, toInt_waypoint_self hside hl] at h
  rcases Int.lt_trichotomy (goal.toInt - start.toInt) 0 with hneg | hzero | hpos
  · rw [Int.sign_eq_neg_one_of_neg hneg] at h
    omega
  · omega
  · rw [Int.sign_eq_one_of_pos hpos] at h
    omega

/-- A step that is due leads towards the goal. -/
theorem toInt_waypoint_succ (hk : k < long)
    (h : due long (goal.toInt - start.toInt).natAbs (k + 1) =
      due long (goal.toInt - start.toInt).natAbs k + 1) :
    (waypoint start goal long (k + 1)).toInt =
      (waypoint start goal long k).toInt + (if start < goal then 1 else -1 : Int32).toInt := by
  -- a step becomes due only where there is a way to go
  have hdue := due_le (goal.toInt - start.toInt).natAbs hk
  rw [toInt_waypoint hk, toInt_waypoint (Nat.le_of_lt hk), h]
  rw [h] at hdue
  split
  · rename_i hlt
    rw [Int32.lt_iff_toInt_lt] at hlt
    rw [Int.sign_eq_one_of_pos (by omega), Int32.toInt_one]
    omega
  · rename_i hge
    rw [Int32.lt_iff_toInt_lt] at hge
    rw [Int.sign_eq_neg_one_of_neg (by omega), show (-1 : Int32).toInt = -1 from rfl]
    omega

/-- Such a step does not leave the word, because its end is on the way. -/
theorem toInt_waypoint_add (hk : k < long)
    (h : due long (goal.toInt - start.toInt).natAbs (k + 1) =
      due long (goal.toInt - start.toInt).natAbs k + 1) :
    (waypoint start goal long k + if start < goal then 1 else -1).toInt =
      (waypoint start goal long k).toInt + (if start < goal then 1 else -1 : Int32).toInt := by
  have hnext := toInt_waypoint_succ hk h
  have hlt := (waypoint start goal long (k + 1)).toInt_lt
  have hle := (waypoint start goal long (k + 1)).le_toInt
  rw [toInt_add_of_fits] <;> omega

theorem waypoint_of_due_eq (h : due long (goal.toInt - start.toInt).natAbs (k + 1) =
      due long (goal.toInt - start.toInt).natAbs k) :
    waypoint start goal long (k + 1) = waypoint start goal long k := by
  rw [waypoint, h, waypoint]

end Waypoint

/-! ## 3. The walk -/

namespace Position

/-- How far `q` is to the right of `p`. -/
def across (p q : Position) : Int := q.x.toInt - p.x.toInt

/-- How far `q` is below `p`. -/
def down (p q : Position) : Int := q.y.toInt - p.y.toInt

/-- The length of the way along the axis on which the cells are further apart. -/
def longer (p q : Position) : Nat := max (p.across q).natAbs (p.down q).natAbs

def shorter (p q : Position) : Nat := min (p.across q).natAbs (p.down q).natAbs

/-- The cells are so close that the errors of a walk between them have room in a word. -/
structure IsNear (p q : Position) : Prop where
  across_lt : (p.across q).natAbs < 2 ^ 29
  down_lt : (p.down q).natAbs < 2 ^ 29

instance (p q : Position) : Decidable (p.IsNear q) :=
  decidable_of_iff ((p.across q).natAbs < 2 ^ 29 ∧ (p.down q).natAbs < 2 ^ 29)
    ⟨fun h ↦ ⟨h.1, h.2⟩, fun h ↦ ⟨h.1, h.2⟩⟩

/-- The cell of the line after `k` steps. -/
def waycell (p q : Position) (k : Nat) : Position :=
  ⟨waypoint p.x q.x (p.longer q) k, waypoint p.y q.y (p.longer q) k⟩

end Position

namespace LineWalk

variable {p q : Position} {k : Nat} {w : LineWalk}

/-- The walk from `p` to `q` before its first step. -/
def setOut (p q : Position) : LineWalk := ⟨p, (q.x - p.x).abs + -(q.y - p.y).abs⟩

/-- The setting out stays within the word: each of its results is the one over unbounded numbers. -/
structure SetsOut (p q : Position) : Prop where
  across : (q.x - p.x).toInt = p.across q
  run : (q.x - p.x).abs.toInt = (p.across q).natAbs
  down : (q.y - p.y).toInt = p.down q
  drop : (q.y - p.y).abs.toInt = (p.down q).natAbs
  rise : (-(q.y - p.y).abs).toInt = -(p.down q).natAbs
  error : (setOut p q).error.toInt = (p.across q).natAbs - (p.down q).natAbs

theorem setsOut (h : p.IsNear q) : SetsOut p q := by
  have hwide := h.across_lt
  have hhigh := h.down_lt
  have hacross : (q.x - p.x).toInt = p.across q := by
    unfold Position.across at hwide ⊢
    rw [toInt_sub_of_fits] <;> omega
  have hdown : (q.y - p.y).toInt = p.down q := by
    unfold Position.down at hhigh ⊢
    rw [toInt_sub_of_fits] <;> omega
  have hrun : (q.x - p.x).abs.toInt = (p.across q).natAbs := by
    rw [toInt_abs (by omega), hacross]
  have hdrop : (q.y - p.y).abs.toInt = (p.down q).natAbs := by
    rw [toInt_abs (by omega), hdown]
  have hrise : (-(q.y - p.y).abs).toInt = -(p.down q).natAbs := by
    rw [Int32.toInt_neg, hdrop, Int.bmod_eq_of_le] <;> omega
  refine ⟨hacross, hrun, hdown, hdrop, hrise, ?_⟩
  rw [setOut, toInt_add_of_fits] <;> omega

/-- The error after the first of the two comparisons. -/
def errorAlong (rise : Int32) (w : LineWalk) : Int32 :=
  if rise ≤ 2 * w.error then w.error + rise else w.error

/-- A step stays within the word: each of its results is the one over unbounded numbers. -/
structure StaysInWord (run rise dx dy : Int32) (w : LineWalk) : Prop where
  doubled : (2 * w.error).toInt = 2 * w.error.toInt
  along : rise ≤ 2 * w.error →
    (w.error + rise).toInt = w.error.toInt + rise.toInt ∧
      (w.cell.x + dx).toInt = w.cell.x.toInt + dx.toInt
  down : 2 * w.error ≤ run →
    (w.errorAlong rise + run).toInt = (w.errorAlong rise).toInt + run.toInt ∧
      (w.cell.y + dy).toInt = w.cell.y.toInt + dy.toInt

/-- A step by what becomes of each of the three numbers. -/
theorem step_eq (run rise dx dy : Int32) (w : LineWalk) : step run rise dx dy w =
    ⟨⟨if rise ≤ 2 * w.error then w.cell.x + dx else w.cell.x,
      if 2 * w.error ≤ run then w.cell.y + dy else w.cell.y⟩,
      if 2 * w.error ≤ run then w.errorAlong rise + run else w.errorAlong rise⟩ := by
  unfold step errorAlong Position.offset
  by_cases halong : rise ≤ 2 * w.error <;> by_cases hdown : 2 * w.error ≤ run <;>
    simp [halong, hdown]

/-- After `k` steps the walk is where the line is, and the error weighs what comes after the next
step along either axis. -/
structure Keeps (p q : Position) (k : Nat) (w : LineWalk) : Prop where
  cell_eq : w.cell = p.waycell q k
  error_eq : w.error.toInt =
    ((p.across q).natAbs * (due (p.longer q) (p.down q).natAbs k + 1) : Nat) -
      ((p.down q).natAbs * (due (p.longer q) (p.across q).natAbs k + 1) : Nat)

/-- Twice the error is at most three times as large as the longer way. -/
theorem Keeps.error_bounds (h : Keeps p q k w) (hlong : 0 < p.longer q) :
    -(3 * (p.longer q : Int)) ≤ 2 * w.error.toInt ∧
      2 * w.error.toInt ≤ 3 * (p.longer q : Int) := by
  have hacross := due_bounds hlong (p.across q).natAbs k
  have hdown := due_bounds hlong (p.down q).natAbs k
  have hcases : (p.across q).natAbs = p.longer q ∧ (p.down q).natAbs ≤ p.longer q ∨
      (p.across q).natAbs ≤ p.longer q ∧ (p.down q).natAbs = p.longer q := by
    unfold Position.longer
    omega
  rw [h.error_eq]
  rcases hcases with ⟨heq, hle⟩ | ⟨hle, heq⟩
  · rw [heq, due_self hlong, Nat.mul_add, Nat.mul_add]
    omega
  · rw [heq, due_self hlong, Nat.mul_add, Nat.mul_add]
    omega

theorem Keeps.toInt_doubled (h : Keeps p q k w) (hnear : p.IsNear q) (hlong : 0 < p.longer q) :
    (2 * w.error).toInt = 2 * w.error.toInt := by
  have hbounds := h.error_bounds hlong
  have hwide := hnear.across_lt
  have hhigh := hnear.down_lt
  unfold Position.longer at hbounds
  rw [Int32.toInt_mul, show (2 : Int32).toInt = 2 from rfl, Int.bmod_eq_of_le] <;> omega

/-- The walk goes on along the columns exactly if a step is due there. -/
theorem Keeps.along_iff (h : Keeps p q k w) (hnear : p.IsNear q) (hlong : 0 < p.longer q) :
    -(q.y - p.y).abs ≤ 2 * w.error ↔ due (p.longer q) (p.across q).natAbs (k + 1) =
      due (p.longer q) (p.across q).natAbs k + 1 := by
  have hdue := due_succ hlong (show max (p.across q).natAbs (p.down q).natAbs = _ from rfl) k
  rw [Int32.le_iff_toInt_le, (setsOut hnear).rise, h.toInt_doubled hnear hlong, h.error_eq]
  simp only [Nat.mul_add, Nat.mul_one, Nat.mul_left_comm _ 2] at hdue ⊢
  split at hdue <;> omega

/-- The walk goes on along the rows exactly if a step is due there. -/
theorem Keeps.down_iff (h : Keeps p q k w) (hnear : p.IsNear q) (hlong : 0 < p.longer q) :
    2 * w.error ≤ (q.x - p.x).abs ↔
      due (p.longer q) (p.down q).natAbs (k + 1) = due (p.longer q) (p.down q).natAbs k + 1 := by
  have hmax : max (p.down q).natAbs (p.across q).natAbs = p.longer q := Nat.max_comm ..
  have hdue := due_succ hlong hmax k
  rw [Int32.le_iff_toInt_le, (setsOut hnear).run, h.toInt_doubled hnear hlong, h.error_eq]
  simp only [Nat.mul_add, Nat.mul_one, Nat.mul_left_comm _ 2] at hdue ⊢
  split at hdue <;> omega

/-- One step of the walk from `p` to `q`. -/
def proceed (p q : Position) : LineWalk → LineWalk :=
  step (q.x - p.x).abs (-(q.y - p.y).abs) (if p.x < q.x then 1 else -1)
    (if p.y < q.y then 1 else -1)

theorem Keeps.staysInWord (h : Keeps p q k w) (hnear : p.IsNear q) (hk : k < p.longer q) :
    StaysInWord (q.x - p.x).abs (-(q.y - p.y).abs) (if p.x < q.x then 1 else -1)
      (if p.y < q.y then 1 else -1) w := by
  have hlong : 0 < p.longer q := Nat.zero_lt_of_lt hk
  have hbounds := h.error_bounds hlong
  have hwide := hnear.across_lt
  have hhigh := hnear.down_lt
  have hrun := (setsOut hnear).run
  have hrise := (setsOut hnear).rise
  unfold Position.longer at hbounds
  have hturn : (w.error + -(q.y - p.y).abs).toInt = w.error.toInt + (-(q.y - p.y).abs).toInt := by
    rw [toInt_add_of_fits] <;> omega
  refine ⟨h.toInt_doubled hnear hlong, fun halong ↦ ⟨hturn, ?_⟩, fun hdown ↦ ⟨?_, ?_⟩⟩
  · rw [h.cell_eq]
    exact toInt_waypoint_add hk ((h.along_iff hnear hlong).mp halong)
  · unfold errorAlong
    split
    · rw [toInt_add_of_fits] <;> omega
    · rw [toInt_add_of_fits] <;> omega
  · rw [h.cell_eq]
    exact toInt_waypoint_add hk ((h.down_iff hnear hlong).mp hdown)

theorem Keeps.cell_proceed (h : Keeps p q k w) (hnear : p.IsNear q) (hk : k < p.longer q) :
    (proceed p q w).cell = p.waycell q (k + 1) := by
  have hlong : 0 < p.longer q := Nat.zero_lt_of_lt hk
  have hwords := h.staysInWord hnear hk
  have halong := h.along_iff hnear hlong
  have hdown := h.down_iff hnear hlong
  have hmax : max (p.down q).natAbs (p.across q).natAbs = p.longer q := Nat.max_comm ..
  rw [proceed, step_eq, Position.waycell, Position.mk.injEq]
  constructor
  · split
    · rename_i hstep
      rw [← Int32.toInt_inj, (hwords.along hstep).2, h.cell_eq]
      exact (toInt_waypoint_succ hk (halong.mp hstep)).symm
    · rename_i hstay
      rw [h.cell_eq]
      have hsame := (due_succ_cases hlong rfl k).resolve_left (mt halong.mpr hstay)
      exact (waypoint_of_due_eq hsame).symm
  · split
    · rename_i hstep
      rw [← Int32.toInt_inj, (hwords.down hstep).2, h.cell_eq]
      exact (toInt_waypoint_succ hk (hdown.mp hstep)).symm
    · rename_i hstay
      rw [h.cell_eq]
      have hsame := (due_succ_cases hlong hmax k).resolve_left (mt hdown.mpr hstay)
      exact (waypoint_of_due_eq hsame).symm

theorem Keeps.error_proceed (h : Keeps p q k w) (hnear : p.IsNear q) (hk : k < p.longer q) :
    (proceed p q w).error.toInt =
      ((p.across q).natAbs * (due (p.longer q) (p.down q).natAbs (k + 1) + 1) : Nat) -
        ((p.down q).natAbs * (due (p.longer q) (p.across q).natAbs (k + 1) + 1) : Nat) := by
  have hlong : 0 < p.longer q := Nat.zero_lt_of_lt hk
  have hwords := h.staysInWord hnear hk
  have halong := h.along_iff hnear hlong
  have hdown := h.down_iff hnear hlong
  have hmax : max (p.down q).natAbs (p.across q).natAbs = p.longer q := Nat.max_comm ..
  -- each comparison adds to the error what its axis adds to the weights
  have hturn : (w.errorAlong (-(q.y - p.y).abs)).toInt =
      ((p.across q).natAbs * (due (p.longer q) (p.down q).natAbs k + 1) : Nat) -
        ((p.down q).natAbs * (due (p.longer q) (p.across q).natAbs (k + 1) + 1) : Nat) := by
    have herror := h.error_eq
    unfold errorAlong
    split
    · rename_i hstep
      rw [(hwords.along hstep).1, (setsOut hnear).rise, halong.mp hstep, herror]
      simp only [Nat.mul_add]
      omega
    · rename_i hstay
      rw [(due_succ_cases hlong rfl k).resolve_left (mt halong.mpr hstay), herror]
  rw [proceed, step_eq]
  dsimp only
  split
  · rename_i hstep
    rw [(hwords.down hstep).1, hturn, (setsOut hnear).run, hdown.mp hstep]
    simp only [Nat.mul_add]
    omega
  · rename_i hstay
    rw [(due_succ_cases hlong hmax k).resolve_left (mt hdown.mpr hstay), hturn]

theorem Keeps.proceed (h : Keeps p q k w) (hnear : p.IsNear q) (hk : k < p.longer q) :
    Keeps p q (k + 1) (proceed p q w) :=
  ⟨h.cell_proceed hnear hk, h.error_proceed hnear hk⟩

/-! ## 4. The whole walk -/

/-- The walk from `p` to `q` after `k` steps. -/
def after (p q : Position) (k : Nat) : LineWalk := (LineWalk.proceed p q)^[k] (setOut p q)

theorem keeps_after (h : p.IsNear q) (hk : k ≤ p.longer q) : Keeps p q k (after p q k) := by
  induction k with
  | zero =>
    refine ⟨?_, ?_⟩
    · rw [Position.waycell, waypoint_zero, waypoint_zero]
      rfl
    · rw [due_zero, due_zero, Nat.zero_add, Nat.mul_one, Nat.mul_one]
      exact (setsOut h).error
  | succ k ih =>
    rw [after, Function.iterate_succ_apply']
    exact (ih (Nat.le_of_succ_le hk)).proceed h hk

/-- A walk that comes to its goal within the limit takes the cells up to there and no more, whatever
the limit is. By induction on the steps that are left. -/
theorem cellsTo_eq {run rise dx dy : Int32} {goal : Position} {n limit : Nat} (hlimit : n ≤ limit)
    (hbefore : ∀ k < n, ((step run rise dx dy)^[k] w).cell ≠ goal)
    (hgoal : ((step run rise dx dy)^[n] w).cell = goal) :
    cellsTo run rise dx dy goal limit w =
      (List.range (n + 1)).map fun k ↦ ((step run rise dx dy)^[k] w).cell := by
  induction n generalizing w limit with
  | zero =>
    cases limit with
    | zero => rfl
    | succ limit => exact if_pos hgoal
  | succ n ih =>
    obtain ⟨rest, rfl⟩ := Nat.exists_eq_add_of_lt hlimit
    have hnow : w.cell ≠ goal := hbefore 0 (Nat.succ_pos n)
    have hrest := ih (Nat.le_add_right n rest) (fun k hk ↦ hbefore (k + 1) (by omega)) hgoal
    rw [List.range_succ_eq_map, List.map_cons, List.map_map]
    show (if w.cell = goal then _ else _) = _
    rw [if_neg hnow, hrest]
    rfl

end LineWalk

/-! ## 5. The cells of the line -/

namespace Position

variable {p q : Position} {k l : Nat}

theorem eq_of_longer_eq_zero (h : p.longer q = 0) : p = q := by
  unfold longer across down at h
  exact eq_of_toInt_eq (by omega) (by omega)

theorem waycell_zero (p q : Position) : p.waycell q 0 = p := by
  rw [waycell, waypoint_zero, waypoint_zero]

theorem waycell_longer (p q : Position) : p.waycell q (p.longer q) = q := by
  rcases Nat.eq_zero_or_pos (p.longer q) with hzero | hlong
  · rw [hzero, waycell_zero]
    exact eq_of_longer_eq_zero hzero
  · rw [waycell, waypoint_long hlong, waypoint_long hlong]

theorem waycell_inj (hk : k ≤ p.longer q) (hl : l ≤ p.longer q)
    (h : p.waycell q k = p.waycell q l) : k = l := by
  obtain ⟨hx, hy⟩ := Position.mk.inj h
  rcases Nat.le_total (p.down q).natAbs (p.across q).natAbs with hwide | hhigh
  · exact waypoint_inj (Nat.max_eq_left hwide).symm hk hl hx
  · exact waypoint_inj (Nat.max_eq_right hhigh).symm hk hl hy

/-- One step along an axis is one number at most. -/
theorem waypoint_near {start goal : Int32} {long : Nat} (hk : k < long)
    (h : due long (goal.toInt - start.toInt).natAbs (k + 1) =
        due long (goal.toInt - start.toInt).natAbs k + 1 ∨
      due long (goal.toInt - start.toInt).natAbs (k + 1) =
        due long (goal.toInt - start.toInt).natAbs k) :
    ((waypoint start goal long k).toInt - (waypoint start goal long (k + 1)).toInt).natAbs ≤ 1 := by
  rcases h with hstep | hstay
  · rw [toInt_waypoint_succ hk hstep]
    split <;> simp
  · rw [waypoint_of_due_eq hstay]
    omega

theorem isNeighbor_waycell (hk : k < p.longer q) :
    (p.waycell q k).isNeighbor (p.waycell q (k + 1)) = true := by
  have hlong : 0 < p.longer q := Nat.zero_lt_of_lt hk
  have hmax : max (p.down q).natAbs (p.across q).natAbs = p.longer q := Nat.max_comm ..
  have hne : p.waycell q k ≠ p.waycell q (k + 1) :=
    fun heq ↦ Nat.ne_of_lt (Nat.lt_succ_self k) (waycell_inj (Nat.le_of_lt hk) hk heq)
  have hx : ((p.waycell q k).x.toInt - (p.waycell q (k + 1)).x.toInt).natAbs ≤ 1 :=
    waypoint_near hk (due_succ_cases hlong rfl k)
  have hy : ((p.waycell q k).y.toInt - (p.waycell q (k + 1)).y.toInt).natAbs ≤ 1 :=
    waypoint_near hk (due_succ_cases hlong hmax k)
  have hking := toNat_kingDistance (p.waycell q k) (p.waycell q (k + 1))
  have hapart : ((p.waycell q k).kingDistance (p.waycell q (k + 1))).toNat ≠ 0 := by
    intro hzero
    exact hne (eq_of_toInt_eq (by omega) (by omega))
  rw [isNeighbor, Bool.and_eq_true, bne_iff_ne, beq_iff_eq, ← UInt32.toNat_inj]
  refine ⟨hne, ?_⟩
  show _ = 1
  omega

theorem waycell_isBetween (hk : k ≤ p.longer q) : (p.waycell q k).IsBetween p q :=
  ⟨(waypoint_between hk).1, (waypoint_between hk).2,
    (waypoint_between hk).1, (waypoint_between hk).2⟩

/-- The cells are those of the straight line from `p` to `q`. The `k`-th of them is `k` steps away
along the longer axis, and along the shorter axis as many as the line itself to the nearest whole
number. -/
structure IsStraight (p q : Position) (cells : List Position) : Prop where
  length_eq : cells.length = p.longer q + 1
  wide : (p.down q).natAbs ≤ (p.across q).natAbs → ∀ (k : Nat) (c : Position), cells[k]? = some c →
    c.x.toInt = p.x.toInt + (p.across q).sign * k ∧
      c.y.toInt = p.y.toInt + (p.down q).sign * due (p.longer q) (p.shorter q) k
  high : (p.across q).natAbs ≤ (p.down q).natAbs → ∀ (k : Nat) (c : Position), cells[k]? = some c →
    c.x.toInt = p.x.toInt + (p.across q).sign * due (p.longer q) (p.shorter q) k ∧
      c.y.toInt = p.y.toInt + (p.down q).sign * k
  first : cells.head? = some p
  last : cells.getLast? = some q
  chain : cells.IsChain fun a b ↦ a.isNeighbor b = true
  nodup : cells.Nodup
  between : ∀ c ∈ cells, c.IsBetween p q

theorem waycells_isStraight (p q : Position) :
    IsStraight p q ((List.range (p.longer q + 1)).map (p.waycell q)) := by
  have hnth : ∀ {k c}, ((List.range (p.longer q + 1)).map (p.waycell q))[k]? = some c →
      k ≤ p.longer q ∧ p.waycell q k = c := by
    intro k c hc
    obtain ⟨hlt, rfl⟩ := List.getElem?_eq_some_iff.mp hc
    rw [List.length_map, List.length_range] at hlt
    rw [List.getElem_map, List.getElem_range]
    exact ⟨Nat.le_of_lt_succ hlt, rfl⟩
  refine ⟨by simp, ?_, ?_, ?_, ?_, ?_, ?_, ?_⟩
  · intro hwide k c hc
    obtain ⟨hk, rfl⟩ := hnth hc
    refine ⟨toInt_waypoint_self (Nat.max_eq_left hwide).symm hk, ?_⟩
    rw [shorter, Nat.min_eq_right hwide]
    exact toInt_waypoint hk
  · intro hhigh k c hc
    obtain ⟨hk, rfl⟩ := hnth hc
    refine ⟨?_, toInt_waypoint_self (Nat.max_eq_right hhigh).symm hk⟩
    rw [shorter, Nat.min_eq_left hhigh]
    exact toInt_waypoint hk
  · rw [List.range_succ_eq_map, List.map_cons, List.head?_cons, waycell_zero]
  · rw [List.range_succ, List.map_append, List.map_singleton, List.getLast?_concat, waycell_longer]
  · rw [List.isChain_iff_getElem]
    intro i hi
    simp only [List.length_map, List.length_range] at hi
    simp only [List.getElem_map, List.getElem_range]
    exact isNeighbor_waycell (by omega)
  · refine List.Nodup.map_on ?_ List.nodup_range
    intro i hi j hj hij
    rw [List.mem_range] at hi hj
    exact waycell_inj (by omega) (by omega) hij
  · intro c hc
    obtain ⟨k, hk, rfl⟩ := List.mem_map.mp hc
    rw [List.mem_range] at hk
    exact waycell_isBetween (by omega)

end Position

/-! ## 6. The line -/

open LineWalk

theorem cellsTo_setOut {p q : Position} (h : p.IsNear q) {limit : Nat}
    (hlimit : p.longer q ≤ limit) :
    cellsTo (q.x - p.x).abs (-(q.y - p.y).abs) (if p.x < q.x then 1 else -1)
      (if p.y < q.y then 1 else -1) q limit (setOut p q) =
        (List.range (p.longer q + 1)).map (p.waycell q) := by
  have hcell : ∀ {k}, k ≤ p.longer q → (after p q k).cell = p.waycell q k :=
    fun hk ↦ (keeps_after h hk).cell_eq
  rw [cellsTo_eq hlimit]
  · refine List.map_congr_left fun k hk ↦ ?_
    exact hcell (Nat.le_of_lt_succ (List.mem_range.mp hk))
  · intro k hk hgoal
    have hend := (hcell (Nat.le_of_lt hk)).symm.trans (hgoal.trans (p.waycell_longer q).symm)
    exact Nat.ne_of_lt hk (Position.waycell_inj (Nat.le_of_lt hk) (Nat.le_refl _) hend)
  · exact (hcell (Nat.le_refl _)).trans (p.waycell_longer q)

theorem line_eq {p q : Position} (h : p.IsNear q) :
    line p q = (List.range (p.longer q + 1)).map (p.waycell q) := by
  have hlimit : p.longer q ≤ (p.kingDistance q).toNat := by
    rw [Position.toNat_kingDistance]
    unfold Position.longer Position.across Position.down
    omega
  exact cellsTo_setOut h hlimit

/-- The line between two cells that are near each other is straight. The walk that finds it stops at
its goal whatever limit is set to its steps, as long as it is not too low, and no calculation on the
way there leaves the word. -/
theorem line_isStraight {p q : Position} (h : p.IsNear q) :
    Position.IsStraight p q (line p q) ∧
      (∀ limit, p.longer q ≤ limit →
        cellsTo (q.x - p.x).abs (-(q.y - p.y).abs) (if p.x < q.x then 1 else -1)
          (if p.y < q.y then 1 else -1) q limit (setOut p q) = line p q) ∧
      SetsOut p q ∧
      ∀ k < p.longer q, StaysInWord (q.x - p.x).abs (-(q.y - p.y).abs)
        (if p.x < q.x then 1 else -1) (if p.y < q.y then 1 else -1) (after p q k) := by
  refine ⟨?_, fun limit hlimit ↦ ?_, setsOut h, fun k hk ↦ ?_⟩
  · rw [line_eq h]
    exact Position.waycells_isStraight p q
  · rw [cellsTo_setOut h hlimit, line_eq h]
  · exact (keeps_after h (Nat.le_of_lt hk)).staysInWord h hk

/-- Four columns are crossed on two rows, and halves are rounded away from the start. -/
theorem line_isStraight_twoToOne :
    Position.IsNear ⟨0, 0⟩ ⟨4, -2⟩ ∧ Position.IsStraight ⟨0, 0⟩ ⟨4, -2⟩ (line ⟨0, 0⟩ ⟨4, -2⟩) ∧
    line ⟨0, 0⟩ ⟨4, -2⟩ = [⟨0, 0⟩, ⟨1, -1⟩, ⟨2, -1⟩, ⟨3, -2⟩, ⟨4, -2⟩] ∧
    SetsOut ⟨0, 0⟩ ⟨4, -2⟩ := by
  have hnear : Position.IsNear ⟨0, 0⟩ ⟨4, -2⟩ := ⟨by decide, by decide⟩
  obtain ⟨hstraight, -, hsets, -⟩ := line_isStraight hnear
  exact ⟨hnear, hstraight, by decide, hsets⟩

end Delve

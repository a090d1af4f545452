import Delve.Proofs.Meter
/-!
# The account of a meter

A meter is filled and drained by requests, and each of them reports how much it has moved. The
reports are to be trusted: nothing goes in or out without one, and no report is above what was asked
for. The one thing that this rests on is that a meter never holds more than its maximum, for then
neither difference between two amounts runs below zero. The main statement is `requests_account`.
-/

namespace Delve.Meter

variable {m start : Meter}

/-! ## 1. One request -/

theorem make_within (current maximum : UInt32) :
    (make current maximum).current ≤ (make current maximum).maximum :=
  Std.min_le_right

theorem toNat_drain (m : Meter) (amount : UInt32) :
    (m.drain amount).2.current.toNat = m.current.toNat - amount.toNat :=
  UInt32.toNat_subClamp m.current amount

/-- Filling takes nothing away. A meter above its maximum would be cut back to it. -/
theorem le_restore (hwithin : m.current ≤ m.maximum) (amount : UInt32) :
    m.current ≤ (m.restore amount).2.current := by
  have hafter := toNat_restore m amount
  rw [UInt32.le_iff_toNat_le] at hwithin ⊢
  omega

theorem restore_within (m : Meter) (amount : UInt32) :
    (m.restore amount).2.current ≤ (m.restore amount).2.maximum := by
  have hafter := toNat_restore m amount
  have hmaximum : (m.restore amount).2.maximum = m.maximum := rfl
  rw [UInt32.le_iff_toNat_le, hmaximum]
  omega

theorem drain_le (m : Meter) (amount : UInt32) : (m.drain amount).2.current ≤ m.current := by
  have hafter := toNat_drain m amount
  rw [UInt32.le_iff_toNat_le]
  omega

/-- What is reported of filling is the room that there was, unless less was asked for. -/
theorem toNat_restored (hwithin : m.current ≤ m.maximum) (amount : UInt32) :
    (m.restore amount).1.toNat = min amount.toNat (m.maximum.toNat - m.current.toNat) := by
  have hafter := toNat_restore m amount
  have hle := le_restore hwithin amount
  show ((m.restore amount).2.current - m.current).toNat = _
  -- the later amount is not below the earlier one, so the difference of the words is the true one
  rw [UInt32.toNat_sub_of_le _ _ hle]
  rw [UInt32.le_iff_toNat_le] at hwithin
  omega

theorem restored_le (hwithin : m.current ≤ m.maximum) (amount : UInt32) :
    (m.restore amount).1 ≤ amount := by
  have hreport := toNat_restored hwithin amount
  rw [UInt32.le_iff_toNat_le]
  omega

theorem toNat_drained (m : Meter) (amount : UInt32) :
    (m.drain amount).1.toNat = min amount.toNat m.current.toNat := by
  have hafter := toNat_drain m amount
  show (m.current - (m.drain amount).2.current).toNat = _
  rw [UInt32.toNat_sub_of_le _ _ (drain_le m amount)]
  omega

theorem drained_le (m : Meter) (amount : UInt32) : (m.drain amount).1 ≤ amount := by
  have hreport := toNat_drained m amount
  rw [UInt32.le_iff_toNat_le]
  omega

/-! ## 2. Accounts -/

/-- A meter as it is made at the beginning. -/
def IsMade (m : Meter) : Prop :=
  (∃ current maximum, m = make current maximum) ∨ ∃ maximum, m = full maximum

theorem IsMade.within (h : m.IsMade) : m.current ≤ m.maximum := by
  rcases h with ⟨current, maximum, rfl⟩ | ⟨maximum, rfl⟩
  · exact make_within current maximum
  · exact make_within maximum maximum

/-- A request to a meter. -/
inductive Request where
  | restore (amount : UInt32)
  | drain (amount : UInt32)

/-- A meter with what was reported of all requests, the last report first. -/
structure Account where
  meter : Meter
  restored : List UInt32 := []
  drained : List UInt32 := []

/-- The sum of some reports, over unbounded numbers. -/
def total (reports : List UInt32) : Nat := (reports.map UInt32.toNat).sum

theorem total_cons (report : UInt32) (reports : List UInt32) :
    total (report :: reports) = report.toNat + total reports := by
  rw [total, List.map_cons, List.sum_cons, total]

namespace Account

variable {a : Account}

def opened (m : Meter) : Account := { meter := m }

/-- The account after a request, with its report. -/
def enter (a : Account) : Request → Account
  | .restore amount =>
    let (added, meter) := a.meter.restore amount
    { a with meter, restored := added :: a.restored }
  | .drain amount =>
    let (removed, meter) := a.meter.drain amount
    { a with meter, drained := removed :: a.drained }

/-- The account after a list of requests. -/
def run (a : Account) (rs : List Request) : Account := rs.foldl enter a

/-- Between `start` and the meter of the account lies just what was reported. -/
structure Balanced (start : Meter) (a : Account) : Prop where
  maximum_eq : a.meter.maximum = start.maximum
  within : a.meter.current ≤ a.meter.maximum
  -- sums on both sides, since a difference of numbers would be cut off at zero
  balance : a.meter.current.toNat + total a.drained = start.current.toNat + total a.restored

theorem balanced_opened (hwithin : start.current ≤ start.maximum) :
    (opened start).Balanced start where
  maximum_eq := rfl
  within := hwithin
  balance := rfl

theorem Balanced.restore (h : a.Balanced start) (amount : UInt32) :
    (a.enter (.restore amount)).Balanced start where
  maximum_eq := h.maximum_eq
  within := restore_within a.meter amount
  balance := by
    have hbalance := h.balance
    have hafter := toNat_restore a.meter amount
    have hreport := toNat_restored h.within amount
    have hwithin := UInt32.le_iff_toNat_le.mp h.within
    show (a.meter.restore amount).2.current.toNat + total a.drained =
      start.current.toNat + total ((a.meter.restore amount).1 :: a.restored)
    rw [total_cons]
    omega

theorem Balanced.drain (h : a.Balanced start) (amount : UInt32) :
    (a.enter (.drain amount)).Balanced start where
  maximum_eq := h.maximum_eq
  within := UInt32.le_trans (drain_le a.meter amount) h.within
  balance := by
    have hbalance := h.balance
    have hafter := toNat_drain a.meter amount
    have hreport := toNat_drained a.meter amount
    show (a.meter.drain amount).2.current.toNat +
      total ((a.meter.drain amount).1 :: a.drained) = start.current.toNat + total a.restored
    rw [total_cons]
    omega

theorem Balanced.enter (h : a.Balanced start) (r : Request) : (a.enter r).Balanced start := by
  cases r with
  | restore amount => exact h.restore amount
  | drain amount => exact h.drain amount

theorem Balanced.run (h : a.Balanced start) (rs : List Request) : (a.run rs).Balanced start := by
  induction rs generalizing a with
  | nil => exact h
  | cons r rs ih => exact ih (h.enter r)

/-- Whatever is asked of a meter, its maximum stays and it never holds more than that. Each request
moves as much as was asked for and as there is room or stock for, and reports just this. No amount
is taken away from a smaller one in it. What the meter holds is what it began with and what was
restored, less what was drained. -/
theorem requests_account (hstart : start.IsMade) (rs : List Request) :
    let a := (opened start).run rs
    a.meter.maximum = start.maximum ∧ a.meter.current ≤ a.meter.maximum ∧
    (∀ amount, a.meter.current ≤ (a.meter.restore amount).2.current ∧
      (a.meter.restore amount).1 ≤ amount ∧
      (a.meter.restore amount).1.toNat =
        min amount.toNat (a.meter.maximum.toNat - a.meter.current.toNat)) ∧
    (∀ amount, (a.meter.drain amount).2.current ≤ a.meter.current ∧
      (a.meter.drain amount).1 ≤ amount ∧
      (a.meter.drain amount).1.toNat = min amount.toNat a.meter.current.toNat) ∧
    (a.meter.current.toNat : Int) =
      start.current.toNat + total a.restored - total a.drained := by
  intro a
  have h : a.Balanced start := (balanced_opened hstart.within).run rs
  refine ⟨h.maximum_eq, h.within, fun amount ↦ ?_, fun amount ↦ ?_, ?_⟩
  · exact ⟨le_restore h.within amount, restored_le h.within amount,
      toNat_restored h.within amount⟩
  · exact ⟨drain_le a.meter amount, drained_le a.meter amount, toNat_drained a.meter amount⟩
  · have hbalance := h.balance
    omega

/-- A full meter of the largest size is asked for more than it holds and offered more than it can
take. -/
theorem largest_account :
    let start : Meter := .full 4294967295
    let a := (opened start).run [.restore 1, .drain 7, .restore 4294967295, .drain 4294967295,
      .drain 4294967295, .restore 3]
    start.IsMade ∧ a.restored = [3, 7, 0] ∧ a.drained = [0, 4294967295, 7] ∧
      a.meter.current = 3 ∧
      (a.meter.current.toNat : Int) =
        start.current.toNat + total a.restored - total a.drained := by
  intro start a
  have hstart : start.IsMade := Or.inr ⟨4294967295, rfl⟩
  exact ⟨hstart, by decide, by decide, by decide, (requests_account hstart _).2.2.2.2⟩

end Account

end Delve.Meter

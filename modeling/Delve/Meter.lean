import Delve.Clamp
/-!
# Meters

A bounded resource such as health or mana.
-/

namespace Delve

/-- An amount and the most that it can be. -/
structure Meter where
  current : UInt32
  maximum : UInt32
deriving DecidableEq, Repr, Inhabited

namespace Meter

def make (current maximum : UInt32) : Meter := ⟨min current maximum, maximum⟩

def full (maximum : UInt32) : Meter := make maximum maximum

/-- A meter that holds nothing and never will. -/
def empty : Meter := ⟨0, 0⟩

def isFull (m : Meter) : Bool := m.maximum ≤ m.current

def isEmpty (m : Meter) : Bool := m.current == 0

/-- The amount in hundredths of the maximum, rounded down, and 0 where the maximum is 0. The
hundredfold is a word: it wraps for amounts above a hundredth of the largest one. -/
def percent (m : Meter) : UInt32 :=
  if m.maximum = 0 then 0 else m.current * 100 / m.maximum

/-- Adds up to `amount`, as far as the maximum allows, and tells how much was added. -/
def restore (m : Meter) (amount : UInt32) : UInt32 × Meter :=
  let after := min (m.current.addClamp amount) m.maximum
  (after - m.current, { m with current := after })

/-- Removes up to `amount`, as far as there is any, and tells how much was removed. -/
def drain (m : Meter) (amount : UInt32) : UInt32 × Meter :=
  let after := m.current.subClamp amount
  (m.current - after, { m with current := after })

end Meter

end Delve

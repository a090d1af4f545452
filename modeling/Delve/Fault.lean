/-!
# Faults

What stops the game outright. Everything that goes wrong in play is a failed action; a fault is a
calculation that has no answer.
-/

namespace Delve

/-- A calculation without an answer. -/
inductive Fault where
  /-- The least chance to hit lies above the greatest. -/
  | crossedHitChances
  /-- A draw from all the words of 32 bits: their number is no such word. -/
  | unboundedDraw
deriving DecidableEq, Repr

end Delve

import Delve.Text.Integer
/-!
# Integers in other bases

Digits and numbers in bases up to sixteen.
-/

namespace Delve.Text

/-- The value of a hexadecimal digit, small or capital. -/
def hexDigit? (c : Char) : Option Nat :=
  if 'a' ≤ c ∧ c ≤ 'f' then some (c.toNat - 'a'.toNat + 10)
  else if 'A' ≤ c ∧ c ≤ 'F' then some (c.toNat - 'A'.toNat + 10)
  else digit? c

def isHexDigit (c : Char) : Bool := (hexDigit? c).isSome

def appendDigit? (base n : Nat) (c : Char) : Option Nat :=
  match hexDigit? c with
  | some d => if d < base then some (base * n + d) else none
  | none => none

/-- The number that digits stand for in the given base. No digits stand for 0. -/
def ofDigits? (base : Nat) (digits : List Char) : Option Nat :=
  digits.foldlM (appendDigit? base) 0

end Delve.Text

/-!
# Integers in decimal

How whole numbers are written and read. A number is read from the left, and the first character
at which it cannot go on decides what is wrong with it: a character that is no digit, or a digit
that takes the number out of its range.
-/

namespace Delve.Text

inductive IntegerFault where
  | empty
  | invalidDigit
  | tooLarge
  | tooSmall
deriving DecidableEq, Repr

def IntegerFault.message : IntegerFault → String
  | .empty => "cannot parse integer from empty string"
  | .invalidDigit => "invalid digit found in string"
  | .tooLarge => "number too large to fit in target type"
  | .tooSmall => "number too small to fit in target type"

def digit? (c : Char) : Option Nat :=
  if '0' ≤ c ∧ c ≤ '9' then some (c.toNat - '0'.toNat) else none

/-- Appends the digits of `cs` to the number `n`, away from zero on the side that `negative`
tells, and stops at the first that leads out of `lo` to `hi`. -/
def readDigits (lo hi : Int) (negative : Bool) (n : Int) : List Char → Except IntegerFault Int
  | [] => .ok n
  | c :: cs =>
    match digit? c with
    | none => .error .invalidDigit
    | some d =>
      let next := if negative then 10 * n - d else 10 * n + d
      if next < lo then .error .tooSmall
      else if hi < next then .error .tooLarge
      else readDigits lo hi negative next cs

/-- Reads an integer between `lo` and `hi`. One sign may stand in front of the digits, a minus
only where the range has numbers below zero. -/
def readInteger (lo hi : Int) : List Char → Except IntegerFault Int
  | [] => .error .empty
  | ['+'] | ['-'] => .error .invalidDigit
  | '+' :: cs => readDigits lo hi false 0 cs
  | '-' :: cs => if lo < 0 then readDigits lo hi true 0 cs else .error .invalidDigit
  | cs => readDigits lo hi false 0 cs

def readInt32 (cs : List Char) : Except IntegerFault Int32 :=
  (readInteger Int32.minValue.toInt Int32.maxValue.toInt cs).map .ofInt

def readUInt32 (cs : List Char) : Except IntegerFault UInt32 :=
  (readInteger 0 (UInt32.size - 1) cs).map fun n => .ofNat n.toNat

def readUInt64 (cs : List Char) : Except IntegerFault UInt64 :=
  (readInteger 0 (UInt64.size - 1) cs).map fun n => .ofNat n.toNat

def showNat (n : Nat) : List Char := Nat.toDigits 10 n

def showInt (n : Int) : List Char :=
  if n < 0 then '-' :: showNat n.natAbs else showNat n.natAbs

end Delve.Text

import Delve.Text.Radix
/-!
# Scalars of settings

Which runs of characters are integers, other numbers, dates and times.
-/

namespace Delve.Toml

open Text

/-! ## Numbers -/

/-- Removes the underscores from digits that pass a test. Each has to stand between two digits. -/
def joinDigits? (test : Char → Bool) : List Char → Option (List Char)
  | [] => none
  | [c] => if test c then some [c] else none
  | c :: '_' :: cs => if test c then (joinDigits? test cs).map (c :: ·) else none
  | c :: cs => if test c then (joinDigits? test cs).map (c :: ·) else none

/-- The digits of a number in base ten, of which more than one cannot begin with a zero. -/
def wholeDigits? (cs : List Char) : Option (List Char) :=
  match joinDigits? Char.isDigit cs with
  | some ('0' :: _ :: _) => none
  | digits => digits

def splitSign : List Char → Bool × List Char
  | '-' :: cs => (true, cs)
  | '+' :: cs => (false, cs)
  | cs => (false, cs)

def wholeNumber? (cs : List Char) : Option Nat := (wholeDigits? cs).bind (ofDigits? 10)

/-- The integer of a scalar, which has room in a word of 128 bits. Only one in base ten can have a
sign. -/
def integer? (cs : List Char) : Option Int :=
  let inBase (base : Nat) (cs : List Char) := (joinDigits? isHexDigit cs).bind (ofDigits? base)
  let n : Option Int :=
    match cs with
    | '-' :: cs => (wholeNumber? cs).map fun n => -(n : Int)
    | '+' :: cs => (wholeNumber? cs).map Int.ofNat
    | '0' :: 'x' :: cs => (inBase 16 cs).map Int.ofNat
    | '0' :: 'o' :: cs => (inBase 8 cs).map Int.ofNat
    | '0' :: 'b' :: cs => (inBase 2 cs).map Int.ofNat
    | cs => (wholeNumber? cs).map Int.ofNat
  n.filter fun n => -(Nat.pow 2 127 : Int) ≤ n && n < Nat.pow 2 128

/-- The digits behind a mark. Both may be missing, but not the digits alone. -/
def digitsBehind? : List Char → Option (List Char)
  | [] => some []
  | _ :: cs => joinDigits? Char.isDigit cs

/-- The digits of a number with a point, an exponent or both, and the power of ten by which they
count. -/
def scientific? (cs : List Char) : Option (List Char × Int) := do
  let (mantissa, mark) := cs.span fun c => c != 'e' && c != 'E'
  let (whole, point) := mantissa.span (· != '.')
  let (negative, power) := splitSign mark.tail
  let whole ← wholeDigits? whole
  let fraction ← digitsBehind? point
  let size ← ofDigits? 10 (← digitsBehind? (mark.take 1 ++ power))
  let exponent : Int := if negative then -size else size
  if point.isEmpty && mark.isEmpty then none
  else return (whole ++ fraction, exponent - fraction.length)

/-- Whether a number is not below the one halfway between the largest floating-point number of 64
bits and 2 ^ 1024, so that it would be rounded to infinity. -/
def overflows (digits : List Char) (exponent : Int) : Bool :=
  let digits := digits.dropWhile (· == '0')
  let n := (ofDigits? 10 digits).getD 0
  let limit := Nat.pow 2 1024 - Nat.pow 2 970
  -- the limit has 309 digits, so only a number with as many before its point has to be compared
  let places := digits.length + exponent
  n != 0 && (309 < places || (places = 309 &&
    limit * Nat.pow 10 (-exponent).toNat ≤ n * Nat.pow 10 exponent.toNat))

/-- Whether a scalar is a number with a point, an exponent or both that is not too large, or one of
the words for what no digits can say. -/
def isDecimal (cs : List Char) : Bool :=
  let (_, cs) := splitSign cs
  cs == "inf".toList || cs == "nan".toList ||
    (scientific? cs).any fun (digits, exponent) => !overflows digits exponent

/-! ## Dates and times -/

def numbersIn (cs : List Char) : List Nat :=
  (cs.splitBy fun a b => a.isDigit == b.isDigit).filterMap (ofDigits? 10)

/-- The numbers in characters of a given shape, in which a `0` stands for any digit. -/
def shaped? (shape : String) (cs : List Char) : Option (List Nat) :=
  if cs.map (fun c => if c.isDigit then '0' else c) = shape.toList then some (numbersIn cs)
  else none

def daysOf (year month : Nat) : Nat :=
  if month = 2 then if year % 4 = 0 ∧ (year % 100 ≠ 0 ∨ year % 400 = 0) then 29 else 28
  else if [4, 6, 9, 11].contains month then 30 else 31

def isDate (cs : List Char) : Bool :=
  match shaped? "0000-00-00" cs with
  | some [year, month, day] => 1 ≤ month && month ≤ 12 && 1 ≤ day && day ≤ daysOf year month
  | _ => false

/-- Whether characters are a time of day. The seconds may be left out, and may have a fraction. -/
def isTime (cs : List Char) : Bool :=
  let (cs, fraction) := cs.span (· != '.')
  match shaped? "00:00:00" cs, shaped? "00:00" cs with
  | some [hour, minute, second], _ =>
    hour < 24 && minute < 60 && second ≤ 60 &&
      (fraction.isEmpty || (fraction.length != 1 && fraction.tail.all Char.isDigit))
  | _, some [hour, minute] => hour < 24 && minute < 60 && fraction.isEmpty
  | _, _ => false

def isOffset (cs : List Char) : Bool :=
  match cs with
  | [] | ['Z'] | ['z'] => true
  | c :: cs =>
    match shaped? "00:00" cs with
    | some [hour, minute] => (c == '+' || c == '-') && hour < 24 && minute < 60
    | _ => false

/-- Whether a scalar is a date, a time, or a date with a time and perhaps an offset. -/
def isMoment (cs : List Char) : Bool :=
  let (date, rest) := cs.splitAt 10
  let (time, offset) := rest.tail.span fun c => c.isDigit || c == ':' || c == '.'
  isTime cs || (isDate date && (rest.isEmpty ||
    (['T', 't', ' '].contains (rest.headD ' ') && isTime time && isOffset offset)))

end Delve.Toml

import Delve.Grid.Position
import Delve.Text.Blank
import Delve.Text.Integer
/-!
# Written positions

A position is written as its two numbers with a comma between them. Reading allows blanks around
both numbers and a sign in front of each.
-/

namespace Delve.Position

open Text

def toChars (p : Position) : List Char := showInt p.x.toInt ++ ',' :: showInt p.y.toInt

def text (p : Position) : String := .ofList p.toChars

/-- What stands before and after the first comma. Without a comma the second part is empty. -/
def splitComma (cs : List Char) : List Char × List Char :=
  (cs.takeWhile (· != ','), (cs.dropWhile (· != ',')).drop 1)

/-- Reads a position. A fault of the first number is reported before one of the second. -/
def ofChars (cs : List Char) : Except IntegerFault Position := do
  let (first, second) := splitComma cs
  let x ← readInt32 (trim first)
  let y ← readInt32 (trim second)
  return ⟨x, y⟩

def parse (s : String) : Except IntegerFault Position := ofChars s.toList

def parse? (s : String) : Option Position := (parse s).toOption

end Delve.Position

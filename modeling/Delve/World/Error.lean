import Delve.Actor
import Delve.Grid.Coordinates
import Delve.Text.Quoted
/-!
# Refused changes

Why a change of the world is refused, and how much that matters. In play a refusal is a failed
action; nothing here stops the game.
-/

namespace Delve

inductive LayoutFault where
  /-- There is no row, or the first row has no column. -/
  | empty
  /-- A row is shorter or longer than the first. -/
  | ragged (row columns expected : Nat)
  | unknownGlyph (glyph : Char) (cell : Position)
deriving DecidableEq, Repr

def LayoutFault.message : LayoutFault → String
  | .empty => "empty layout"
  | .ragged row columns expected =>
    "row " ++ toString row ++ " has " ++ toString columns ++ " columns, expected " ++
      toString expected
  | .unknownGlyph glyph p => "unknown glyph " ++ Text.quoteChar glyph ++ " at " ++ p.text

inductive WorldError where
  | outOfBounds (cell : Position)
  | blocked (cell : Position)
  | occupied (cell : Position)
  | notAdjacent (start goal : Position)
  | notMineable (cell : Position)
  | unknownActor (id : ActorId)
  | malformedLayout (fault : LayoutFault)
deriving DecidableEq, Repr

inductive Severity where
  /-- Another action may succeed. -/
  | recoverable
  /-- The request makes no sense and should not be repeated. -/
  | validation
  /-- The caller or the content is broken. -/
  | internal
deriving DecidableEq, Repr

def Severity.name : Severity → String
  | .recoverable => "recoverable"
  | .validation => "validation"
  | .internal => "internal"

namespace WorldError

def name : WorldError → String
  | outOfBounds _ => "OutOfBounds"
  | blocked _ => "Blocked"
  | occupied _ => "Occupied"
  | notAdjacent _ _ => "NotAdjacent"
  | notMineable _ => "NotMineable"
  | unknownActor _ => "UnknownActor"
  | malformedLayout _ => "MalformedLayout"

def message : WorldError → String
  | outOfBounds p => "position " ++ p.text ++ " is out of bounds"
  | blocked p => "position " ++ p.text ++ " is blocked"
  | occupied p => "position " ++ p.text ++ " is occupied"
  | notAdjacent p q => "cannot step from " ++ p.text ++ " to " ++ q.text ++ ": not adjacent"
  | notMineable p => "nothing to mine at " ++ p.text
  | unknownActor id => "unknown actor " ++ id.text
  | malformedLayout fault => "malformed layout: " ++ fault.message

def severity : WorldError → Severity
  | blocked _ | occupied _ => .recoverable
  | outOfBounds _ | notAdjacent _ _ | notMineable _ => .validation
  | unknownActor _ | malformedLayout _ => .internal

end WorldError

end Delve

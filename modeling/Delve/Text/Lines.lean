/-!
# The lines of a text

A line ends at a line feed, and a carriage return right before the feed belongs to the ending.
What follows the last feed is a line of its own unless it is empty.
-/

namespace Delve.Text

/-- The rest of a text's lines, with the characters of the open line in `pending`, last first. -/
def linesFrom (pending : List Char) : List Char → List (List Char)
  | [] => if pending.isEmpty then [] else [pending.reverse]
  | c :: cs =>
    if c = '\n' then
      let line := match pending with
        | '\r' :: rest => rest
        | whole => whole
      line.reverse :: linesFrom [] cs
    else linesFrom (c :: pending) cs

def lines (text : String) : List String := (linesFrom [] text.toList).map .ofList

def unlines (rows : List String) : String := .join (rows.map (· ++ "\n"))

end Delve.Text

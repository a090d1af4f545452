/-!
# Readers

A reader takes what it reads from the front of a text, or fails. Where one of two readers is to
succeed, the second starts where the first did.
-/

namespace Delve.Text

abbrev Reader (α : Type) := StateT (List Char) Option α

namespace Reader

variable {α : Type}

/-- The next character, which stays. -/
def peek? : Reader (Option Char) := return (← get).head?

def satisfy (test : Char → Bool) : Reader Char
  | c :: cs => if test c then some (c, cs) else none
  | [] => none

def anyChar : Reader Char := satisfy fun _ => true

def char (c : Char) : Reader Unit := discard (satisfy (· == c))

def word (s : String) : Reader Unit := s.toList.forM char

def run (test : Char → Bool) : Reader (List Char) := modifyGet (·.span test)

def run1 (test : Char → Bool) : Reader (List Char) := return (← satisfy test) :: (← run test)

/-- Takes nothing where a reader fails, and tells whether it succeeded. -/
def took (r : Reader Unit) : Reader Bool := (do r; return true) <|> return false

def perhaps (r : Reader α) : Reader (Option α) := some <$> r <|> return none

/-- Reads items, one after the other, up to the first failure, but not more than a given text has
characters. -/
def manyWithin (item : Reader α) : List Char → Reader (List α)
  | [] => return []
  | _ :: limit => fun cs =>
    match item cs with
    | none => some ([], cs)
    | some (a, cs) => (manyWithin item limit cs).map fun (as, cs) => (a :: as, cs)

def many (item : Reader α) : Reader (List α) := fun cs => manyWithin item cs cs

/-- Reads items that are separated by commas, and the character that closes them, but not more of
all these than a given text has characters. -/
def enclosedWithin (gap : Reader Unit) (close : Char) (item : Reader α) :
    List Char → Reader (List α)
  | [] => failure
  | _ :: limit => do
    gap
    if ← took (char close) then return []
    let a ← item
    gap
    if ← took (char ',') then return a :: (← enclosedWithin gap close item limit)
    char close
    return [a]

/-- Reads the rest of a list up to its closing character. Items are separated by commas, one more
comma may follow the last, and a gap may stand between any two of all these. -/
def enclosed (gap : Reader Unit) (close : Char) (item : Reader α) : Reader (List α) :=
  fun cs => enclosedWithin gap close item cs cs

def all? (r : Reader α) (text : String) : Option α :=
  match r text.toList with
  | some (a, []) => some a
  | _ => none

def times (n : Nat) (item : Reader α) : Reader (List α) :=
  match n with
  | 0 => return []
  | n + 1 => return (← item) :: (← times n item)

end Reader

end Delve.Text

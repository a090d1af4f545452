import Delve.Text.Reader
import Delve.Toml.Scalar
import Delve.Toml.Value
/-!
# Literals of settings

Blanks, comments, texts, numbers and moments.
-/

namespace Delve.Toml

open Text Text.Reader

/-! ## Between symbols -/

def isSpace (c : Char) : Bool := c == ' ' || c == '\t'

def isPlain (c : Char) : Bool := c == '\t' || (0x20 ≤ c.toNat && c.toNat != 0x7F)

def space : Reader Unit := discard (run isSpace)

def newline : Reader Unit := word "\n" <|> word "\r\n"

def comment : Reader Unit := do char '#'; discard (run isPlain)

/-- Takes everything up to the next symbol inside of brackets, where lines do not matter. -/
def gap : Reader Unit := discard (many (discard (run1 isSpace) <|> newline <|> comment))

/-! ## Texts -/

def numberedChar (digits : Nat) : Reader Char := do
  let n ← ofDigits? 16 (← times digits (satisfy isHexDigit))
  if n.isValidChar then return .ofNat n else failure

def escape : Reader Char := do
  char '\\'
  match ← anyChar with
  | 'b' => return .ofNat 8
  | 't' => return '\t'
  | 'n' => return '\n'
  | 'f' => return .ofNat 12
  | 'r' => return '\r'
  | 'e' => return .ofNat 27
  | '"' => return '"'
  | '\\' => return '\\'
  | 'x' => numberedChar 2
  | 'u' => numberedChar 4
  | 'U' => numberedChar 8
  | _ => failure

/-- Takes a backslash at the end of a line, and all blanks and line ends behind it. -/
def continuation : Reader Unit := do
  char '\\'
  space
  newline
  discard (many (discard (run1 isSpace) <|> newline))

def quoted : Reader String := do
  char '"'
  let cs ← many (satisfy (fun c => isPlain c && c != '"' && c != '\\') <|> escape)
  char '"'
  return .ofList cs

def literal : Reader String := do
  char '\''
  let cs ← run fun c => isPlain c && c != '\''
  char '\''
  return .ofList cs

/-- Reads one or two quotes that do not end a text between threefold quotes. -/
def loneQuotes (quote : Char) : Reader (List Char) := do
  let quotes ← run1 (· == quote)
  if quotes.length < 3 then return quotes else failure

/-- Reads a text between threefold quotes, given how its pieces are read. A line end right behind
the opening quotes does not count, and up to two further quotes may stand before the closing
ones. -/
def block (quote : Char) (piece : Reader (List Char)) : Reader String := do
  discard (times 3 (char quote))
  discard (took newline)
  let body ← many (piece <|> loneQuotes quote <|> (do newline; return ['\n']))
  let quotes ← run (· == quote)
  if 3 ≤ quotes.length ∧ quotes.length ≤ 5 then
    return .ofList (body.flatten ++ quotes.drop 3)
  else failure

def quotedBlock : Reader String :=
  block '"' ((do continuation; return []) <|> (do return [← escape]) <|>
    run1 fun c => isPlain c && c != '"' && c != '\\')

def literalBlock : Reader String := block '\'' (run1 fun c => isPlain c && c != '\'')

/-! ## Scalars -/

def isScalarChar (c : Char) : Bool :=
  c.isAlphanum || c == '_' || c == '+' || c == '-' || c == '.' || c == ':'

/-- Reads a truth value, a number or a moment. A blank may stand between a date and a time. -/
def scalar : Reader Value := do
  let cs ← run1 isScalarChar
  -- a digit behind a single blank can only be the time that belongs to a date
  let time ← perhaps do
    char ' '
    let digit ← satisfy Char.isDigit
    return ' ' :: digit :: (← run isScalarChar)
  match isDate cs, time with
  | true, some time =>
    if isMoment (cs ++ time) then return .moment (.ofList (cs ++ time)) else failure
  | false, some _ => failure
  | _, none =>
    if cs = "true".toList then return .boolean true
    else if cs = "false".toList then return .boolean false
    else if let some n := integer? cs then return .integer n
    else if isDecimal cs then return .decimal (.ofList cs)
    else if isMoment cs then return .moment (.ofList cs)
    else failure

end Delve.Toml

import Delve.Ron.Value
import Delve.Text.Identifier
import Delve.Text.Reader
/-!
# Literals of object notation

Blanks, comments, names, texts, letters, bytes and numbers.
-/

namespace Delve.Ron

open Text Text.Reader

/-! ## Blanks and comments -/

def isSpace (c : Char) : Bool :=
  let n := c.toNat
  n == 0x20 || (9 ≤ n && n ≤ 13) || n == 0x85 || n == 0x200E || n == 0x200F || n == 0x2028 ||
    n == 0x2029

/-- What follows a block comment, inside of `depth` further ones. -/
def afterComment? : Nat → List Char → Option (List Char)
  | _, [] => none
  | 0, '*' :: '/' :: cs => some cs
  | depth + 1, '*' :: '/' :: cs => afterComment? depth cs
  | depth, '/' :: '*' :: cs => afterComment? (depth + 1) cs
  | depth, _ :: cs => afterComment? depth cs

def comment : Reader Unit :=
  (do word "//"; discard (run (· != '\n'))) <|>
    (do word "/*"; fun cs => (afterComment? 0 cs).map ((), ·))

def gap : Reader Unit := discard (many (discard (run1 isSpace) <|> comment))

/-! ## Names -/

def isNameStart (c : Char) : Bool := c == '_' || isIdentifierStart c

/-- The characters of names that are marked, and of what follows a number without a gap. -/
def isTokenChar (c : Char) : Bool := isIdentifierPart c || c == '.' || c == '+' || c == '-'

def plainName : Reader String := do
  return .ofList ((← satisfy isNameStart) :: (← run isIdentifierPart))

/-- Reads a name that is marked with `r#`, and is never a word of the notation. -/
def markedName : Reader String := do
  word "r#"
  return .ofList (← run1 isTokenChar)

def name : Reader String := markedName <|> plainName

/-! ## Texts and letters -/

def escaped? : Char → Option Char
  | '\'' => some '\''
  | '"' => some '"'
  | '\\' => some '\\'
  | 'n' => some '\n'
  | 'r' => some '\r'
  | 't' => some '\t'
  | '0' => some (.ofNat 0)
  | _ => none

def digitPair : Reader UInt8 := do
  return .ofNat (← ofDigits? 16 (← times 2 (satisfy isHexDigit)))

/-- Reads a character that is written as the bytes of its UTF-8 form, where `bytes` are the ones
before, and at most `n` are to come. -/
def encodedChar (bytes : List UInt8) : Nat → Reader Char
  | 0 => failure
  | n + 1 => do
    let bytes := bytes ++ [← digitPair]
    match (String.fromUTF8? ⟨bytes.toArray⟩).map (·.toList) with
    | some [c] => return c
    | _ => do word "\\x"; encodedChar bytes n

def numberedChar : Reader Char := do
  char '\x7b'
  let digits ← run1 isHexDigit
  char '\x7d'
  let n ← ofDigits? 16 digits
  if digits.length ≤ 6 ∧ n.isValidChar then return .ofNat n else failure

/-- Reads an escape, of which at most `bytes` bytes may form one character. -/
def escape (bytes : Nat) : Reader Char := do
  char '\\'
  match ← anyChar with
  | 'x' => encodedChar [] bytes
  | 'u' => numberedChar
  | c => escaped? c

def quoted : Reader String := do
  char '"'
  let cs ← many (satisfy (fun c => c != '"' && c != '\\') <|> escape 4)
  char '"'
  return .ofList cs

def splitAt? (mark : List Char) : List Char → Option (List Char × List Char)
  | [] => if mark.isEmpty then some ([], []) else none
  | c :: cs =>
    if mark.isPrefixOf (c :: cs) then some ([], (c :: cs).drop mark.length)
    else (splitAt? mark cs).map fun (before, after) => (c :: before, after)

/-- Reads a text without escapes, which ends at a quote with as many hashes as it began with. -/
def raw : Reader String := do
  char 'r'
  let hashes ← run (· == '#')
  char '"'
  .ofList <$> fun cs => splitAt? ('"' :: hashes) cs

/-- Reads a letter between single quotes. A single quote needs no escape there. -/
def letter : Reader Char := do
  char '\''
  let c ← satisfy (· != '\\') <|> escape 1
  char '\''
  return c

/-! ## Bytes -/

def byteEscape : Reader UInt8 := do
  char '\\'
  match ← anyChar with
  | 'x' => digitPair
  | c => return .ofNat (← escaped? c).toNat

def byteLetter : Reader UInt8 := do
  word "b'"
  let plain := satisfy fun c => c.toNat < 128 && c != '\\'
  let b ← (do return .ofNat (← plain).toNat) <|> byteEscape
  char '\''
  return b

def quotedBytes : Reader (List UInt8) := do
  word "b\""
  let plain := satisfy (fun c => c != '"' && c != '\\') <|> (do word "\\u"; numberedChar)
  let pieces ← many ((do return String.utf8EncodeChar (← plain)) <|> (do return [← byteEscape]))
  char '"'
  return pieces.flatten

def rawBytes : Reader (List UInt8) := do
  char 'b'
  return (← raw).toList.flatMap String.utf8EncodeChar

/-! ## Numbers -/

def base : Reader Nat :=
  (do word "0x"; return 16) <|> (do word "0o"; return 8) <|> (do word "0b"; return 2) <|> return 10

def sign : Reader Bool := do
  if ← took (char '-') then return true
  discard (took (char '+'))
  return false

def integerTypes : List (String × Int × Int) :=
  [8, 16, 32, 64].flatMap fun bits : Nat =>
    [("i" ++ toString bits, -Nat.pow 2 (bits - 1), Nat.pow 2 (bits - 1) - 1),
      ("u" ++ toString bits, 0, Nat.pow 2 bits - 1)]

/-- Reads an integer, which has room in a word of 64 bits. Underscores may stand behind its first
digit. The name of a type that it belongs to may follow, except behind the digits of the bases eight
and sixteen. -/
def integer : Reader Value := do
  let negative ← sign
  let base ← base
  let digits ← run1 fun c => isHexDigit c || c == '_'
  if digits.head? = some '_' then failure
  let size ← ofDigits? base (digits.filter (· != '_'))
  let n : Int := if negative then -size else size
  match ← run isTokenChar with
  | [] => if Int64.minValue.toInt ≤ n ∧ n < UInt64.size then return .integer n none else failure
  | type =>
    let (low, high) ← integerTypes.lookup (.ofList type)
    if base ≤ 10 ∧ base ≠ 8 ∧ low ≤ n ∧ n ≤ high then
      return .integer n (some (.ofList type))
    else failure

/-- The characters of a number without its underscores. One of these may stand behind a digit or
the mark of the exponent, also with signs or further underscores between, but not before all of
them or right behind the point. -/
def joinDigits? (allowed : Bool) : List Char → Option (List Char)
  | [] => some []
  | '_' :: cs => if allowed then joinDigits? allowed cs else none
  | c :: cs =>
    let allowed := if c == '.' then false else allowed || (c != '+' && c != '-')
    (joinDigits? allowed cs).map (c :: ·)

/-- Takes the digits of a number, of which there has to be one on either side of a point, and the
exponent if there is one. -/
def numeral : Reader Unit := do
  discard sign
  let whole ← run Char.isDigit
  let fraction ← perhaps (do char '.'; run Char.isDigit)
  if whole.isEmpty ∧ (fraction.getD []).isEmpty then failure
  discard (perhaps do
    discard (satisfy fun c => c == 'e' || c == 'E')
    discard sign
    discard (run1 Char.isDigit))

/-- Reads any number in base ten, which may end with the name of its type. -/
def decimal : Reader Value := do
  let cs ← run1 fun c => c.isDigit || ['e', 'E', '.', '+', '-', '_'].contains c
  let digits ← joinDigits? false cs
  let ((), rest) ← numeral digits
  let type ← run isTokenChar
  if rest.isEmpty ∧ [[], "f32".toList, "f64".toList].contains type then return .decimal digits
  else failure

def unboundedNumbers : List String := ["inf", "inff32", "inff64", "NaN", "NaNf32", "NaNf64"]

def unbounded : Reader Value := do
  let sign ← satisfy fun c => c == '+' || c == '-'
  let name ← plainName
  if unboundedNumbers.contains name then return .decimal (sign :: name.toList) else failure

end Delve.Ron

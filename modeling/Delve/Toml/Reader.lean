import Delve.Toml.Literal
/-!
# Reading settings

The grammar of texts of settings, line by line.
-/

namespace Delve.Toml

open Text Text.Reader

def isBareChar (c : Char) : Bool := c.isAlphanum || c == '_' || c == '-'

def keyPart : Reader String := .ofList <$> run1 isBareChar <|> quoted <|> literal

/-- How deep values may be nested, and how many parts a key may have. -/
def maxDepth : Nat := 80

/-- Reads a key, as the parts before the last dot and the part behind it. -/
def key : Reader (List String × String) := do
  let first ← keyPart
  let later ← many (do space; char '.'; space; keyPart)
  if maxDepth ≤ later.length then failure
  return ((first :: later).dropLast, (first :: later).getLast (by simp))

/-- Reads a key and its value, given what may stand around the sign between them and how values are
read. -/
def assignment (gap : Reader Unit) (value : Reader Value) :
    Reader (List String × String × Value) := do
  let (path, key) ← key
  gap
  char '='
  gap
  return (path, key, ← value)

def inlineTable? (assignments : List (List String × String × Value)) : Option Value := do
  let add (entries : Entries) : List String × String × Value → Option Entries
    | (path, key, v) => entries.assign path key v
  return .table .inline (← assignments.foldlM add [])

def plainValue : Reader Value := do
  match ← peek? with
  | some '"' => .text <$> (quotedBlock <|> quoted)
  | some '\'' => .text <$> (literalBlock <|> literal)
  | _ => scalar

def value : Nat → Reader Value
  | 0 => plainValue
  | depth + 1 => do
    match ← peek? with
    | some '[' => do char '['; .array <$> enclosed gap ']' (value depth)
    | some '\x7b' => do
      char '\x7b'
      inlineTable? (← enclosed gap '\x7d' (assignment gap (value depth)))
    | _ => plainValue

def header : Reader Statement := do
  char '['
  let list ← took (char '[')
  space
  let (path, key) ← key
  space
  char ']'
  if list then char ']'
  return if list then .tables path key else .table path key

def line : Reader (Option Statement) := do
  space
  let statement ← perhaps (header <|> do
    let (path, key, v) ← assignment space (value maxDepth)
    return .assign path key v)
  space
  discard (took comment)
  return statement

def lines : Reader (List (Option Statement)) := do
  discard (took (char (.ofNat 0xFEFF)))
  let ended ← many (do let s ← line; newline; return s)
  return ended ++ [← line]

def read? (text : String) : Option Entries := do
  Entries.ofStatements? ((← all? lines text).filterMap id)

end Delve.Toml

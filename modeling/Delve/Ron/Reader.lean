import Delve.Ron.Literal
/-!
# Reading object notation

The grammar of values. Blanks and comments may stand between any two symbols.
-/

namespace Delve.Ron

open Text Text.Reader

/-- Reads an attribute, which switches extensions on, and what follows up to the next symbol. -/
def extensions : Reader (List Extension) := do
  ["#", "!", "[", "enable", "("].forM fun symbol => do word symbol; gap
  let named ← enclosed gap ')' do Extension.ofName? (← name)
  gap
  char ']'
  gap
  if named.isEmpty then failure else return named

def field (value : Reader Value) : Reader (String × Value) := do
  let key ← name
  gap
  char ':'
  gap
  return (key, ← value)

def entry (value : Reader Value) : Reader (Value × Value) := do
  let key ← value
  gap
  char ':'
  gap
  return (key, ← value)

def fieldAhead : Reader Bool := do
  return ((do gap; discard name; gap; char ':') (← get)).isSome

/-- Reads what stands in parentheses: fields if it starts like one, else values. -/
def parentheses (called : Option String) (value : Reader Value) : Reader Value := do
  char '('
  if ← fieldAhead then return .record called (← enclosed gap ')' (field value))
  match ← enclosed gap ')' value with
  | [] => return .record called []
  | items => return .tuple called items

/-- Reads what stands in the parentheses of `Some`: one value, unless it may be a record or a tuple
without parentheses of its own. -/
def held (d : Dialect) (value : Reader Value) : Reader Value := do
  let unwrapped := d.contains .unwrapVariantNewtypes
  if unwrapped && (← fieldAhead) then return .presentFields (← enclosed gap ')' (field value))
  match ← enclosed gap ')' value with
  | [v] => return .present v
  | items =>
    if !unwrapped then failure
    else return .present (if items.isEmpty then .unit else .tuple none items)

def optional (d : Dialect) (value : Reader Value) : Reader Value := do
  gap
  if ← took (char '(') then held d value
  else if d.contains .implicitSome then .implied <$> value
  else failure

def titled (name : String) (value : Reader Value) : Reader Value :=
  (do gap; parentheses (some name) value) <|> return .word name

def named (d : Dialect) (value : Reader Value) : Reader Value :=
  (do titled (← markedName) value) <|> do
    match ← plainName with
    | "true" => return .boolean true
    | "false" => return .boolean false
    | "None" => return .absent
    | "Some" => optional d value
    | name =>
      if unboundedNumbers.contains name then return .decimal name.toList else titled name value

/-- Reads a value, given how the values in it are read, if there may be any. -/
def valueOf (d : Dialect) (inner : Reader Value) : Reader Value := do
  match ← peek? with
  | some '"' => .text <$> quoted
  | some '\'' => .letter <$> letter
  | some '[' => do char '['; .list <$> enclosed gap ']' inner
  | some '\x7b' => do char '\x7b'; .dictionary <$> enclosed gap '\x7d' (entry inner)
  | some '(' => (do word "()"; return .unit) <|> parentheses none inner
  | _ =>
    .text <$> raw <|> .byte <$> byteLetter <|> .bytes <$> quotedBytes <|> .bytes <$> rawBytes <|>
      named d inner <|> integer <|> decimal <|> unbounded

def value (d : Dialect) : Nat → Reader Value
  | 0 => valueOf d failure
  | depth + 1 => valueOf d (value d depth)

/-- Reads a text that holds one value and nothing else, with its attributes. No value is nested
deeper than the levels that it may take up. -/
def document : Reader (Dialect × Value) := do
  gap
  let d := (← many extensions).flatten
  let v ← value d maxHeight
  gap
  return (d, v)

def read? {α : Type} (shape : Dialect → Shape α) (text : String) : Option α := do
  let (d, v) ← all? document text
  if v.height ≤ maxHeight then (shape d).read? d v else none

end Delve.Ron

import Delve.Ron.Extension
import Delve.Text.Radix
/-!
# Values of object notation

What a text in object notation says, before anybody asks what it means, and how records, lists
and plain values are taken out of it. A record that says a wanted thing twice says nothing; things
that nobody wants are passed over.
-/

namespace Delve.Ron

/-- What a text in object notation says. -/
inductive Value where
  /-- An integer, with the name of its type if that is written behind it. -/
  | integer (n : Int) (type : Option String)
  /-- Any other number, as it is written. -/
  | decimal (digits : List Char)
  | boolean (b : Bool)
  | letter (c : Char)
  | text (s : String)
  | byte (b : UInt8)
  | bytes (bs : List UInt8)
  | word (name : String)
  | absent
  | present (v : Value)
  /-- The fields of a record that stand in the parentheses of `Some` itself. -/
  | presentFields (fields : List (String × Value))
  /-- What follows a `Some` that has no parentheses. -/
  | implied (v : Value)
  | list (items : List Value)
  | dictionary (entries : List (Value × Value))
  /-- Two parentheses that touch, without a name. -/
  | unit
  /-- Named values in parentheses, or none at all. -/
  | record (name : Option String) (fields : List (String × Value))
  | tuple (name : Option String) (items : List Value)

abbrev Fields := List (String × Value)

/-! ## Height -/

mutual

/-- How many levels a value takes up. Brackets take up one, and what stands in them at least one
more; `Some` takes up one more than what it holds. -/
def Value.height : Value → Nat
  | .present v => 1 + v.height
  | .presentFields fields => 2 + fieldsHeight fields
  | .implied v => 1 + v.height
  | .list items => 1 + itemsHeight items
  | .dictionary entries => 1 + entriesHeight entries
  | .record _ fields => 1 + fieldsHeight fields
  | .tuple _ items => 1 + itemsHeight items
  | _ => 0

def itemsHeight : List Value → Nat
  | [] => 0
  | v :: items => max (1 + v.height) (itemsHeight items)

def fieldsHeight : List (String × Value) → Nat
  | [] => 0
  | (_, v) :: fields => max (1 + v.height) (fieldsHeight fields)

def entriesHeight : List (Value × Value) → Nat
  | [] => 0
  | (k, v) :: entries => max (1 + max k.height v.height) (entriesHeight entries)

end

/-- The most levels that a text may take up. -/
def maxHeight : Nat := 128

namespace Value

/-! ## Plain values -/

def integer? (type : String) (low high : Int) : Value → Option Int
  | integer n written =>
    if low ≤ n ∧ n ≤ high ∧ written.all (· == type) then some n else none
  | _ => none

def uint32? (v : Value) : Option UInt32 :=
  (v.integer? "u32" 0 (UInt32.size - 1)).map fun n => .ofNat n.toNat

def int32? (v : Value) : Option Int32 :=
  (v.integer? "i32" Int32.minValue.toInt Int32.maxValue.toInt).map .ofInt

def boolean? : Value → Option Bool
  | boolean b => some b
  | _ => none

def text? : Value → Option String
  | text s => some s
  | _ => none

def word? : Value → Option String
  | word name => some name
  | _ => none

def list? {α : Type} (item? : Value → Option α) : Value → Option (List α)
  | list items => items.mapM item?
  | _ => none

end Value

/-! ## Records -/

section Fields

variable {α : Type} (fields : Fields) (key : String)

/-- The value of the field called `key`, or a default where there is no such field. -/
def field? (read? : Value → Option α) (default : Option α) : Option α :=
  match fields.filter (·.1 == key) with
  | [] => default
  | [(_, v)] => read? v
  | _ => none

def need? (read? : Value → Option α) : Option α := field? fields key read? none

def get? (default : α) (read? : Value → Option α) : Option α :=
  field? fields key read? (some default)

end Fields

structure Shape (α : Type) where
  name : String
  ofFields? : Fields → Option α

namespace Shape

variable {α : Type} (s : Shape α) (d : Dialect)

/-- What a record of this kind says. Its name may be left out, unless the dialect asks for names. -/
def read? : Value → Option α
  | .unit => if d.contains .explicitStructNames then none else s.ofFields? []
  | .record none fields =>
    if d.contains .explicitStructNames then none else s.ofFields? fields
  | .record (some name) fields => if name = s.name then s.ofFields? fields else none
  | _ => none

/-- What a record of this kind says that may be absent, and which stands on the given level. The
dialect tells whether `Some` and the parentheses inside of it are written; where it is left out, it
takes up its level nevertheless. -/
def optional? (level : Nat) : Value → Option (Option α)
  | .absent => some none
  | .present v =>
    if d.contains .unwrapVariantNewtypes then none else (s.read? d v).map some
  | .presentFields fields => (s.ofFields? fields).map some
  | .implied v => (s.read? d v).map some
  | v =>
    if d.contains .implicitSome ∧ level + 1 + v.height ≤ maxHeight then (s.read? d v).map some
    else none

end Shape

end Delve.Ron

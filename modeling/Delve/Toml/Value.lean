/-!
# Tables of settings

What a text of settings says: a table of values by key, which may hold tables in turn. A text
builds its tables bit by bit, and says nothing if one bit would change what another has settled.
So each table remembers how it came about.
-/

namespace Delve.Toml

/-- How a table came about. -/
inductive Origin where
  /-- It was written as a value, and is complete. -/
  | inline
  | header
  /-- A header of a table inside it has been seen. -/
  | implied
  /-- A key with dots has been seen that leads through it. -/
  | dotted
deriving DecidableEq, Repr

inductive Value where
  | boolean (b : Bool)
  | integer (n : Int)
  | decimal (digits : String)
  | text (s : String)
  | moment (s : String)
  | array (items : List Value)
  | table (origin : Origin) (entries : List (String × Value))
  /-- A list of tables that each have a header, the last first. -/
  | tables (items : List (List (String × Value)))

abbrev Entries := List (String × Value)

inductive Statement where
  | assign (path : List String) (key : String) (value : Value)
  | table (path : List String) (key : String)
  /-- Opens a further table of a list. -/
  | tables (path : List String) (key : String)

namespace Entries

def put (entries : Entries) (key : String) (v : Value) : Entries :=
  entries.map fun e => if e.1 = key then (key, v) else e

/-- Goes down a path of keys from a table and changes the table at its end. Tables that are missing
on the way are made. A path of a key with `dots` cannot lead through tables that have a header,
except the last of a list. -/
def descend (dots : Bool) (change : Origin → Entries → Option Entries) :
    List String → Origin → Entries → Option Entries
  | [], origin, entries => change origin entries
  | key :: path, _, entries =>
    match entries.lookup key with
    | none => do
      let origin : Origin := if dots then .dotted else .implied
      return entries ++ [(key, .table origin (← descend dots change path origin []))]
    | some (.table origin inner) =>
      if origin = .inline ∨ (dots ∧ origin = .header) then none
      else do return entries.put key (.table origin (← descend dots change path origin inner))
    | some (.tables (inner :: earlier)) => do
      let inner ← descend dots change path .header inner
      return entries.put key (.tables (inner :: earlier))
    | some _ => none

/-- Gives a value to a key that has none. Where the key has dots, nothing but such keys may have
built the table in which it ends. -/
def assign (entries : Entries) (path : List String) (key : String) (v : Value) :
    Option Entries :=
  descend true (fun origin inner =>
    if (path ≠ [] ∧ origin ≠ .dotted) ∨ (inner.lookup key).isSome then none
    else some (inner ++ [(key, v)])) path .header entries

def openTable (entries : Entries) (path : List String) (key : String) : Option Entries :=
  descend false (fun _ inner =>
    match inner.lookup key with
    | none => some (inner ++ [(key, .table .header [])])
    | some (.table .implied entries) => some (inner.put key (.table .header entries))
    | some _ => none) path .header entries

def openTables (entries : Entries) (path : List String) (key : String) : Option Entries :=
  descend false (fun _ inner =>
    match inner.lookup key with
    | none => some (inner ++ [(key, .tables [[]])])
    | some (.tables items) => some (inner.put key (.tables ([] :: items)))
    | some _ => none) path .header entries

end Entries

structure Draft where
  entries : Entries := []
  current : List String := []

namespace Draft

def add (d : Draft) : Statement → Option Draft
  | .assign path key v => do
    let change (_ : Origin) (inner : Entries) := inner.assign path key v
    let entries ← Entries.descend false change d.current .header d.entries
    return { d with entries }
  | .table path key => do return ⟨← d.entries.openTable path key, path ++ [key]⟩
  | .tables path key => do return ⟨← d.entries.openTables path key, path ++ [key]⟩

end Draft

def Entries.ofStatements? (statements : List Statement) : Option Entries :=
  (statements.foldlM Draft.add {}).map Draft.entries

/-- The value behind a key, or a default where there is none. -/
def Entries.get? {α : Type} (entries : Entries) (key : String) (default : α)
    (read? : Value → Option α) : Option α :=
  match entries.lookup key with
  | none => some default
  | some v => read? v

namespace Value

def below? (bound : Nat) : Value → Option Nat
  | integer n => if 0 ≤ n ∧ n < bound then some n.toNat else none
  | _ => none

def uint32? (v : Value) : Option UInt32 := (v.below? UInt32.size).map .ofNat

def uint64? (v : Value) : Option UInt64 := (v.below? UInt64.size).map .ofNat

def boolean? : Value → Option Bool
  | boolean b => some b
  | _ => none

end Value

end Delve.Toml

import Delve.Item.Basic
/-!
# Inventories

A row of slots, each with one stack. What is added goes to the end, and nothing is merged.
-/

namespace Delve

/-- The slots in use, and how many there are at most. -/
structure Inventory where
  items : List Item
  capacity : Nat
deriving DecidableEq, Repr

namespace Inventory

def empty (capacity : Nat) : Inventory := ⟨[], capacity⟩

/-- The number of slots of an actor that is given none. -/
def defaultCapacity : Nat := 8

instance : Inhabited Inventory := ⟨empty defaultCapacity⟩

def size (inv : Inventory) : Nat := inv.items.length

def isEmpty (inv : Inventory) : Bool := inv.items.isEmpty

def isFull (inv : Inventory) : Bool := inv.capacity ≤ inv.size

/-- Puts an item into a new last slot, or answers `none` where every slot is in use. -/
def add? (inv : Inventory) (item : Item) : Option Inventory :=
  if inv.isFull then none else some { inv with items := inv.items ++ [item] }

/-- Puts an item into a new last slot, or hands it back where every slot is in use. -/
def add (inv : Inventory) (item : Item) : Except Item Inventory :=
  match inv.add? item with
  | some inv => .ok inv
  | none => .error item

def find? (inv : Inventory) (test : Item → Bool) : Option Nat := inv.items.findIdx? test

/-- Takes one unit from a slot. The slot goes when its last unit does, and a stack that never held
more than one unit is handed over as it is. -/
def takeOne? (inv : Inventory) (slot : Nat) : Option (Item × Inventory) :=
  inv.items[slot]?.map fun item =>
    if item.stackable && 1 < item.amount then
      let rest := { item with amount := item.amount - 1 }
      (item.unit, { inv with items := inv.items.set slot rest })
    else (item, { inv with items := inv.items.eraseIdx slot })

end Inventory

end Delve

/-!
# Items

What actors carry and what lies on the ground.
-/

namespace Delve

inductive ItemKind where
  | healingPotion
  | manaPotion
  | unknownPotion
  | gem
  | coins
  | junk
deriving DecidableEq, Repr, Inhabited

namespace ItemKind

def all : List ItemKind := [healingPotion, manaPotion, unknownPotion, gem, coins, junk]

def name : ItemKind → String
  | healingPotion => "HealingPotion"
  | manaPotion => "ManaPotion"
  | unknownPotion => "UnknownPotion"
  | gem => "Gem"
  | coins => "Coins"
  | junk => "Junk"

def ofName? (s : String) : Option ItemKind := all.find? (·.name == s)

/-- The word for a kind in a brain's parameters. -/
def word : ItemKind → String
  | healingPotion => "healing_potion"
  | manaPotion => "mana_potion"
  | unknownPotion => "unknown_potion"
  | gem => "gem"
  | coins => "coins"
  | junk => "junk"

def ofWord? (s : String) : Option ItemKind := all.find? (·.word == s.toLower)

def isPotion : ItemKind → Bool
  | healingPotion | manaPotion | unknownPotion => true
  | gem | coins | junk => false

end ItemKind

structure Item where
  kind : ItemKind
  amount : UInt32
  stackable : Bool
  identified : Bool
  /-- The strength of the effect: what a potion restores, what a gem is worth. -/
  potency : UInt32
deriving DecidableEq, Repr, Inhabited

namespace Item

/-- A single identified item that does not stack. -/
def single (kind : ItemKind) (potency : UInt32) : Item := ⟨kind, 1, false, true, potency⟩

def healingPotion (potency : UInt32) : Item := single .healingPotion potency

def manaPotion (potency : UInt32) : Item := single .manaPotion potency

def coins (amount : UInt32) : Item := { single .coins 0 with amount, stackable := true }

/-- The item as a stack of at least one. -/
def stacked (i : Item) (amount : UInt32) : Item :=
  { i with stackable := true, amount := max amount 1 }

def unidentified (i : Item) : Item := { i with identified := false }

def unit (i : Item) : Item := { i with amount := 1 }

end Item

end Delve

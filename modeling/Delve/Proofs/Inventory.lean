import Delve.Item.Inventory
import Mathlib.Algebra.BigOperators.Group.Multiset.Basic
import Mathlib.Algebra.Order.Group.Multiset
import Mathlib.Algebra.Ring.Nat
/-!
# What an inventory holds

An inventory fills slots up to its capacity and empties them unit by unit. As long as what goes into
it could have been counted out, a unit that is taken is single, whatever stack it comes from, and
every unit of every kind that has gone in is either still there or has been taken. The main
statement is `requests_balance`.
-/

namespace Delve

/-! ## 1. Counted items -/

/-- The units of an item that are of the kinds asked for. -/
def Item.unitsOf (kinds : ItemKind → Bool) (i : Item) : Nat := if kinds i.kind then i.amount.toNat else 0

/-- An item that could have been counted out: there is some of it, and what does not stack is
single. -/
structure Item.Counted (i : Item) : Prop where
  some : 1 ≤ i.amount.toNat
  single : i.stackable = false → i.amount = 1

instance (i : Item) : Decidable i.Counted :=
  decidable_of_iff (1 ≤ i.amount.toNat ∧ (i.stackable = false → i.amount = 1))
    ⟨fun h ↦ ⟨h.1, h.2⟩, fun h ↦ ⟨h.some, h.single⟩⟩

/-- What is left of an item in its slot when one unit is taken from it. -/
def Item.dregs (i : Item) : Multiset Item :=
  if i.stackable && 1 < i.amount then {{ i with amount := i.amount - 1 }} else 0

theorem Item.dregs_cases (i : Item) :
    (i.dregs = 0 ∧ (i.stackable = true → i.amount.toNat ≤ 1)) ∨
      ∃ rest, i.dregs = {rest} ∧ rest = { i with amount := rest.amount } ∧ i.stackable = true ∧
        1 ≤ rest.amount.toNat ∧ rest.amount.toNat + 1 = i.amount.toNat := by
  have hone : (1 : UInt32).toNat = 1 := rfl
  unfold dregs
  by_cases hmany : (i.stackable && decide (1 < i.amount)) = true
  · rw [if_pos hmany]
    rw [Bool.and_eq_true, decide_eq_true_eq, UInt32.lt_iff_toNat_lt] at hmany
    have hless : (i.amount - 1).toNat = i.amount.toNat - 1 :=
      UInt32.toNat_sub_of_le _ _ (UInt32.le_iff_toNat_le.mpr (by omega))
    refine Or.inr ⟨_, rfl, rfl, hmany.1, ?_, ?_⟩
    · show 1 ≤ (i.amount - 1).toNat
      omega
    · show (i.amount - 1).toNat + 1 = i.amount.toNat
      omega
  · rw [if_neg hmany]
    rw [Bool.and_eq_true, decide_eq_true_eq, UInt32.lt_iff_toNat_lt] at hmany
    refine Or.inl ⟨rfl, fun hstackable ↦ ?_⟩
    by_contra hfew
    exact hmany ⟨hstackable, by omega⟩

theorem Item.kind_of_mem_dregs {i j : Item} (h : j ∈ i.dregs) : j.kind = i.kind := by
  rcases i.dregs_cases with ⟨hnone, -⟩ | ⟨rest, hsome, heq, -⟩
  · rw [hnone] at h
    exact absurd h (Multiset.notMem_zero j)
  · rw [hsome] at h
    rw [Multiset.mem_singleton.mp h, heq]

theorem Item.counted_of_mem_dregs {i j : Item} (h : j ∈ i.dregs) : j.Counted := by
  rcases i.dregs_cases with ⟨hnone, -⟩ | ⟨rest, hsome, heq, hstackable, hleft, -⟩
  · rw [hnone] at h
    exact absurd h (Multiset.notMem_zero j)
  · rw [hsome] at h
    obtain rfl := Multiset.mem_singleton.mp h
    refine ⟨hleft, fun hsingle ↦ ?_⟩
    rw [heq, hstackable] at hsingle
    cases hsingle

/-- Whatever the item, just one unit of it is gone. -/
theorem Item.Counted.unitsOf_dregs {i : Item} (h : i.Counted) (kinds : ItemKind → Bool) :
    (i.dregs.map (·.unitsOf kinds)).sum + (if kinds i.kind then 1 else 0) = i.unitsOf kinds := by
  have hsome := h.some
  unfold Item.unitsOf
  rcases i.dregs_cases with ⟨hnone, hfew⟩ | ⟨rest, hleft, heq, -, -, hless⟩
  · rw [hnone, Multiset.map_zero, Multiset.sum_zero]
    -- what does not stack is single, and a stack of no more than one is just one
    have hunit : i.amount.toNat = 1 := by
      by_cases hstackable : i.stackable = true
      · have hone := hfew hstackable
        omega
      · rw [h.single (Bool.eq_false_iff.mpr hstackable)]
        rfl
    split <;> omega
  · have hkind : rest.kind = i.kind := by rw [heq]
    rw [hleft, Multiset.map_singleton, Multiset.sum_singleton, hkind]
    split <;> omega

/-- One unit of an item is single. -/
theorem Item.unitsOf_unit (kinds : ItemKind → Bool) (i : Item) :
    i.unit.unitsOf kinds = if kinds i.kind then 1 else 0 := rfl

/-- The units of some items that are of the kinds asked for. -/
def Item.total (kinds : ItemKind → Bool) (items : List Item) : Nat := (items.map (·.unitsOf kinds)).sum

theorem Item.total_nil (kinds : ItemKind → Bool) : total kinds [] = 0 := rfl

theorem Item.total_cons (kinds : ItemKind → Bool) (i : Item) (items : List Item) :
    total kinds (i :: items) = i.unitsOf kinds + total kinds items := by
  rw [total, List.map_cons, List.sum_cons, total]

theorem Item.total_append (kinds : ItemKind → Bool) (items items' : List Item) :
    total kinds (items ++ items') = total kinds items + total kinds items' := by
  rw [total, List.map_append, List.sum_append, total, total]

theorem Item.total_coe (kinds : ItemKind → Bool) (items : List Item) :
    total kinds items = ((items : Multiset Item).map (·.unitsOf kinds)).sum := by
  rw [Multiset.map_coe, Multiset.sum_coe, total]

theorem Item.unitsOf_of_kind {i : Item} {kinds : ItemKind → Bool} (h : kinds i.kind = true) :
    i.unitsOf kinds = i.amount.toNat := by
  rw [unitsOf, if_pos h]

theorem Item.unitsOf_of_not {i : Item} {kinds : ItemKind → Bool} (h : kinds i.kind = false) :
    i.unitsOf kinds = 0 := by
  rw [unitsOf, h]
  rfl

/-! ## 2. One unit less -/

theorem coe_eq_cons_eraseIdx {items : List Item} {place : Nat} {item : Item}
    (h : items[place]? = some item) :
    (items : Multiset Item) = item ::ₘ (items.eraseIdx place : Multiset Item) := by
  obtain ⟨hlt, rfl⟩ := List.getElem?_eq_some_iff.mp h
  rw [Multiset.cons_coe]
  exact Multiset.coe_eq_coe.mpr (List.getElem_cons_eraseIdx_perm hlt).symm

theorem coe_takeOne {inv rest : Inventory} {slot : Nat} {item taken : Item}
    (hitem : inv.items[slot]? = some item) (h : inv.takeOne? slot = some (taken, rest)) :
    (rest.items : Multiset Item) = item.dregs + (inv.items.eraseIdx slot : Multiset Item) := by
  unfold Inventory.takeOne? at h
  rw [hitem, Option.map_some] at h
  have hlt : slot < inv.items.length := (List.getElem?_eq_some_iff.mp hitem).1
  unfold Item.dregs
  split at h
  · rename_i hmany
    cases h
    rw [if_pos hmany, Multiset.singleton_add, Multiset.cons_coe]
    exact Multiset.coe_eq_coe.mpr (List.set_perm_cons_eraseIdx hlt _)
  · rename_i hone
    cases h
    rw [if_neg hone, zero_add]

namespace Inventory

variable {inv : Inventory} {slot : Nat} {item potion : Item}

/-- The items of an inventory with one unit less in a slot that holds `item`. -/
def itemsLess (inv : Inventory) (slot : Nat) (item : Item) : List Item :=
  if item.amount = 1 then inv.items.eraseIdx slot
  else inv.items.set slot { item with amount := item.amount - 1 }

theorem takeOne_of_counted (hitem : inv.items[slot]? = some potion)
    (hcounted : potion.Counted) : inv.takeOne? slot =
      some (potion.unit, { inv with items := inv.itemsLess slot potion }) := by
  rw [takeOne?, hitem, Option.map_some, itemsLess]
  by_cases hlast : potion.amount = 1
  · -- the last unit is the item itself
    have hunit : potion.unit = potion := by rw [Item.unit, ← hlast]
    rw [hunit, if_pos hlast, if_neg]
    rw [hlast]
    simp
  · have hstack : potion.stackable = true := by
      by_contra hsingle
      exact hlast (hcounted.single (Bool.eq_false_iff.mpr hsingle))
    have hmore : 1 < potion.amount := by
      have hone : (1 : UInt32).toNat = 1 := rfl
      have hsome := hcounted.some
      have hne : potion.amount.toNat ≠ 1 := fun h ↦ hlast (UInt32.toNat_inj.mp h)
      rw [UInt32.lt_iff_toNat_lt]
      omega
    rw [if_neg hlast, if_pos]
    simp [hstack, hmore]

theorem takeOne?_eq_none_iff : inv.takeOne? slot = none ↔ inv.size ≤ slot := by
  rw [takeOne?, Option.map_eq_none_iff, List.getElem?_eq_none_iff]
  rfl

/-- The slots before and behind the one from which a unit is taken stay as they are. -/
theorem itemsLess_append {front back : List Item} (h : inv.items = front ++ item :: back) :
    inv.itemsLess front.length item =
      if item.amount = 1 then front ++ back
      else front ++ { item with amount := item.amount - 1 } :: back := by
  rw [itemsLess, h]
  split
  · rw [List.eraseIdx_append_of_length_le (Nat.le_refl _), Nat.sub_self, List.eraseIdx_cons_zero]
  · rw [List.set_append_right _ _ (Nat.le_refl _), Nat.sub_self, List.set_cons_zero]

theorem length_itemsLess_le (inv : Inventory) (slot : Nat) (item : Item) :
    (inv.itemsLess slot item).length ≤ inv.size := by
  unfold itemsLess
  split
  · exact List.length_eraseIdx_le _ _
  · exact Nat.le_of_eq List.length_set

theorem counted_itemsLess (hitem : inv.items[slot]? = some item)
    (hcounted : ∀ held ∈ inv.items, held.Counted) :
    ∀ held ∈ inv.itemsLess slot item, held.Counted := by
  intro held hheld
  have hrest : (inv.itemsLess slot item : Multiset Item) = _ :=
    coe_takeOne hitem (takeOne_of_counted hitem (hcounted item (List.mem_of_getElem? hitem)))
  rw [← Multiset.mem_coe, hrest, Multiset.mem_add] at hheld
  rcases hheld with hheld | hheld
  · exact Item.counted_of_mem_dregs hheld
  · exact hcounted held (List.mem_of_mem_eraseIdx hheld)

/-- Just one unit of the item is gone. -/
theorem total_itemsLess (hitem : inv.items[slot]? = some item) (hcounted : item.Counted)
    (kinds : ItemKind → Bool) :
    Item.total kinds (inv.itemsLess slot item) + (if kinds item.kind then 1 else 0) =
      Item.total kinds inv.items := by
  have hrest : (inv.itemsLess slot item : Multiset Item) = _ :=
    coe_takeOne hitem (takeOne_of_counted hitem hcounted)
  have hless := hcounted.unitsOf_dregs kinds
  rw [Item.total_coe, Item.total_coe, hrest, coe_eq_cons_eraseIdx hitem, Multiset.map_add,
    Multiset.sum_add, Multiset.map_cons, Multiset.sum_cons]
  omega

theorem isFull_iff : inv.isFull = true ↔ inv.capacity ≤ inv.size := by
  rw [isFull, decide_eq_true_eq]

theorem add_of_full (h : inv.capacity ≤ inv.size) (item : Item) : inv.add item = .error item := by
  rw [add, add?, if_pos (isFull_iff.mpr h)]

theorem add_of_room (h : inv.size < inv.capacity) (item : Item) :
    inv.add item = .ok { inv with items := inv.items ++ [item] } := by
  rw [add, add?, if_neg fun hfull ↦ Nat.not_le_of_lt h (isFull_iff.mp hfull)]

/-! ## 3. Books -/

/-- A request to an inventory. -/
inductive Request where
  | add (item : Item)
  | takeOne (slot : Nat)

/-- An inventory with what has been added to it and what has been taken from it. -/
structure Books where
  inventory : Inventory
  added : List Item := []
  taken : List Item := []

namespace Books

def opened (capacity : Nat) : Books := { inventory := .empty capacity }

/-- The books after a request. One that is refused leaves no entry. -/
def enter (b : Books) : Request → Books
  | .add item =>
    match b.inventory.add item with
    | .ok inventory => { b with inventory, added := item :: b.added }
    | .error _ => b
  | .takeOne slot =>
    match b.inventory.takeOne? slot with
    | some (unit, inventory) => { b with inventory, taken := unit :: b.taken }
    | none => b

/-- The books after a list of requests. -/
def run (b : Books) (rs : List Request) : Books := rs.foldl enter b

variable {b : Books} {capacity : Nat}

theorem enter_add_of_full (h : b.inventory.capacity ≤ b.inventory.size) (item : Item) :
    b.enter (.add item) = b := by
  rw [enter, add_of_full h]

theorem enter_add_of_room (h : b.inventory.size < b.inventory.capacity) (item : Item) :
    b.enter (.add item) =
      { b with
        inventory := { b.inventory with items := b.inventory.items ++ [item] }
        added := item :: b.added } := by
  rw [enter, add_of_room h]

theorem enter_takeOne_of_none (h : b.inventory.size ≤ slot) : b.enter (.takeOne slot) = b := by
  rw [enter, takeOne?_eq_none_iff.mpr h]

theorem enter_takeOne_of_counted (hitem : b.inventory.items[slot]? = some item)
    (hcounted : item.Counted) :
    b.enter (.takeOne slot) =
      { b with
        inventory := { b.inventory with items := b.inventory.itemsLess slot item }
        taken := item.unit :: b.taken } := by
  rw [enter, takeOne_of_counted hitem hcounted]

theorem mem_added_enter (r : Request) {item : Item} (h : item ∈ b.added) :
    item ∈ (b.enter r).added := by
  cases r with
  | add item' =>
    rw [enter]
    split
    · exact List.mem_cons_of_mem item' h
    · exact h
  | takeOne slot =>
    rw [enter]
    split <;> exact h

/-- The slots suffice for what is in them, and every unit is accounted for. -/
structure Balanced (capacity : Nat) (b : Books) : Prop where
  capacity_eq : b.inventory.capacity = capacity
  size_le : b.inventory.size ≤ capacity
  counted : ∀ item ∈ b.inventory.items, item.Counted
  balance : ∀ kinds, Item.total kinds b.added =
    Item.total kinds b.taken + Item.total kinds b.inventory.items

theorem balanced_opened (capacity : Nat) : (opened capacity).Balanced capacity where
  capacity_eq := rfl
  size_le := Nat.zero_le capacity
  counted := nofun
  balance _ := rfl

theorem Balanced.add (h : b.Balanced capacity) (hroom : b.inventory.size < capacity)
    (hcounted : item.Counted) : (b.enter (.add item)).Balanced capacity := by
  rw [← h.capacity_eq] at hroom
  rw [enter_add_of_room hroom]
  refine ⟨h.capacity_eq, ?_, ?_, fun kinds ↦ ?_⟩
  · rw [← h.capacity_eq, size, List.length_append]
    exact hroom
  · intro held hheld
    rcases List.mem_append.mp hheld with hheld | hheld
    · exact h.counted held hheld
    · rwa [List.mem_singleton.mp hheld]
  · have hbalance := h.balance kinds
    dsimp only
    rw [Item.total_cons, Item.total_append, Item.total_cons, Item.total_nil]
    omega

theorem Balanced.takeOne (h : b.Balanced capacity) (slot : Nat) :
    (b.enter (.takeOne slot)).Balanced capacity := by
  cases hitem : b.inventory.items[slot]? with
  | none =>
    rw [enter_takeOne_of_none (List.getElem?_eq_none_iff.mp hitem)]
    exact h
  | some item =>
    have hcounted := h.counted item (List.mem_of_getElem? hitem)
    rw [enter_takeOne_of_counted hitem hcounted]
    refine ⟨h.capacity_eq, (length_itemsLess_le _ _ _).trans h.size_le,
      counted_itemsLess hitem h.counted, fun kinds ↦ ?_⟩
    have hbalance := h.balance kinds
    have hless := total_itemsLess hitem hcounted kinds
    dsimp only
    rw [Item.total_cons, Item.unitsOf_unit]
    omega

theorem Balanced.enter (h : b.Balanced capacity) (r : Request)
    (hcounted : ∀ item ∈ (b.enter r).added, item.Counted) : (b.enter r).Balanced capacity := by
  cases r with
  | takeOne slot => exact h.takeOne slot
  | add item =>
    by_cases hfull : b.inventory.capacity ≤ b.inventory.size
    · rw [enter_add_of_full hfull]
      exact h
    · have hroom := Nat.lt_of_not_le hfull
      rw [enter_add_of_room hroom] at hcounted
      rw [h.capacity_eq] at hroom
      exact h.add hroom (hcounted item List.mem_cons_self)

/-- Only what has gone in need have been counted out, so the induction is on the last request. -/
theorem balanced_run {rs : List Request}
    (hcounted : ∀ item ∈ ((opened capacity).run rs).added, item.Counted) :
    ((opened capacity).run rs).Balanced capacity := by
  induction rs using List.reverseRecOn with
  | nil => exact balanced_opened capacity
  | append_singleton rs r ih =>
    have hlast : (opened capacity).run (rs ++ [r]) = ((opened capacity).run rs).enter r := by
      rw [run, List.foldl_append]
      rfl
    rw [hlast] at hcounted ⊢
    exact (ih fun item hitem ↦ hcounted item (mem_added_enter r hitem)).enter r hcounted

/-- Whatever is asked of an inventory, it never uses more slots than it has. An item is refused if
and only if all are in use, and then it comes back as it is and nothing changes; otherwise it goes
into a new last slot. From a slot that is in use, and from no other, one unit can be taken: it is a
single one of what is in the slot, and the other slots keep their items and their order. The units
of any kinds that have been added are those that have been taken and those that are still there. -/
theorem requests_balance (capacity : Nat) (rs : List Request)
    (hcounted : ∀ item ∈ ((opened capacity).run rs).added, item.Counted) :
    let b := (opened capacity).run rs
    b.inventory.size ≤ capacity ∧
    (∀ item, (∃ e, b.inventory.add item = .error e) ↔ b.inventory.size = capacity) ∧
    (∀ item, b.inventory.size = capacity →
      b.inventory.add item = .error item ∧ b.enter (.add item) = b) ∧
    (∀ item, b.inventory.size < capacity →
      b.inventory.add item = .ok { b.inventory with items := b.inventory.items ++ [item] }) ∧
    (∀ slot, b.inventory.takeOne? slot = none ↔ b.inventory.size ≤ slot) ∧
    (∀ front item back, b.inventory.items = front ++ item :: back →
      b.inventory.takeOne? front.length = some ({ item with amount := 1 },
        { b.inventory with
          items := if item.amount = 1 then front ++ back
            else front ++ { item with amount := item.amount - 1 } :: back })) ∧
    ∀ kinds, Item.total kinds b.added =
      Item.total kinds b.taken + Item.total kinds b.inventory.items := by
  intro b
  have h : b.Balanced capacity := balanced_run hcounted
  have hcapacity := h.capacity_eq
  have hsize := h.size_le
  refine ⟨hsize, ?_, ?_, ?_, fun slot ↦ takeOne?_eq_none_iff, ?_, h.balance⟩
  · intro item
    constructor
    · rintro ⟨e, he⟩
      by_contra hroom
      rw [add_of_room (by omega)] at he
      cases he
    · intro hfull
      exact ⟨item, add_of_full (by omega) item⟩
  · intro item hfull
    exact ⟨add_of_full (by omega) item, enter_add_of_full (by omega) item⟩
  · intro item hroom
    exact add_of_room (by omega) item
  · intro front item back hitems
    have hitem : b.inventory.items[front.length]? = some item := by
      rw [hitems, List.getElem?_append_right (Nat.le_refl _), Nat.sub_self, List.getElem?_cons_zero]
    rw [takeOne_of_counted hitem (h.counted item (List.mem_of_getElem? hitem)),
      itemsLess_append hitems]
    rfl

/-- Two slots: a stack of potions and a gem go in, a third item does not, and three units are
taken. -/
theorem potions_balance :
    let rs : List Request := [.add ((Item.healingPotion 5).stacked 2), .add (.single .gem 9),
      .add (.manaPotion 3), .takeOne 0, .takeOne 0, .takeOne 5, .takeOne 0]
    let b := (opened 2).run rs
    (∀ item ∈ b.added, item.Counted) ∧ b.inventory.items = [] ∧
      Item.total ItemKind.isPotion b.added = Item.total ItemKind.isPotion b.taken := by
  intro rs b
  have hcounted : ∀ item ∈ b.added, item.Counted := by decide
  have hempty : b.inventory.items = [] := by decide
  have hbalance := (requests_balance 2 rs hcounted).2.2.2.2.2.2 ItemKind.isPotion
  rw [hempty, Item.total_nil, Nat.add_zero] at hbalance
  exact ⟨hcounted, hempty, hbalance⟩

end Books

end Inventory

end Delve

import Delve.Proofs.Task.Mining
/-!
# What a tick of a task does to goods

Goods change hands in two tasks. A draught takes one unit of one potion out of the world. What is
picked up goes from the ground to the actor that picks it up, and coins become money. No other tick
changes what there is.
-/

namespace Delve

variable {s s' : Scene} {t : Task} {r : Step Task Scene}

/-! ## 1. Draughts and coins -/

def Task.isDrinking : Task → Bool
  | drink _ => true
  | idle | wander | retreat | chase _ | attack _ | remember | goTo _ | pickUp _ | mineBlock
  | mineTunnel => false

/-- Whether a potion has been drunk in a tick. -/
def Tick.HasDrunk (t : Tick Task Scene) : Prop := t.task.isDrinking = true ∧ t.status = .success

instance (t : Tick Task Scene) : Decidable t.HasDrunk := inferInstanceAs (Decidable (_ ∧ _))

/-- Whether coins are to be picked up for which the purse has no room: money and coins together
come to 2 ^ 32. -/
def Tick.Overflows (t : Tick Task Scene) : Prop :=
  ∃ kinds a place coins, t.task = .pickUp kinds ∧ t.before.actor? = some a ∧
    a.inventory.isFull = false ∧
    pickPlace? kinds (t.before.world.itemsAt a.position) = some place ∧
    (t.before.world.itemsAt a.position)[place]? = some coins ∧ coins.kind = .coins ∧
    2 ^ 32 ≤ a.money.toNat + coins.amount.toNat

/-- What a tick does with goods. -/
inductive Tick.Trades (t : Tick Task Scene) : Prop where
  | nothing (sober : ¬ t.HasDrunk) (hoard_eq : t.after.world.hoard = t.before.world.hoard)
      (purses_eq : t.after.world.purses = t.before.world.purses)
  | cashed {coins : Item} (sober : ¬ t.HasDrunk) (kind : coins.kind = .coins)
      (hoard_eq : t.before.world.hoard = coins ::ₘ t.after.world.hoard)
      (purses_eq : ¬ t.Overflows →
        t.after.world.purses = t.before.world.purses + coins.amount.toNat)
  | drunk {potion : Item} {rest : Multiset Item} (drunk : t.HasDrunk)
      (kind : potion.kind.isPotion = true) (hoard_before : t.before.world.hoard = potion ::ₘ rest)
      (hoard_after : t.after.world.hoard = potion.dregs + rest)
      (purses_eq : t.after.world.purses = t.before.world.purses)

theorem World.SameGoods.trades {status : Status} (h : s.world.SameGoods s'.world)
    (ht : t.isDrinking = false) : Tick.Trades ⟨t, s, status, s'⟩ := by
  refine .nothing ?_ h.hoard_eq h.purses_eq
  rintro ⟨hdrinking, -⟩
  rw [ht] at hdrinking
  cases hdrinking

/-! ## 2. Drinking -/

theorem belongings_quaff (a : Actor) (potion : Item) :
    (a.quaff potion).belongings = a.belongings := by
  unfold Actor.quaff
  split <;> rfl

/-- One unit is taken from the slot, and what it does to the body costs nothing. -/
theorem draught_trades {a : Actor} {slot : Nat} {potion unit : Item} {inventory : Inventory}
    (thirst : Thirst) (dice : Dice) (ha : s.actor? = some a)
    (hpotion : a.inventory.items[slot]? = some potion) (hkind : potion.kind.isPotion = true)
    (htaken : a.inventory.takeOne? slot = some (unit, inventory)) :
    Tick.Trades ⟨.drink thirst, s, .success,
      ({ s with dice }.modifyActor fun b ↦ { b with inventory }.quaff unit).finishTurn⟩ := by
  obtain ⟨rest, hbefore, hafter⟩ := World.exists_rest_of_actor ha
  have hpurses := World.purses_modifyActor ha fun b ↦ { b with inventory }.quaff unit
  have hdrained := hafter fun b ↦ { b with inventory }.quaff unit
  -- paying for the turn changes nothing that counts
  have hpaid := World.Stirs.finishTurn
    (.refl ({ s with dice }.modifyActor fun b ↦ { b with inventory }.quaff unit).world)
  have hbelongings := belongings_quaff { a with inventory } unit
  have hinventory : ({ a with inventory }.quaff unit).inventory = inventory :=
    congrArg Prod.fst hbelongings
  have hmoney : ({ a with inventory }.quaff unit).money = a.money := congrArg Prod.snd hbelongings
  rw [hinventory, coe_takeOne hpotion htaken, add_assoc] at hdrained
  rw [hmoney] at hpurses
  rw [coe_eq_cons_eraseIdx hpotion, Multiset.cons_add] at hbefore
  exact .drunk ⟨rfl, rfl⟩ hkind hbefore (hpaid.hoard_eq.trans hdrained)
    (hpaid.purses_eq.trans (Nat.add_right_cancel hpurses))

theorem drink_trades (thirst : Thirst) (s : Scene) :
    Tick.Trades ⟨.drink thirst, s, (drink thirst s).1, (drink thirst s).2⟩ := by
  have hrefused : Tick.Trades ⟨.drink thirst, s, .failure, s⟩ := .nothing nofun rfl rfl
  unfold drink
  split
  · exact hrefused
  · rename_i a ha
    rcases pick_cases thirst a.inventory s with
      hnone | ⟨slot, potion, dice, hpotion, hkind, -, hsome⟩
    · rw [hnone]
      exact hrefused
    · obtain ⟨⟨unit, inventory⟩, htaken⟩ := exists_takeOne hpotion
      rw [hsome]
      dsimp only
      rw [htaken]
      exact draught_trades thirst dice ha hpotion hkind htaken

/-! ## 3. Picking up -/

/-- Coins go into the purse, as far as it has room, and everything else into the last slot. -/
theorem receive_cases {a richer : Actor} {item : Item} (h : a.receive? item = some richer) :
    item.kind = .coins ∧ richer = { a with money := a.money.addClamp item.amount } ∨
      item.kind ≠ .coins ∧ richer.money = a.money ∧
        (richer.inventory.items : Multiset Item) = item ::ₘ a.inventory.items := by
  unfold Actor.receive? at h
  split at h
  · rename_i hcoins
    cases h
    exact Or.inl ⟨hcoins, rfl⟩
  · rename_i hother
    obtain ⟨inventory, hadd, rfl⟩ := Option.map_eq_some_iff.mp h
    unfold Inventory.add? at hadd
    split at hadd
    · cases hadd
    · cases hadd
      refine Or.inr ⟨hother, rfl, ?_⟩
      rw [Multiset.cons_coe]
      exact Multiset.coe_eq_coe.mpr (List.perm_append_singleton _ _)

/-- What is picked up goes from the pile to the actor. -/
theorem pick_trades {a richer : Actor} {place : Nat} {item : Item} {world : World}
    (kinds : List ItemKind) (ha : s.actor? = some a) (hfull : a.inventory.isFull = false)
    (hplace : pickPlace? kinds (s.world.itemsAt a.position) = some place)
    (htaken : s.world.takeItem? a.position place = some (item, world))
    (hricher : a.receive? item = some richer) :
    Tick.Trades ⟨.pickUp kinds, s, .success,
      ({ s with world }.modifyActor fun _ ↦ richer).finishTurn⟩ := by
  have hsober : ¬ Tick.HasDrunk ⟨.pickUp kinds, s, .success,
      ({ s with world }.modifyActor fun _ ↦ richer).finishTurn⟩ := nofun
  obtain ⟨hitem, rfl⟩ := World.takeItem_eq_some htaken
  obtain ⟨rest, hbefore, hafter⟩ := World.exists_rest_of_taken ha hitem
  have hgained := hafter fun _ ↦ richer
  generalize (s.world.itemsAt a.position).eraseIdx place = pile at hsober hgained ⊢
  have hstill : (s.world.withPile a.position pile).actor? s.focus = some a := ha
  have hpurses := World.purses_modifyActor hstill fun _ ↦ richer
  have hsame : (s.world.withPile a.position pile).purses = s.world.purses := rfl
  rw [hsame] at hpurses
  have hpaid := World.Stirs.finishTurn
    (.refl ({ s with world := s.world.withPile a.position pile }.modifyActor fun _ ↦ richer).world)
  rcases receive_cases hricher with ⟨hcoins, rfl⟩ | ⟨hother, hmoney, hitems⟩
  · refine .cashed hsober hcoins ?_ fun hfits ↦ ?_
    · rw [hpaid.hoard_eq, hbefore]
      exact congrArg _ hgained.symm
    · have hroom : a.money.toNat + item.amount.toNat < 2 ^ 32 := by
        by_contra hover
        exact hfits ⟨kinds, a, place, item, rfl, ha, hfull, hplace, hitem, hcoins, by omega⟩
      have hmoney : (a.money.addClamp item.amount).toNat =
          a.money.toNat + item.amount.toNat := by
        have hsize : UInt32.size = 2 ^ 32 := rfl
        rw [UInt32.toNat_addClamp]
        omega
      rw [hmoney, Nat.add_comm a.money.toNat, ← Nat.add_assoc] at hpurses
      exact hpaid.purses_eq.trans (Nat.add_right_cancel hpurses)
  · refine .nothing hsober ?_ ?_
    · rw [hpaid.hoard_eq, hbefore, ← Multiset.cons_add, ← hitems]
      exact hgained
    · rw [hmoney] at hpurses
      exact hpaid.purses_eq.trans (Nat.add_right_cancel hpurses)

theorem pickUp_trades (kinds : List ItemKind) (s : Scene) :
    Tick.Trades ⟨.pickUp kinds, s, (pickUp kinds s).1, (pickUp kinds s).2⟩ := by
  have hrefused : Tick.Trades ⟨.pickUp kinds, s, .failure, s⟩ := .nothing nofun rfl rfl
  unfold pickUp
  split
  · exact hrefused
  · rename_i a ha
    split
    · exact hrefused
    · rename_i hfull
      dsimp only
      split
      · exact hrefused
      · rename_i item world htaken
        obtain ⟨place, hplace, htaken⟩ := Option.bind_eq_some_iff.mp htaken
        -- there is a free slot, so nothing has to be put back
        have hfull := Bool.eq_false_iff.mpr hfull
        obtain ⟨richer, hricher⟩ := exists_receive hfull item
        rw [hricher]
        exact pick_trades kinds ha hfull hplace htaken hricher

/-! ## 4. Every task -/

/-- Digging changes features, and they are no goods. -/
theorem Digs.trades {status : Status} (h : Digs s status s') (ht : t.isDrinking = false) :
    Tick.Trades ⟨t, s, status, s'⟩ := by
  rcases h with ⟨-, cell, -, hdug⟩ | ⟨-, hsame⟩
  · have hgoods : s.world.SameGoods (s.world.dug cell) := ⟨rfl, fun _ ↦ rfl⟩
    exact (hgoods.trans hdug.toSameGoods).trades ht
  · exact hsame.toSameGoods.trades ht

theorem Task.tick_trades (h : t.tick s = .ok r) : Tick.Trades ⟨t, s, r.status, r.context⟩ := by
  cases t with
  | drink thirst =>
    cases h
    exact drink_trades thirst s
  | pickUp kinds =>
    cases h
    exact pickUp_trades kinds s
  | mineBlock =>
    cases h
    exact (digs_mineBlock s).trades rfl
  | mineTunnel =>
    cases h
    exact (digs_mineTunnel s).trades rfl
  | _ => exact (Task.tick_stirs h rfl).toSameGoods.trades rfl

/-! ## 5. What trading comes to -/

/-- Where all coins and all money together fit into a purse, every purse has room for all coins. -/
theorem Tick.not_overflows {t : Tick Task Scene} (h : t.before.world.wealth < 2 ^ 32) :
    ¬ t.Overflows := by
  rintro ⟨kinds, a, place, coins, -, ha, -, -, hcoins, hkind, hover⟩
  obtain ⟨rest, hhoard, -⟩ := t.before.world.exists_rest_of_pile a.position
  rw [coe_eq_cons_eraseIdx hcoins, Multiset.cons_add] at hhoard
  have hunits := World.unitsOf_of_cons hhoard (· == .coins)
  have hamount : coins.unitsOf (· == .coins) = coins.amount.toNat :=
    Item.unitsOf_of_kind (beq_iff_eq.mpr hkind)
  have hmoney := World.money_le_purses ha
  unfold World.wealth at h
  omega

namespace Tick.Trades

variable {t : Tick Task Scene}

/-- What is neither potion nor coin is left alone, item by item. -/
theorem filter_eq (h : t.Trades) {kind : ItemKind} (hpotion : kind.isPotion = false)
    (hcoins : kind ≠ .coins) :
    t.after.world.hoard.filter (·.kind = kind) = t.before.world.hoard.filter (·.kind = kind) := by
  cases h with
  | nothing _ hoard_eq => rw [hoard_eq]
  | @cashed coins _ hkind hoard_eq =>
    rw [hoard_eq, Multiset.filter_cons_of_neg]
    rw [hkind]
    exact hcoins.symm
  | @drunk potion rest _ hkind hoard_before hoard_after =>
    -- neither the potion nor what is left of it is of the kind that is looked at
    have hother : ¬ potion.kind = kind := by
      rintro rfl
      rw [hkind] at hpotion
      cases hpotion
    have hnone : potion.dregs.filter (·.kind = kind) = 0 :=
      Multiset.filter_eq_nil.mpr fun j hj ↦ by rwa [Item.kind_of_mem_dregs hj]
    rw [hoard_before, hoard_after, Multiset.filter_add, hnone, zero_add,
      Multiset.filter_cons_of_neg]
    exact hother

theorem counted (h : t.Trades) (hcounted : ∀ i ∈ t.before.world.hoard, i.Counted) :
    ∀ i ∈ t.after.world.hoard, i.Counted := by
  intro i hi
  cases h with
  | nothing _ hoard_eq =>
    rw [hoard_eq] at hi
    exact hcounted i hi
  | cashed _ _ hoard_eq =>
    rw [hoard_eq] at hcounted
    exact hcounted i (Multiset.mem_cons_of_mem hi)
  | drunk _ _ hoard_before hoard_after =>
    rw [hoard_before] at hcounted
    rw [hoard_after, Multiset.mem_add] at hi
    rcases hi with hi | hi
    · exact Item.counted_of_mem_dregs hi
    · exact hcounted i (Multiset.mem_cons_of_mem hi)

/-- What one unit of a potion less comes to, in units of any kinds. -/
theorem unitsOf_of_drunk (hcounted : ∀ i ∈ t.before.world.hoard, i.Counted) {potion : Item}
    {rest : Multiset Item} (hbefore : t.before.world.hoard = potion ::ₘ rest)
    (hafter : t.after.world.hoard = potion.dregs + rest) (kinds : ItemKind → Bool) :
    t.after.world.unitsOf kinds + (if kinds potion.kind then 1 else 0) =
      t.before.world.unitsOf kinds := by
  rw [hbefore] at hcounted
  have hdregs := (hcounted potion (Multiset.mem_cons_self _ _)).unitsOf_dregs kinds
  rw [World.unitsOf_of_cons hbefore, World.unitsOf_of_add hafter]
  omega

/-- Coins and money are two sides of the same, as long as purses have room. -/
theorem wealth_eq (h : t.Trades) (hcounted : ∀ i ∈ t.before.world.hoard, i.Counted)
    (hfits : ¬ t.Overflows) : t.after.world.wealth = t.before.world.wealth := by
  unfold World.wealth
  cases h with
  | nothing _ hoard_eq purses_eq => rw [World.unitsOf_of_eq hoard_eq, purses_eq]
  | @cashed coins _ hkind hoard_eq purses_eq =>
    have hpurses := purses_eq hfits
    have hunits : t.before.world.unitsOf (· == .coins) =
        coins.unitsOf (· == .coins) + t.after.world.unitsOf (· == .coins) :=
      World.unitsOf_of_cons hoard_eq _
    have hamount : coins.unitsOf (· == .coins) = coins.amount.toNat :=
      Item.unitsOf_of_kind (beq_iff_eq.mpr hkind)
    omega
  | @drunk potion rest _ hkind hoard_before hoard_after purses_eq =>
    have hcoins : (potion.kind == .coins) = false := by
      revert hkind
      cases potion.kind <;> decide
    have hunits := unitsOf_of_drunk hcounted hoard_before hoard_after (· == .coins)
    rw [hcoins, if_neg Bool.false_ne_true, Nat.add_zero] at hunits
    rw [hunits, purses_eq]

/-- A draught costs one unit of a potion, and nothing else costs any. -/
theorem potions_eq (h : t.Trades) (hcounted : ∀ i ∈ t.before.world.hoard, i.Counted) :
    t.after.world.unitsOf ItemKind.isPotion + (if t.HasDrunk then 1 else 0) =
      t.before.world.unitsOf ItemKind.isPotion := by
  cases h with
  | nothing sober hoard_eq => rw [if_neg sober, World.unitsOf_of_eq hoard_eq, Nat.add_zero]
  | @cashed coins sober hkind hoard_eq =>
    -- coins are no potions, so the pile can lose them
    have hnone : coins.unitsOf ItemKind.isPotion = 0 := Item.unitsOf_of_not (by rw [hkind]; rfl)
    rw [if_neg sober, World.unitsOf_of_cons hoard_eq, hnone, Nat.zero_add, Nat.add_zero,
      World.unitsOf]
  | @drunk potion rest drunk hkind hoard_before hoard_after =>
    have hunits := unitsOf_of_drunk hcounted hoard_before hoard_after ItemKind.isPotion
    rw [if_pos hkind] at hunits
    rw [if_pos drunk, hunits]

end Tick.Trades

end Delve

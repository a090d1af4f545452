import Delve.Brain.Task.Pickup
import Delve.Brain.Task.Potion
import Delve.Proofs.Meter
import Delve.Proofs.World.Ground
import Delve.Proofs.World.Invariant
/-!
# What the doings of one actor leave alone in a world

An actor can wear out its own body and goods, dig rock and hurt the player. `World.TouchedBy` says
that nothing else has changed; it holds of every single write and can be chained.
-/

namespace Delve

/-! ## 1. What may become of an actor -/

/-- The actor later on, as far as its own doings go: who it is does not change, and health that is
within its bounds is not lost. -/
structure Actor.Remains (a b : Actor) : Prop where
  id_eq : b.id = a.id
  name_eq : b.name = a.name
  stats_eq : b.stats = a.stats
  missed_eq : b.missed = a.missed
  hp_maximum_eq : b.hp.maximum = a.hp.maximum
  mp_maximum_eq : b.mp.maximum = a.mp.maximum
  capacity_eq : b.inventory.capacity = a.inventory.capacity
  hp_kept : a.hp.current ≤ a.hp.maximum →
    a.hp.current ≤ b.hp.current ∧ b.hp.current ≤ b.hp.maximum

/-- The actor later on, as far as the doings of others go: it may have lost health. -/
def Actor.Wounded (a b : Actor) : Prop :=
  ∃ current ≤ a.hp.current, b = { a with hp := { a.hp with current } }

namespace Actor

variable {a b c : Actor}

theorem Remains.of_same (hid : b.id = a.id) (hname : b.name = a.name) (hstats : b.stats = a.stats)
    (hmissed : b.missed = a.missed) (hhp : b.hp = a.hp) (hmp : b.mp.maximum = a.mp.maximum)
    (hcapacity : b.inventory.capacity = a.inventory.capacity) : a.Remains b where
  id_eq := hid
  name_eq := hname
  stats_eq := hstats
  missed_eq := hmissed
  hp_maximum_eq := by rw [hhp]
  mp_maximum_eq := hmp
  capacity_eq := hcapacity
  hp_kept h := by
    rw [hhp]
    exact ⟨UInt32.le_refl _, h⟩

theorem Remains.refl (a : Actor) : a.Remains a := .of_same rfl rfl rfl rfl rfl rfl rfl

theorem Remains.trans (h : a.Remains b) (h' : b.Remains c) : a.Remains c where
  id_eq := h'.id_eq.trans h.id_eq
  name_eq := h'.name_eq.trans h.name_eq
  stats_eq := h'.stats_eq.trans h.stats_eq
  missed_eq := h'.missed_eq.trans h.missed_eq
  hp_maximum_eq := h'.hp_maximum_eq.trans h.hp_maximum_eq
  mp_maximum_eq := h'.mp_maximum_eq.trans h.mp_maximum_eq
  capacity_eq := h'.capacity_eq.trans h.capacity_eq
  hp_kept hbound := by
    obtain ⟨hle, hbound⟩ := h.hp_kept hbound
    obtain ⟨hle', hbound'⟩ := h'.hp_kept hbound
    exact ⟨UInt32.le_trans hle hle', hbound'⟩

/-- Health within its bounds is not lost by the actor's own doings, so the actor lives on. -/
theorem Remains.isAlive (h : a.Remains b) (halive : a.isAlive = true)
    (hbounded : a.hp.current ≤ a.hp.maximum) : b.isAlive = true := by
  have hkept := UInt32.le_iff_toNat_le.mp (h.hp_kept hbounded).1
  simp only [Actor.isAlive, Meter.isEmpty, Bool.not_eq_true', beq_eq_false_iff_ne, ne_eq,
    ← UInt32.toNat_inj, UInt32.toNat_zero] at halive ⊢
  omega

theorem Wounded.refl (a : Actor) : a.Wounded a := ⟨a.hp.current, UInt32.le_refl _, rfl⟩

theorem Wounded.trans (h : a.Wounded b) (h' : b.Wounded c) : a.Wounded c := by
  obtain ⟨m, hm, rfl⟩ := h
  obtain ⟨n, hn, rfl⟩ := h'
  exact ⟨n, UInt32.le_trans hn hm, rfl⟩

theorem Wounded.id_eq (h : a.Wounded b) : b.id = a.id := by
  obtain ⟨_, -, rfl⟩ := h
  rfl

/-- Whoever has been hurt is not readier than before. -/
theorem Wounded.canAct_of {ready : UInt32} (h : a.Wounded b) (hcan : b.canAct ready = true) :
    a.canAct ready = true := by
  obtain ⟨current, hle, rfl⟩ := h
  simp only [canAct, isAlive, Meter.isEmpty, Bool.and_eq_true, Bool.not_eq_true',
    beq_eq_false_iff_ne, ne_eq, decide_eq_true_eq] at hcan ⊢
  refine ⟨?_, hcan.2⟩
  intro hzero
  apply hcan.1
  rw [← UInt32.toNat_inj, UInt32.toNat_zero] at hzero ⊢
  rw [UInt32.le_iff_toNat_le] at hle
  omega

theorem wounded_receiveDamage (a : Actor) (amount : UInt32) :
    a.Wounded (a.receiveDamage amount).2 := by
  refine ⟨a.hp.current.subClamp amount, ?_, rfl⟩
  rw [UInt32.le_iff_toNat_le, UInt32.toNat_subClamp]
  omega

theorem remains_finishTurn (a : Actor) (ready : UInt32) : a.Remains (a.finishTurn ready) :=
  .of_same rfl rfl rfl rfl rfl rfl rfl

theorem capacity_of_takeOne {inv rest : Inventory} {slot : Nat} {item : Item}
    (h : inv.takeOne? slot = some (item, rest)) : rest.capacity = inv.capacity := by
  unfold Inventory.takeOne? at h
  obtain ⟨i, -, heq⟩ := Option.map_eq_some_iff.mp h
  split at heq <;> cases heq <;> rfl

theorem restore_current (m : Meter) (amount : UInt32) (h : m.current ≤ m.maximum) :
    m.current ≤ (m.restore amount).2.current ∧
      (m.restore amount).2.current ≤ (m.restore amount).2.maximum := by
  have hfilled := m.toNat_restore amount
  rw [UInt32.le_iff_toNat_le] at h ⊢
  rw [UInt32.le_iff_toNat_le]
  refine ⟨by omega, ?_⟩
  show _ ≤ m.maximum.toNat
  omega

theorem remains_quaff (a : Actor) (potion : Item) : a.Remains (a.quaff potion) := by
  unfold quaff
  split
  · -- only healing touches the health
    exact ⟨rfl, rfl, rfl, rfl, rfl, rfl, rfl, restore_current a.hp _⟩
  all_goals exact .of_same rfl rfl rfl rfl rfl rfl rfl

theorem remains_of_receive {item : Item} (h : a.receive? item = some b) : a.Remains b := by
  unfold receive? at h
  split at h
  · cases h
    exact .of_same rfl rfl rfl rfl rfl rfl rfl
  · obtain ⟨inventory, hadd, rfl⟩ := Option.map_eq_some_iff.mp h
    unfold Inventory.add? at hadd
    split at hadd
    · cases hadd
    · cases hadd
      exact .of_same rfl rfl rfl rfl rfl rfl rfl

end Actor

section OptionRel

variable {α : Type} {r : α → α → Prop}

theorem rel_refl (h : ∀ a, r a a) (o : Option α) : Option.Rel r o o := by
  cases o with
  | none => exact .none
  | some a => exact .some (h a)

theorem rel_trans (h : ∀ a b c, r a b → r b c → r a c) {o p q : Option α}
    (hop : Option.Rel r o p) (hpq : Option.Rel r p q) : Option.Rel r o q := by
  cases hop with
  | none => exact hpq
  | some hab =>
    cases hpq with
    | some hbc => exact .some (h _ _ _ hab hbc)

theorem exists_of_rel_some {o : Option α} {b : α} (h : Option.Rel r o (some b)) :
    ∃ a, o = some a ∧ r a b := by
  cases h with
  | some hab => exact ⟨_, rfl, hab⟩

theorem exists_of_some_rel {a : α} {o : Option α} (h : Option.Rel r (some a) o) :
    ∃ b, o = some b ∧ r a b := by
  cases h with
  | some hab => exact ⟨_, rfl, hab⟩

theorem isSome_of_rel {o p : Option α} (h : Option.Rel r o p) : p.isSome = o.isSome := by
  cases h <;> rfl

end OptionRel

/-! ## 2. What may become of a world -/

namespace World

/-- The player is stored under its own handle. -/
def KnowsPlayer (w : World) : Prop := ∀ a, w.player? = some a → w.playerId = some a.id

theorem knowsPlayer_of_player {w : World} {a : Actor} (ha : w.player? = some a)
    (hid : w.playerId = some a.id) : w.KnowsPlayer := by
  intro b hb
  rw [ha] at hb
  cases hb
  exact hid

theorem Consistent.knowsPlayer {w : World} (h : w.Consistent) : w.KnowsPlayer := by
  intro a ha
  obtain ⟨id, hid, hactor⟩ := Option.bind_eq_some_iff.mp ha
  rw [hid, h.id_eq id a hactor]

/-- A world later on, after doings of one actor. The piles are left out, for what becomes of them
depends on where the actor has been. -/
structure TouchedBy (id : ActorId) (w w' : World) : Prop where
  own : Option.Rel Actor.Remains (w.actor? id) (w'.actor? id)
  player : ∀ i, i ≠ id → w.playerId = some i → Option.Rel Actor.Wounded (w.actor? i) (w'.actor? i)
  others : ∀ i, i ≠ id → w.playerId ≠ some i → w'.actor? i = w.actor? i
  extent_eq : w'.extent = w.extent
  terrain_eq : w'.terrain = w.terrain
  features : ∀ p, w'.featureAt? p = w.featureAt? p ∨
    w.featureAt? p = some .rock ∧ w'.featureAt? p = some .rubble
  playerId_eq : w'.playerId = w.playerId
  nextId_eq : w'.nextId = w.nextId

variable {w w' w'' : World} {id i : ActorId} {a b : Actor}

/-- Where actors stand and what lies about is not looked at. -/
theorem touchedBy_of_actors_eq (id : ActorId) (occupants : CellMap ActorId)
    (piles : CellMap (List Item)) : w.TouchedBy id { w with occupants, piles } where
  own := rel_refl Actor.Remains.refl _
  player _ _ _ := rel_refl Actor.Wounded.refl _
  others _ _ _ := rfl
  extent_eq := rfl
  terrain_eq := rfl
  features _ := Or.inl rfl
  playerId_eq := rfl
  nextId_eq := rfl

theorem TouchedBy.refl (id : ActorId) (w : World) : w.TouchedBy id w :=
  touchedBy_of_actors_eq id w.occupants w.piles

theorem TouchedBy.opens (h : w.TouchedBy id w') : w.Opens w' :=
  ⟨h.extent_eq, h.terrain_eq, h.features⟩

theorem TouchedBy.trans (h : w.TouchedBy id w') (h' : w'.TouchedBy id w'') :
    w.TouchedBy id w'' where
  own := rel_trans (r := Actor.Remains) (fun _ _ _ ↦ .trans) h.own h'.own
  player i hi hplayer := by
    have hplayer' : w'.playerId = some i := h.playerId_eq.trans hplayer
    exact rel_trans (r := Actor.Wounded) (fun _ _ _ ↦ .trans) (h.player i hi hplayer)
      (h'.player i hi hplayer')
  others i hi hplayer := by
    have hplayer' : w'.playerId ≠ some i := by rwa [h.playerId_eq]
    rw [h'.others i hi hplayer', h.others i hi hplayer]
  extent_eq := h'.extent_eq.trans h.extent_eq
  terrain_eq := h'.terrain_eq.trans h.terrain_eq
  features := (h.opens.trans h'.opens).features
  playerId_eq := h'.playerId_eq.trans h.playerId_eq
  nextId_eq := h'.nextId_eq.trans h.nextId_eq

/-- The actor itself may change and step elsewhere. -/
theorem touchedBy_insert (ha : w.actor? id = some a) (hb : a.Remains b)
    (occupants : CellMap ActorId) :
    w.TouchedBy id { w with actors := w.actors.insert id b, occupants } := by
  have hactor : ∀ i, ({ w with actors := w.actors.insert id b, occupants } : World).actor? i =
      if id = i then some b else w.actor? i := fun i ↦ getElem?_insert_eq_ite _ _ _ _
  refine ⟨?_, ?_, ?_, rfl, rfl, fun p ↦ Or.inl rfl, rfl, rfl⟩
  · rw [hactor, if_pos rfl, ha]
    exact .some hb
  · intro i hi _
    rw [hactor, if_neg (Ne.symm hi)]
    exact rel_refl Actor.Wounded.refl _
  · intro i hi _
    rw [hactor, if_neg (Ne.symm hi)]

theorem touchedBy_modifyActor {change : Actor → Actor}
    (h : ∀ a, w.actor? id = some a → a.Remains (change a)) :
    w.TouchedBy id (w.modifyActor id change) := by
  cases ha : w.actor? id with
  | none =>
    rw [modifyActor_of_none ha]
    exact .refl id w
  | some a =>
    rw [modifyActor_of_some ha]
    exact touchedBy_insert ha (h a ha) w.occupants

/-- Of the others, only the player may be struck. -/
theorem touchedBy_wound {change : Actor → Actor} (hi : i ≠ id) (hplayer : w.playerId = some i)
    (h : ∀ a : Actor, a.Wounded (change a)) : w.TouchedBy id (w.modifyActor i change) := by
  cases ha : w.actor? i with
  | none =>
    rw [modifyActor_of_none ha]
    exact .refl id w
  | some a =>
    rw [modifyActor_of_some ha]
    have hactor : ∀ j, ({ w with actors := w.actors.insert i (change a) } : World).actor? j =
        if i = j then some (change a) else w.actor? j := fun j ↦ getElem?_insert_eq_ite _ _ _ _
    refine ⟨?_, ?_, ?_, rfl, rfl, fun p ↦ Or.inl rfl, rfl, rfl⟩
    · rw [hactor, if_neg hi]
      exact rel_refl Actor.Remains.refl _
    · intro j _ hj
      -- there is one player only
      rw [hplayer] at hj
      cases hj
      rw [hactor, if_pos rfl, ha]
      exact .some (h a)
    · intro j _ hj
      rw [hactor, if_neg]
      rintro rfl
      exact hj hplayer

/-- Rock that is dug out becomes rubble. -/
theorem touchedBy_dig {cell : Position} (id : ActorId) (hrock : w.isMineable cell = true) :
    w.TouchedBy id { w with features := w.features.insert cell .rubble } where
  own := rel_refl Actor.Remains.refl _
  player _ _ _ := rel_refl Actor.Wounded.refl _
  others _ _ _ := rfl
  extent_eq := rfl
  terrain_eq := rfl
  features := (opens_dug hrock).features
  playerId_eq := rfl
  nextId_eq := rfl

/-- Nobody comes or goes. -/
theorem TouchedBy.mem_iff (h : w.TouchedBy id w') (i : ActorId) :
    i ∈ w'.actors ↔ i ∈ w.actors := by
  have hkept : (w'.actor? i).isSome = (w.actor? i).isSome := by
    by_cases hown : i = id
    · subst hown
      exact isSome_of_rel h.own
    · by_cases hplayer : w.playerId = some i
      · exact isSome_of_rel (h.player i hown hplayer)
      · rw [h.others i hown hplayer]
  rw [Std.ExtTreeMap.mem_iff_isSome_getElem?, Std.ExtTreeMap.mem_iff_isSome_getElem?]
  exact iff_of_eq (congrArg (· = true) hkept)

theorem TouchedBy.knowsPlayer (h : w.TouchedBy id w') (hplayer : w.KnowsPlayer) :
    w'.KnowsPlayer := by
  intro b hb
  obtain ⟨i, hi, hactor⟩ := Option.bind_eq_some_iff.mp hb
  have hi' : w.playerId = some i := h.playerId_eq.symm.trans hi
  -- whoever the player is, it has kept its handle
  have hkept : ∃ a, w.actor? i = some a ∧ b.id = a.id := by
    by_cases hown : i = id
    · subst hown
      obtain ⟨a, ha, hremains⟩ := exists_of_rel_some (hactor ▸ h.own)
      exact ⟨a, ha, hremains.id_eq⟩
    · obtain ⟨a, ha, hwounded⟩ := exists_of_rel_some (hactor ▸ h.player i hown hi')
      exact ⟨a, ha, hwounded.id_eq⟩
  obtain ⟨a, ha, hid⟩ := hkept
  have hfound : w.player? = some a := Option.bind_eq_some_iff.mpr ⟨i, hi', ha⟩
  rw [h.playerId_eq, hid]
  exact hplayer a hfound

/-- Whoever comes in is stored under its own handle. -/
theorem KnowsPlayer.settle (h : w.KnowsPlayer) : (w.settle id a).KnowsPlayer := by
  intro b hb
  obtain ⟨i, hi, hactor⟩ := Option.bind_eq_some_iff.mp hb
  have hactor : (w.actors.insert id { a with id })[i]? = some b := hactor
  rcases getElem?_insert_eq_some hactor with ⟨rfl, rfl⟩ | hactor
  · exact hi
  · exact h b (Option.bind_eq_some_iff.mpr ⟨i, hi, hactor⟩)

theorem knowsPlayer_settle_player (w : World) (a : Actor) :
    { w.settle .player a with playerId := some .player }.KnowsPlayer := by
  intro b hb
  have hb : (w.actors.insert .player { a with id := .player })[ActorId.player]? = some b := hb
  rw [getElem?_insert_eq_ite, if_pos rfl] at hb
  cases hb
  rfl

theorem KnowsPlayer.vacate (h : w.KnowsPlayer) : (w.vacate id a).KnowsPlayer := by
  intro b hb
  obtain ⟨i, hi, hactor⟩ := Option.bind_eq_some_iff.mp hb
  have hi : (if w.playerId = some id then none else w.playerId) = some i := hi
  have hactor : (w.actors.erase id)[i]? = some b := hactor
  show (if w.playerId = some id then none else w.playerId) = some b.id
  split at hi
  · cases hi
  · rename_i hother
    rw [if_neg hother]
    exact h b (Option.bind_eq_some_iff.mpr ⟨i, hi, getElem?_of_erase hactor⟩)

theorem removeActor_of_some (ha : w.actor? id = some a) :
    w.removeActor? id = some (a, w.vacate id a) := by
  rw [removeActor?, ha]
  rfl

end World

end Delve

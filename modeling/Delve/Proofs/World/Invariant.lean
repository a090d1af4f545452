import Mathlib.Algebra.Order.Ring.Int
import Delve.Proofs.World.Operation
/-!
# The invariant of a world

The tables of a world speak of the same things: where actors stand is kept in the actors and in
the table of occupied cells, who they are in their handles and in the keys that they are stored
under. The invariant says that the tables agree and that nothing lies outside the extent, and
every operation that goes through keeps it.
-/

namespace Delve.World

/-! ## 1. The invariant -/

/-- The table of occupied cells says where the actors stand, and all of them stand in the world. -/
structure Seated (w : World) : Prop where
  occupants_iff : ∀ (p : Position) (id : ActorId),
    w.occupants[p]? = some id ↔ ∃ a, w.actors[id]? = some a ∧ a.position = p
  inBounds : ∀ (id : ActorId) (a : Actor), w.actors[id]? = some a → w.inBounds a.position = true

/-- Every actor stands on a cell of the world. -/
def Inside (w : World) : Prop :=
  ∀ (id : ActorId) (a : Actor), w.actors[id]? = some a → w.inBounds a.position = true

/-- Every actor is stored under its own handle, the handle of the player is known while there is
a player, and the next handle is above every handle in use. -/
structure Enrolled (w : World) : Prop where
  id_eq : ∀ (id : ActorId) (a : Actor), w.actors[id]? = some a → a.id = id
  playerId_eq : w.playerId = if ActorId.player ∈ w.actors then some .player else none
  number_lt : ∀ id ∈ w.actors, id ≠ .player → id.number < w.nextId
  nextId_pos : 0 < w.nextId

/-- Features and piles lie in the world, no stored pile is empty, and every cell has its ground. -/
structure Furnished (w : World) : Prop where
  feature_inBounds : ∀ p ∈ w.features, w.inBounds p = true
  pile_inBounds : ∀ p ∈ w.piles, w.inBounds p = true
  pile_ne_nil : ∀ (p : Position) (pile : List Item), w.piles[p]? = some pile → pile ≠ []
  size_terrain : w.terrain.size = w.extent.area

/-- All tables of a world agree. -/
structure Consistent (w : World) : Prop extends w.Seated, w.Enrolled, w.Furnished

variable {w w' : World} {p : Position} {id : ActorId} {a b : Actor}

/-- No two actors share a cell. -/
theorem Seated.id_unique (h : w.Seated) {id' : ActorId} (ha : w.actors[id]? = some a)
    (hb : w.actors[id']? = some b) (hcell : a.position = b.position) : id = id' := by
  have hid := (h.occupants_iff a.position id).mpr ⟨a, ha, rfl⟩
  have hid' := (h.occupants_iff a.position id').mpr ⟨b, hb, hcell.symm⟩
  rw [hid] at hid'
  exact Option.some.inj hid'

theorem Seated.occupants_eq (h : w.Seated) (ha : w.actors[id]? = some a) :
    w.occupants[a.position]? = some id :=
  (h.occupants_iff a.position id).mpr ⟨a, ha, rfl⟩

theorem ofExtent_consistent (extent : Extent) : (ofExtent extent).Consistent where
  occupants_iff p id := by simp [ofExtent]
  inBounds id a h := by simp [ofExtent] at h
  id_eq id a h := by simp [ofExtent] at h
  playerId_eq := by simp [ofExtent]
  number_lt id h := by simp [ofExtent] at h
  nextId_pos := by
    show (0 : UInt32) < 1
    decide
  feature_inBounds p h := by simp [ofExtent] at h
  pile_inBounds p h := by simp [ofExtent] at h
  pile_ne_nil p pile h := by simp [ofExtent] at h
  size_terrain := by simp [ofExtent]

/-! ## 2. Ground, features and items

These operations leave the actors and their cells alone, so only the third part of the invariant
is at stake. -/

theorem Consistent.of_furnished (h : w.Consistent) (hw : w'.Furnished)
    (hextent : w'.extent = w.extent) (hactors : w'.actors = w.actors)
    (hoccupants : w'.occupants = w.occupants) (hplayer : w'.playerId = w.playerId)
    (hnext : w'.nextId = w.nextId) : w'.Consistent := by
  have hbounds : w'.inBounds = w.inBounds := by
    unfold World.inBounds
    rw [hextent]
  refine ⟨⟨?_, ?_⟩, ⟨?_, ?_, ?_, ?_⟩, hw⟩
  · rw [hoccupants, hactors]
    exact h.occupants_iff
  · rw [hactors, hbounds]
    exact h.inBounds
  · rw [hactors]
    exact h.id_eq
  · rw [hplayer, hactors]
    exact h.playerId_eq
  · rw [hactors, hnext]
    exact h.number_lt
  · rw [hnext]
    exact h.nextId_pos

theorem Furnished.setTerrain {t : Terrain} (h : w.Furnished)
    (hw : w.setTerrain p t = .ok w') : w'.Furnished := by
  obtain ⟨i, -, rfl⟩ := setTerrain_eq_ok hw
  refine ⟨h.feature_inBounds, h.pile_inBounds, h.pile_ne_nil, ?_⟩
  show (w.terrain.setIfInBounds i t).size = w.extent.area
  rw [Array.size_setIfInBounds, h.size_terrain]

theorem Consistent.setTerrain {t : Terrain} (h : w.Consistent)
    (hw : w.setTerrain p t = .ok w') : w'.Consistent := by
  have hground := h.toFurnished.setTerrain hw
  obtain ⟨i, -, rfl⟩ := setTerrain_eq_ok hw
  exact h.of_furnished hground rfl rfl rfl rfl rfl

/-- Any change of the features keeps the invariant that adds none outside the world. -/
theorem Furnished.withFeatures (h : w.Furnished) {features : CellMap Feature}
    (hfeatures : ∀ p ∈ features, w.inBounds p = true) : { w with features }.Furnished :=
  ⟨hfeatures, h.pile_inBounds, h.pile_ne_nil, h.size_terrain⟩

theorem Furnished.insertFeature (h : w.Furnished) (hp : w.inBounds p = true) (f : Feature) :
    { w with features := w.features.insert p f }.Furnished := by
  apply h.withFeatures
  intro q hq
  rw [mem_insert_iff] at hq
  rcases hq with rfl | hq
  · exact hp
  · exact h.feature_inBounds q hq

theorem Consistent.insertFeature (h : w.Consistent) (hp : w.inBounds p = true) (f : Feature) :
    { w with features := w.features.insert p f }.Consistent :=
  h.of_furnished (h.toFurnished.insertFeature hp f) rfl rfl rfl rfl rfl

theorem Consistent.placeFeature {f : Feature} (h : w.Consistent)
    (hw : w.placeFeature p f = .ok w') : w'.Consistent := by
  obtain ⟨hp, rfl⟩ := placeFeature_eq_ok hw
  exact h.insertFeature hp f

theorem Furnished.removeFeature (h : w.Furnished) (p : Position) :
    (w.removeFeature p).Furnished := by
  apply h.withFeatures
  intro q hq
  exact h.feature_inBounds q (Std.ExtTreeMap.mem_of_mem_erase hq)

theorem Consistent.removeFeature (h : w.Consistent) (p : Position) :
    (w.removeFeature p).Consistent :=
  h.of_furnished (h.toFurnished.removeFeature p) rfl rfl rfl rfl rfl

theorem mem_features_of_isMineable (h : w.isMineable p = true) : p ∈ w.features := by
  unfold isMineable featureAt? at h
  rw [Option.any_eq_true] at h
  obtain ⟨f, hf, -⟩ := h
  exact mem_of_getElem?_eq_some hf

theorem Consistent.mine (h : w.Consistent) (hw : w.mine p = .ok w') : w'.Consistent := by
  obtain ⟨hp, rfl⟩ := mine_eq_ok hw
  exact h.insertFeature (h.feature_inBounds p (mem_features_of_isMineable hp)) .rubble

/-- Any change of one pile keeps the invariant, for an empty pile is never stored. -/
theorem Furnished.withPile (h : w.Furnished) (hp : w.inBounds p = true) (pile : List Item) :
    (w.withPile p pile).Furnished := by
  -- whatever pile is stored afterwards is the new one or was stored before
  have hpiles : ∀ (q : Position) (items : List Item),
      (w.withPile p pile).piles[q]? = some items →
        (p = q ∧ items = pile ∧ pile ≠ []) ∨ w.piles[q]? = some items := by
    intro q items hq
    unfold World.withPile at hq
    dsimp only at hq
    by_cases hpile : pile.isEmpty = true
    · rw [if_pos hpile] at hq
      exact Or.inr (getElem?_of_erase hq)
    · rw [if_neg hpile] at hq
      rcases getElem?_insert_eq_some hq with ⟨hpq, rfl⟩ | hold
      · exact Or.inl ⟨hpq, rfl, by simpa using hpile⟩
      · exact Or.inr hold
  refine ⟨h.feature_inBounds, ?_, ?_, h.size_terrain⟩
  · intro q hq
    obtain ⟨items, hitems⟩ := Std.ExtTreeMap.mem_iff_isSome_getElem?.trans
      Option.isSome_iff_exists |>.mp hq
    rcases hpiles q items hitems with ⟨rfl, -, -⟩ | hold
    · exact hp
    · exact h.pile_inBounds q (mem_of_getElem?_eq_some hold)
  · intro q items hitems
    rcases hpiles q items hitems with ⟨-, rfl, hne⟩ | hold
    · exact hne
    · exact h.pile_ne_nil q items hold

theorem Consistent.withPile (h : w.Consistent) (hp : w.inBounds p = true) (pile : List Item) :
    (w.withPile p pile).Consistent :=
  h.of_furnished (h.toFurnished.withPile hp pile) rfl rfl rfl rfl rfl

theorem withPile_of_dropItem {item : Item} (hw : w.dropItem p item = .ok w') :
    w.inBounds p = true ∧ w' = w.withPile p (w.itemsAt p ++ [item]) := by
  obtain ⟨hp, rfl⟩ := dropItem_eq_ok hw
  have hpile : (w.itemsAt p ++ [item]).isEmpty = false := by simp
  refine ⟨hp, ?_⟩
  rw [World.withPile, hpile, if_neg Bool.false_ne_true]

theorem Consistent.dropItem {item : Item} (h : w.Consistent)
    (hw : w.dropItem p item = .ok w') : w'.Consistent := by
  obtain ⟨hp, rfl⟩ := withPile_of_dropItem hw
  exact h.withPile hp _

theorem mem_piles_of_getElem? {place : Nat} {item : Item}
    (h : (w.itemsAt p)[place]? = some item) : p ∈ w.piles := by
  unfold itemsAt at h
  cases hp : w.piles[p]? with
  | none => simp [hp] at h
  | some pile => exact mem_of_getElem?_eq_some hp

theorem Consistent.takeItem {place : Nat} {item : Item} (h : w.Consistent)
    (hw : w.takeItem? p place = some (item, w')) : w'.Consistent := by
  obtain ⟨hitem, rfl⟩ := takeItem_eq_some hw
  exact h.withPile (h.pile_inBounds p (mem_piles_of_getElem? hitem)) _

/-! ## 3. Actors -/

/-- The first two parts of the invariant speak of the actors; the third one does not change with
them. -/
theorem Furnished.of_eq (h : w.Furnished) (hextent : w'.extent = w.extent)
    (hterrain : w'.terrain = w.terrain) (hfeatures : w'.features = w.features)
    (hpiles : w'.piles = w.piles) : w'.Furnished := by
  have hbounds : w'.inBounds = w.inBounds := by
    unfold World.inBounds
    rw [hextent]
  constructor
  · rw [hfeatures, hbounds]
    exact h.feature_inBounds
  · rw [hpiles, hbounds]
    exact h.pile_inBounds
  · rw [hpiles]
    exact h.pile_ne_nil
  · rw [hterrain, hextent]
    exact h.size_terrain

/-- A table of occupied cells that says where actors stand. -/
def Seats (occupants : CellMap ActorId) (actors : ActorMap Actor) : Prop :=
  ∀ (p : Position) (id : ActorId),
    occupants[p]? = some id ↔ ∃ a, actors[id]? = some a ∧ a.position = p

/-- A newcomer takes a cell that nobody stands on. -/
theorem Seats.insert {occupants : CellMap ActorId} {actors : ActorMap Actor}
    (h : Seats occupants actors) (hfree : occupants[a.position]? = none)
    (hnew : actors[id]? = none) :
    Seats (occupants.insert a.position id) (actors.insert id a) := by
  intro p i
  rw [getElem?_insert_eq_ite, getElem?_insert_eq_ite]
  by_cases hi : id = i
  · subst hi
    rw [if_pos rfl]
    -- the newcomer has stood nowhere before
    have hnowhere : occupants[p]? ≠ some id := by
      rw [Ne, h p id, hnew]
      simp
    by_cases hp : a.position = p
    · simp [hp]
    · simp [hp, hnowhere]
  · rw [if_neg hi]
    -- for everybody else, the table can only have changed at the newcomer's cell
    by_cases hp : a.position = p
    · subst hp
      rw [if_pos rfl, ← h a.position i, hfree]
      simp [hi]
    · rw [if_neg hp, h p i]

/-- An actor that goes leaves its cell free. -/
theorem Seats.erase {occupants : CellMap ActorId} {actors : ActorMap Actor}
    (h : Seats occupants actors) (ha : actors[id]? = some a) :
    Seats (occupants.erase a.position) (actors.erase id) := by
  intro p i
  rw [getElem?_erase_eq_ite, getElem?_erase_eq_ite]
  by_cases hi : id = i
  · subst hi
    rw [if_pos rfl]
    by_cases hp : a.position = p
    · simp [hp]
    · rw [if_neg hp, h p id, ha]
      simp [hp]
  · rw [if_neg hi]
    by_cases hp : a.position = p
    · subst hp
      rw [if_pos rfl, ← h a.position i, (h a.position id).mpr ⟨a, ha, rfl⟩]
      simp [hi]
    · rw [if_neg hp, h p i]

theorem Seated.settle (h : w.Seated) (hcell : w.canEnter a.position = true)
    (hnew : w.actors[id]? = none) : (w.settle id a).Seated where
  occupants_iff := by
    have hseats : Seats w.occupants w.actors := h.occupants_iff
    exact hseats.insert (a := { a with id }) (canEnter_iff.mp hcell).2 hnew
  inBounds i b hb := by
    have hb : (w.actors.insert id { a with id })[i]? = some b := hb
    show w.inBounds b.position = true
    rcases getElem?_insert_eq_some hb with ⟨-, rfl⟩ | hb
    · exact inBounds_of_canEnter hcell
    · exact h.inBounds i b hb

theorem Seated.settlePlayer (h : w.Seated) (hcell : w.canEnter a.position = true)
    (hnew : w.actors[ActorId.player]? = none) :
    { w.settle .player a with playerId := some .player }.Seated := by
  have hsettled := h.settle hcell hnew
  exact ⟨hsettled.occupants_iff, hsettled.inBounds⟩

theorem Seated.vacate (h : w.Seated) (ha : w.actors[id]? = some a) : (w.vacate id a).Seated where
  occupants_iff := by
    have hseats : Seats w.occupants w.actors := h.occupants_iff
    -- the tables agree, so the guard of the removal always holds
    have hcell : w.occupantAt? a.position = some id := h.occupants_eq ha
    show Seats (if w.occupantAt? a.position = some id then w.occupants.erase a.position
      else w.occupants) (w.actors.erase id)
    rw [if_pos hcell]
    exact hseats.erase ha
  inBounds i b hb := by
    have hb : (w.actors.erase id)[i]? = some b := hb
    exact h.inBounds i b (getElem?_of_erase hb)

/-- A step frees the old cell and takes the new one, as if the actor had left the world in
between. -/
theorem Seated.relocate (h : w.Seated) (ha : w.actors[id]? = some a) {goal : Position}
    (hgoal : w.canEnter goal = true) : (w.relocate id a goal).Seated where
  occupants_iff := by
    have hseats : Seats w.occupants w.actors := h.occupants_iff
    have hfree : (w.occupants.erase a.position)[goal]? = none := by
      rw [getElem?_erase_eq_ite, (canEnter_iff.mp hgoal).2, ite_self]
    have hgone : (w.actors.erase id)[id]? = none := by
      rw [getElem?_erase_eq_ite, if_pos rfl]
    have hmoved := (hseats.erase ha).insert (a := { a with position := goal }) hfree hgone
    rw [insert_erase] at hmoved
    exact hmoved
  inBounds i b hb := by
    have hb : (w.actors.insert id { a with position := goal })[i]? = some b := hb
    show w.inBounds b.position = true
    rcases getElem?_insert_eq_some hb with ⟨-, rfl⟩ | hb
    · exact inBounds_of_canEnter hgoal
    · exact h.inBounds i b hb

theorem Seated.modify (h : w.Seated) (ha : w.actors[id]? = some a)
    (hposition : b.position = a.position) :
    { w with actors := w.actors.insert id b }.Seated where
  occupants_iff p i := by
    show w.occupants[p]? = some i ↔ ∃ c, (w.actors.insert id b)[i]? = some c ∧ c.position = p
    rw [getElem?_insert_eq_ite, h.occupants_iff]
    by_cases hi : id = i
    · subst hi
      rw [if_pos rfl, ha]
      simp [hposition]
    · rw [if_neg hi]
  inBounds i c hc := by
    have hc : (w.actors.insert id b)[i]? = some c := hc
    show w.inBounds c.position = true
    rcases getElem?_insert_eq_some hc with ⟨-, rfl⟩ | hc
    · rw [hposition]
      exact h.inBounds id a ha
    · exact h.inBounds i c hc

/-- Whatever happens to an actor on its cell, the tables go on agreeing. -/
theorem Seated.modifyActor (h : w.Seated) {change : Actor → Actor}
    (hposition : ∀ a, w.actors[id]? = some a → (change a).position = a.position) :
    (w.modifyActor id change).Seated := by
  cases ha : w.actors[id]? with
  | none => rwa [modifyActor_of_none ha]
  | some a =>
    rw [modifyActor_of_some ha]
    exact h.modify ha (hposition a ha)

theorem Enrolled.next_ne_player (h : w.Enrolled) : (⟨w.nextId⟩ : ActorId) ≠ .player := by
  intro heq
  have hzero : w.nextId = 0 := congrArg ActorId.number heq
  have hpos := h.nextId_pos
  rw [hzero] at hpos
  exact absurd hpos (by decide)

/-- Nobody has the next handle yet. -/
theorem Enrolled.fresh (h : w.Enrolled) : w.actors[(⟨w.nextId⟩ : ActorId)]? = none := by
  rw [← Option.not_isSome_iff_eq_none, ← Std.ExtTreeMap.mem_iff_isSome_getElem?]
  intro hmem
  have hlt : w.nextId < w.nextId := h.number_lt _ hmem h.next_ne_player
  exact absurd hlt (UInt32.lt_irrefl _)

/-- A monster takes the next handle, as long as there is another one after it. -/
theorem Enrolled.spawn (h : w.Enrolled) (hroom : w.nextId.toNat + 1 < 2 ^ 32) (a : Actor) :
    { w.settle ⟨w.nextId⟩ a with nextId := w.nextId + 1 }.Enrolled := by
  -- the counter does not wrap, else the next monster would get the player's handle
  have hnext : (w.nextId + 1).toNat = w.nextId.toNat + 1 := by
    rw [UInt32.toNat_add]
    exact Nat.mod_eq_of_lt hroom
  refine ⟨?_, ?_, ?_, ?_⟩
  · intro i b hb
    rcases getElem?_insert_eq_some hb with ⟨rfl, rfl⟩ | hb
    · rfl
    · exact h.id_eq i b hb
  · show w.playerId = if ActorId.player ∈ w.actors.insert _ _ then some .player else none
    rw [h.playerId_eq]
    simp only [mem_insert_iff, h.next_ne_player, false_or]
  · intro i hi hne
    show i.number < w.nextId + 1
    rw [UInt32.lt_iff_toNat_lt, hnext]
    rcases (mem_insert_iff _ _ _ _).mp hi with rfl | hi
    · exact Nat.lt_succ_self _
    · have hlt := UInt32.lt_iff_toNat_lt.mp (h.number_lt i hi hne)
      omega
  · show 0 < w.nextId + 1
    rw [UInt32.lt_iff_toNat_lt, hnext]
    exact Nat.succ_pos _

theorem Enrolled.spawnPlayer (h : w.Enrolled) (a : Actor) :
    { w.settle .player a with playerId := some .player }.Enrolled := by
  refine ⟨?_, ?_, ?_, h.nextId_pos⟩
  · intro i b hb
    rcases getElem?_insert_eq_some hb with ⟨rfl, rfl⟩ | hb
    · rfl
    · exact h.id_eq i b hb
  · show some ActorId.player =
      if ActorId.player ∈ w.actors.insert _ _ then some ActorId.player else none
    rw [if_pos (mem_insert_iff _ _ _ _ |>.mpr (Or.inl rfl))]
  · intro i hi hne
    rcases (mem_insert_iff _ _ _ _).mp hi with hi | hi
    · exact absurd hi.symm hne
    · exact h.number_lt i hi hne

theorem Enrolled.vacate (h : w.Enrolled) (id : ActorId) (a : Actor) :
    (w.vacate id a).Enrolled := by
  refine ⟨?_, ?_, ?_, h.nextId_pos⟩
  · intro i b hb
    exact h.id_eq i b (getElem?_of_erase hb)
  · show (if w.playerId = some id then none else w.playerId) =
      if ActorId.player ∈ w.actors.erase id then some .player else none
    rw [h.playerId_eq]
    simp only [mem_erase_iff]
    by_cases hid : id = .player
    · simp [hid]
    · -- the player stays if there is one
      by_cases hmem : ActorId.player ∈ w.actors
      · simp [hmem, hid, Ne.symm hid]
      · simp [hmem]
  · intro i hi hne
    exact h.number_lt i (Std.ExtTreeMap.mem_of_mem_erase hi) hne

theorem Consistent.spawnActor (h : w.Consistent) (hroom : w.nextId.toNat + 1 < 2 ^ 32)
    (hw : w.spawnActor a = .ok (id, w')) : w'.Consistent := by
  obtain ⟨hcell, -, rfl⟩ := spawnActor_eq_ok hw
  have hseated := h.toSeated.settle hcell h.fresh
  exact ⟨⟨hseated.occupants_iff, hseated.inBounds⟩, h.toEnrolled.spawn hroom a,
    h.toFurnished.of_eq rfl rfl rfl rfl⟩

theorem Consistent.spawnPlayer (h : w.Consistent) (hw : w.spawnPlayer a = .ok (id, w')) :
    w'.Consistent := by
  obtain ⟨hcell, -, hnew, rfl⟩ := spawnPlayer_eq_ok hw
  exact ⟨h.toSeated.settlePlayer hcell hnew, h.toEnrolled.spawnPlayer a,
    h.toFurnished.of_eq rfl rfl rfl rfl⟩

theorem Consistent.removeActor (h : w.Consistent) (hw : w.removeActor? id = some (a, w')) :
    w'.Consistent := by
  obtain ⟨ha, rfl⟩ := removeActor_eq_some hw
  exact ⟨h.toSeated.vacate ha, h.toEnrolled.vacate id a, h.toFurnished.of_eq rfl rfl rfl rfl⟩

/-- What an actor becomes is no matter, as long as it keeps its handle and its cell. -/
theorem Enrolled.modify (h : w.Enrolled) (ha : w.actors[id]? = some a) (hid : b.id = a.id) :
    { w with actors := w.actors.insert id b }.Enrolled := by
  have hold := h.id_eq id a ha
  -- the handles in use stay the same
  have hmem : ∀ i, i ∈ w.actors.insert id b ↔ i ∈ w.actors := by
    intro i
    rw [mem_insert_iff]
    constructor
    · rintro (rfl | hi)
      · exact mem_of_getElem?_eq_some ha
      · exact hi
    · exact Or.inr
  refine ⟨?_, ?_, ?_, h.nextId_pos⟩
  · intro i c hc
    rcases getElem?_insert_eq_some hc with ⟨rfl, rfl⟩ | hc
    · exact hid.trans hold
    · exact h.id_eq i c hc
  · show w.playerId = if ActorId.player ∈ w.actors.insert id b then some .player else none
    rw [h.playerId_eq]
    simp only [hmem]
  · intro i hi hne
    exact h.number_lt i ((hmem i).mp hi) hne

theorem Consistent.moveActor {goal : Position} (h : w.Consistent)
    (hw : w.moveActor id goal = .ok w') : w'.Consistent := by
  obtain ⟨a, ha, -, hgoal, rfl⟩ := moveActor_eq_ok hw
  have hseated := h.toSeated.relocate ha hgoal
  have henrolled := h.toEnrolled.modify (b := { a with position := goal }) ha rfl
  exact ⟨hseated, ⟨henrolled.id_eq, henrolled.playerId_eq, henrolled.number_lt, h.nextId_pos⟩,
    h.toFurnished.of_eq rfl rfl rfl rfl⟩

theorem Consistent.modifyActor (h : w.Consistent) {change : Actor → Actor}
    (hid : ∀ a, (change a).id = a.id) (hposition : ∀ a, (change a).position = a.position) :
    (w.modifyActor id change).Consistent := by
  cases ha : w.actors[id]? with
  | none => rwa [modifyActor_of_none ha]
  | some a =>
    rw [modifyActor_of_some ha]
    exact ⟨h.toSeated.modify ha (hposition a), h.toEnrolled.modify ha (hid a),
      h.toFurnished.of_eq rfl rfl rfl rfl⟩

end Delve.World

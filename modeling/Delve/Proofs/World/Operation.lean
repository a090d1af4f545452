import Delve.World.Actors
import Delve.World.Ground
import Delve.Proofs.Map
/-!
# What the operations of a world do

For each operation, the cases in which it goes through and the world that it leaves then. Nothing
else in the theory looks into an operation.
-/

namespace Delve.World

variable {w w' : World} {p : Position} {id : ActorId} {a : Actor}

/-! ## 1. Ground, features and items -/

theorem setTerrain_eq_ok {t : Terrain} (h : w.setTerrain p t = .ok w') :
    ∃ i, w.extent.index? p = some i ∧
      w' = { w with terrain := w.terrain.setIfInBounds i t } := by
  unfold setTerrain at h
  split at h
  · cases h
  · rename_i i hi
    cases h
    exact ⟨i, hi, rfl⟩

theorem setTerrain_of_index {i : Nat} (h : w.extent.index? p = some i) (t : Terrain) :
    w.setTerrain p t = .ok { w with terrain := w.terrain.setIfInBounds i t } := by
  rw [setTerrain, h]

theorem placeFeature_of_inBounds (h : w.inBounds p = true) (f : Feature) :
    w.placeFeature p f = .ok { w with features := w.features.insert p f } := by
  rw [placeFeature, if_pos h]

theorem placeFeature_eq_ok {f : Feature} (h : w.placeFeature p f = .ok w') :
    w.inBounds p = true ∧ w' = { w with features := w.features.insert p f } := by
  unfold placeFeature at h
  split at h
  · rename_i hp
    cases h
    exact ⟨hp, rfl⟩
  · cases h

theorem mine_of_isMineable (h : w.isMineable p = true) :
    w.mine p = .ok { w with features := w.features.insert p .rubble } := by
  rw [mine, if_pos h]

theorem mine_eq_ok (h : w.mine p = .ok w') :
    w.isMineable p = true ∧ w' = { w with features := w.features.insert p .rubble } := by
  unfold mine at h
  split at h
  · rename_i hp
    cases h
    exact ⟨hp, rfl⟩
  · cases h

theorem dropItem_eq_ok {item : Item} (h : w.dropItem p item = .ok w') :
    w.inBounds p = true ∧
      w' = { w with piles := w.piles.insert p (w.itemsAt p ++ [item]) } := by
  unfold dropItem at h
  split at h
  · rename_i hp
    cases h
    exact ⟨hp, rfl⟩
  · cases h

/-- The piles after the pile of a cell has become another, which may be empty. -/
def withPile (w : World) (p : Position) (pile : List Item) : World :=
  { w with piles := if pile.isEmpty then w.piles.erase p else w.piles.insert p pile }

theorem takeItem_eq_some {place : Nat} {item : Item} (h : w.takeItem? p place = some (item, w')) :
    (w.itemsAt p)[place]? = some item ∧ w' = w.withPile p ((w.itemsAt p).eraseIdx place) := by
  unfold takeItem? at h
  rw [Option.map_eq_some_iff] at h
  obtain ⟨i, hi, heq⟩ := h
  cases heq
  exact ⟨hi, rfl⟩

/-! ## 2. Actors -/

theorem canEnter_iff :
    w.canEnter p = true ↔ w.isObstacle p = false ∧ w.occupants[p]? = none := by
  unfold canEnter occupantAt?
  rw [Bool.and_eq_true, Bool.not_eq_true', Option.isNone_iff_eq_none]

/-- What is outside the world is an obstacle. -/
theorem inBounds_of_not_isObstacle (h : w.isObstacle p = false) : w.inBounds p = true := by
  unfold isObstacle at h
  split at h
  · cases h
  · rename_i t ht
    unfold terrainAt? Extent.index? at ht
    split at ht
    · rename_i hp
      exact hp
    · cases ht

theorem inBounds_of_canEnter (h : w.canEnter p = true) : w.inBounds p = true :=
  inBounds_of_not_isObstacle (canEnter_iff.mp h).1

theorem spawnError_eq_none (h : w.spawnError? p = none) : w.canEnter p = true := by
  unfold spawnError? at h
  rw [canEnter_iff]
  split at h
  · cases h
  · split at h
    · cases h
    · rename_i hobstacle
      split at h
      · cases h
      · rename_i hfree
        exact ⟨Bool.eq_false_iff.mpr hobstacle, Option.not_isSome_iff_eq_none.mp hfree⟩

theorem spawnActor_eq_ok (h : w.spawnActor a = .ok (id, w')) :
    w.canEnter a.position = true ∧ id = ⟨w.nextId⟩ ∧
      w' = { w.settle ⟨w.nextId⟩ a with nextId := w.nextId + 1 } := by
  unfold spawnActor at h
  split at h
  · cases h
  · rename_i hfree
    cases h
    exact ⟨spawnError_eq_none hfree, rfl, rfl⟩

theorem spawnPlayer_eq_ok (h : w.spawnPlayer a = .ok (id, w')) :
    w.canEnter a.position = true ∧ id = .player ∧ w.actors[ActorId.player]? = none ∧
      w' = { w.settle .player a with playerId := some .player } := by
  unfold spawnPlayer at h
  split at h
  · cases h
  · rename_i hnew
    split at h
    · cases h
    · rename_i hfree
      cases h
      exact ⟨spawnError_eq_none hfree, rfl, Option.not_isSome_iff_eq_none.mp hnew, rfl⟩

/-- The world without an actor. -/
def vacate (w : World) (id : ActorId) (a : Actor) : World :=
  { w with
    actors := w.actors.erase id
    occupants :=
      if w.occupantAt? a.position = some id then w.occupants.erase a.position else w.occupants
    playerId := if w.playerId = some id then none else w.playerId }

theorem removeActor_eq_some (h : w.removeActor? id = some (a, w')) :
    w.actors[id]? = some a ∧ w' = w.vacate id a := by
  unfold removeActor? at h
  rw [Option.map_eq_some_iff] at h
  obtain ⟨b, hb, heq⟩ := h
  cases heq
  exact ⟨hb, rfl⟩

/-- The world with an actor on another cell. -/
def relocate (w : World) (id : ActorId) (a : Actor) (goal : Position) : World :=
  { w with
    occupants := (w.occupants.erase a.position).insert goal id
    actors := w.actors.insert id { a with position := goal } }

theorem actor_relocate (w : World) (id : ActorId) (a : Actor) (p : Position) :
    (w.relocate id a p).actor? id = some { a with position := p } := by
  rw [actor?, relocate, getElem?_insert_eq_ite, if_pos rfl]

theorem moveActor_eq_ok {goal : Position} (h : w.moveActor id goal = .ok w') :
    ∃ a, w.actors[id]? = some a ∧ a.position.isNeighbor goal = true ∧
      w.canEnter goal = true ∧ w' = w.relocate id a goal := by
  unfold moveActor at h
  split at h
  · cases h
  · rename_i a ha
    split at h
    · cases h
    · split at h
      · cases h
      · rename_i hneighbor
        split at h
        · cases h
        · rename_i hobstacle
          split at h
          · cases h
          · rename_i hfree
            cases h
            refine ⟨a, ha, by simpa using hneighbor, ?_, rfl⟩
            rw [canEnter_iff]
            exact ⟨Bool.eq_false_iff.mpr hobstacle, Option.not_isSome_iff_eq_none.mp hfree⟩

/-- A step onto a free neighbouring cell is never refused. -/
theorem moveActor_of_canEnter {goal : Position} (ha : w.actors[id]? = some a)
    (hneighbor : a.position.isNeighbor goal = true) (hfree : w.canEnter goal = true) :
    w.moveActor id goal = .ok (w.relocate id a goal) := by
  have hactor : w.actor? id = some a := ha
  have hbounds := inBounds_of_canEnter hfree
  rw [canEnter_iff] at hfree
  have hoccupant : w.occupantAt? goal = none := hfree.2
  unfold moveActor
  rw [hactor]
  dsimp only
  rw [if_neg (by simp [hbounds]), if_neg (by simp [hneighbor]), if_neg (by simp [hfree.1]),
    if_neg (by simp [hoccupant])]
  rfl

/-- The only reason against a step onto a neighbouring cell without an obstacle is somebody there. -/
theorem moveActor_of_occupied {goal : Position} {i : ActorId} (ha : w.actors[id]? = some a)
    (hneighbor : a.position.isNeighbor goal = true) (hground : w.isObstacle goal = false)
    (hoccupied : w.occupants[goal]? = some i) : w.moveActor id goal = .error (.occupied goal) := by
  have hactor : w.actor? id = some a := ha
  have hoccupant : w.occupantAt? goal = some i := hoccupied
  have hbounds := inBounds_of_not_isObstacle hground
  unfold moveActor
  rw [hactor]
  dsimp only
  rw [if_neg (by simp [hbounds]), if_neg (by simp [hneighbor]), if_neg (by simp [hground]),
    if_pos (by simp [hoccupant])]

theorem modifyActor_of_some {change : Actor → Actor} (ha : w.actors[id]? = some a) :
    w.modifyActor id change = { w with actors := w.actors.insert id (change a) } := by
  have hactor : w.actor? id = some a := ha
  rw [modifyActor, hactor]

theorem modifyActor_of_none {change : Actor → Actor} (ha : w.actors[id]? = none) :
    w.modifyActor id change = w := by
  have hactor : w.actor? id = none := ha
  rw [modifyActor, hactor]

theorem playerId_modifyActor (w : World) (id : ActorId) (change : Actor → Actor) :
    (w.modifyActor id change).playerId = w.playerId := by
  unfold modifyActor
  split <;> rfl

theorem actor_modifyActor (w : World) (id : ActorId) (change : Actor → Actor) (i : ActorId) :
    (w.modifyActor id change).actor? i =
      if id = i then (w.actor? i).map change else w.actor? i := by
  cases ha : w.actors[id]? with
  | none =>
    rw [modifyActor_of_none ha]
    split
    · rename_i hi
      have hnone : w.actor? i = none := hi ▸ ha
      rw [hnone, Option.map_none]
    · rfl
  | some a =>
    rw [modifyActor_of_some ha]
    show (w.actors.insert id (change a))[i]? = _
    rw [getElem?_insert_eq_ite]
    split
    · rename_i hi
      have hsome : w.actor? i = some a := hi ▸ ha
      rw [hsome, Option.map_some]
    · rfl

end Delve.World

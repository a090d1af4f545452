import Delve.Proofs.World.Operation
/-!
# The ground of a world

What keeps an actor out is the ground: the extent, the terrain and the features. Actors and items
may change without it, and the one thing that actors do to it is to dig out rock. So a world only
ever opens: no cell becomes an obstacle, and every cell that is dug out is one rock less.
-/

namespace Delve.World

variable {w w' w'' : World} {p cell : Position} {id : ActorId}

/-! ## 1. The same ground -/

structure SameGround (w w' : World) : Prop where
  extent_eq : w'.extent = w.extent
  terrain_eq : w'.terrain = w.terrain
  features_eq : w'.features = w.features

theorem SameGround.refl (w : World) : w.SameGround w := ⟨rfl, rfl, rfl⟩

theorem SameGround.trans (h : w.SameGround w') (h' : w'.SameGround w'') : w.SameGround w'' :=
  ⟨h'.extent_eq.trans h.extent_eq, h'.terrain_eq.trans h.terrain_eq,
    h'.features_eq.trans h.features_eq⟩

theorem sameGround_modifyActor (w : World) (id : ActorId) (change : Actor → Actor) :
    w.SameGround (w.modifyActor id change) := by
  unfold modifyActor
  split <;> exact ⟨rfl, rfl, rfl⟩

/-! ## 2. Open worlds -/

/-- A later state of a world: the ground is the same, but for rock that has become rubble. -/
structure Opens (w w' : World) : Prop where
  extent_eq : w'.extent = w.extent
  terrain_eq : w'.terrain = w.terrain
  features : ∀ p, w'.featureAt? p = w.featureAt? p ∨
    w.featureAt? p = some .rock ∧ w'.featureAt? p = some .rubble

theorem SameGround.opens (h : w.SameGround w') : w.Opens w' where
  extent_eq := h.extent_eq
  terrain_eq := h.terrain_eq
  features p := by
    rw [featureAt?, featureAt?, h.features_eq]
    exact Or.inl rfl

theorem Opens.trans (h : w.Opens w') (h' : w'.Opens w'') : w.Opens w'' where
  extent_eq := h'.extent_eq.trans h.extent_eq
  terrain_eq := h'.terrain_eq.trans h.terrain_eq
  features p := by
    rcases h.features p with hsame | ⟨hrock, hrubble⟩
    · rw [← hsame]
      exact h'.features p
    · -- rubble is not rock, so it stays what it is
      rcases h'.features p with hsame | ⟨hrock', -⟩
      · exact Or.inr ⟨hrock, hsame.trans hrubble⟩
      · rw [hrubble] at hrock'
        cases hrock'

theorem Opens.inBounds_eq (h : w.Opens w') (p : Position) : w'.inBounds p = w.inBounds p := by
  rw [inBounds, inBounds, h.extent_eq]

/-- Rubble is in nobody's way, so a cell that is free of obstacles stays free of them. -/
theorem Opens.isObstacle_eq_false (h : w.Opens w') (hp : w.isObstacle p = false) :
    w'.isObstacle p = false := by
  have hterrain : w'.terrainAt? p = w.terrainAt? p := by
    rw [terrainAt?, terrainAt?, h.extent_eq, h.terrain_eq]
  unfold isObstacle at hp ⊢
  rw [hterrain]
  cases ht : w.terrainAt? p with
  | none =>
    rw [ht] at hp
    cases hp
  | some t =>
    rw [ht] at hp
    dsimp only at hp ⊢
    rw [Bool.or_eq_false_iff] at hp ⊢
    refine ⟨hp.1, ?_⟩
    rcases h.features p with hsame | ⟨-, hrubble⟩
    · rw [hsame]
      exact hp.2
    · rw [hrubble]
      rfl

/-! ## 3. Digging -/

/-- The world with rubble on a cell, in the place of what stood there. -/
def dug (w : World) (cell : Position) : World :=
  { w with features := w.features.insert cell .rubble }

/-- Nothing but rock can be dug out. -/
theorem featureAt_of_isMineable (h : w.isMineable cell = true) :
    w.featureAt? cell = some .rock := by
  obtain ⟨f, hf, hmineable⟩ := (Option.any_eq_true _ _).mp h
  cases f with
  | rock => exact hf
  | boulder => cases hmineable
  | rubble => cases hmineable

theorem featureAt_dug (w : World) (cell p : Position) :
    (w.dug cell).featureAt? p = if cell = p then some .rubble else w.featureAt? p :=
  getElem?_insert_eq_ite _ _ _ _

theorem opens_dug (h : w.isMineable cell = true) : w.Opens (w.dug cell) where
  extent_eq := rfl
  terrain_eq := rfl
  features p := by
    rw [featureAt_dug]
    by_cases hp : cell = p
    · subst hp
      rw [if_pos rfl]
      exact Or.inr ⟨featureAt_of_isMineable h, rfl⟩
    · rw [if_neg hp]
      exact Or.inl rfl

/-- The number of cells with rock on them. -/
def rockCount (w : World) : Nat := (w.features.filter fun _ f ↦ f == .rock).size

theorem SameGround.rockCount_eq (h : w.SameGround w') : w'.rockCount = w.rockCount := by
  rw [rockCount, rockCount, h.features_eq]

/-- Digging takes the cell out of those with rock on them, and leaves the others alone. -/
theorem rockCount_dug (h : w.isMineable cell = true) :
    (w.dug cell).rockCount + 1 = w.rockCount := by
  have hrock : w.features[cell]? = some .rock := featureAt_of_isMineable h
  have hfilter : (w.dug cell).features.filter (fun _ f ↦ f == .rock) =
      (w.features.filter fun _ f ↦ f == .rock).erase cell := by
    apply Std.ExtTreeMap.ext_getElem?
    intro p
    rw [dug, Std.ExtTreeMap.getElem?_filter', getElem?_insert_eq_ite, getElem?_erase_eq_ite,
      Std.ExtTreeMap.getElem?_filter']
    split <;> rfl
  have hmem : cell ∈ w.features.filter fun _ f ↦ f == .rock := by
    apply mem_of_getElem?_eq_some (v := .rock)
    rw [Std.ExtTreeMap.getElem?_filter', hrock]
    rfl
  have hpos : (w.features.filter fun _ f ↦ f == .rock).size ≠ 0 :=
    fun hzero ↦ Std.ExtTreeMap.ne_empty_of_mem hmem
      (Std.ExtTreeMap.eq_empty_iff_size_eq_zero.mpr hzero)
  rw [rockCount, rockCount, hfilter, Std.ExtTreeMap.size_erase,
    if_pos (Std.ExtTreeMap.contains_iff_mem.mpr hmem)]
  omega

end Delve.World

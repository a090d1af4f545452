import Delve.Proofs.World.Picture
/-!
# The ground, cell by cell

The ground of a world is one row of places, and a cell has the place that is counted out by its row
and its column. Whatever the sides of the world are, the place of a cell is one that the ground has,
no two cells share one, and a cell has a place just if it lies inside. A side that counts as negative
leaves no cell inside, so places are only counted out where both sides are below `2^31`, and there
they stay far below the end of a machine word. The main statement is `terrain_addressed`.
-/

namespace Delve

/-! ## 1. Places -/

namespace Extent

variable {e : Extent} {p : Position} {i : Nat}

theorem exists_index?_iff (e : Extent) (p : Position) :
    (∃ i, e.index? p = some i) ↔ e.contains p = true := by
  unfold index?
  by_cases hinside : e.contains p = true
  · simp [hinside]
  · simp [hinside]

/-- The place of a cell is before the end of the rows. -/
theorem index?_lt_area (h : e.index? p = some i) : i < e.area := by
  have hsigned := signed_of_index? h
  have hinside : e.contains p = true := (e.exists_index?_iff p).mp ⟨i, h⟩
  obtain ⟨x, y, hx, hy, rfl⟩ := hsigned.exists_cell hinside
  rw [hsigned.index?_cell hx hy, Option.some.injEq] at h
  rw [← h]
  exact place_lt hx hy

theorem Signed.area_lt (h : e.Signed) : e.area < 2 ^ 62 := by
  have hsides : e.area < 2 ^ 31 * 2 ^ 31 := Nat.mul_lt_mul'' h.width_lt h.height_lt
  omega

end Extent

/-! ## 2. All worlds -/

namespace World

variable {w w' : World} {p : Position} {i : Nat}

/-- The worlds that there can be: a new one, and whatever an operation makes of one or somebody
makes of its actors. -/
inductive Arises : World → Prop
  | new {w : World} : w.IsNew → Arises w
  | change {w w' : World} {c : Change} : Arises w → c.attempt w = some w' → Arises w'
  | edit {w : World} (id : ActorId) (change : Actor → Actor) : Arises w →
    Arises (w.modifyActor id change)

theorem Furnished.modifyActor (h : w.Furnished) (id : ActorId) (change : Actor → Actor) :
    (w.modifyActor id change).Furnished := by
  unfold World.modifyActor
  split
  · exact h
  · exact h.of_eq rfl rfl rfl rfl

theorem Arises.furnished (h : w.Arises) : w.Furnished := by
  induction h with
  | new hnew => exact hnew.consistent.1.toFurnished
  | change _ hc ih => exact Change.furnished_attempt ih hc
  | edit id change _ ih => exact ih.modifyActor id change

/-! ## 3. Reading and writing -/

theorem Furnished.place_lt (h : w.Furnished) (hi : w.extent.index? p = some i) :
    i < w.terrain.size := by
  rw [h.size_terrain]
  exact Extent.index?_lt_area hi

theorem Furnished.exists_terrainAt?_iff (h : w.Furnished) (p : Position) :
    (∃ t, w.terrainAt? p = some t) ↔ w.extent.contains p = true := by
  rw [← w.extent.exists_index?_iff p]
  constructor
  · rintro ⟨t, ht⟩
    obtain ⟨i, hi, -⟩ := Option.bind_eq_some_iff.mp ht
    exact ⟨i, hi⟩
  · rintro ⟨i, hi⟩
    exact h.exists_terrain hi (Extent.index?_lt_area hi)

theorem exists_setTerrain_iff (w : World) (p : Position) (t : Terrain) :
    (∃ w', w.setTerrain p t = .ok w') ↔ w.extent.contains p = true := by
  rw [← w.extent.exists_index?_iff p]
  constructor
  · rintro ⟨w', hw'⟩
    obtain ⟨i, hi, -⟩ := setTerrain_eq_ok hw'
    exact ⟨i, hi⟩
  · rintro ⟨i, hi⟩
    exact ⟨_, setTerrain_of_index hi t⟩

theorem Furnished.terrainAt?_setTerrain (h : w.Furnished) {t : Terrain}
    (hw' : w.setTerrain p t = .ok w') (q : Position) :
    w'.terrainAt? q = if q = p then some t else w.terrainAt? q := by
  obtain ⟨i, hi, rfl⟩ := setTerrain_eq_ok hw'
  exact terrainAt?_setIfInBounds (Extent.signed_of_index? hi) hi (h.place_lt hi) q

/-- In every world, whatever its sides, the ground can be read and written cell by cell. The place
of a cell is one that the ground has. Ground is found on the cells inside and on no others, and on
these it can be changed; then the cell has the new ground, and every other cell the ground that it
had. -/
theorem terrain_addressed (hw : w.Arises) :
    (∀ p i, w.extent.index? p = some i → i < w.terrain.size ∧ i < 2 ^ 62) ∧
    (∀ p, (∃ t, w.terrainAt? p = some t) ↔ w.extent.contains p = true) ∧
    (∀ p t, (∃ w', w.setTerrain p t = .ok w') ↔ w.extent.contains p = true) ∧
    ∀ p t w', w.setTerrain p t = .ok w' →
      ∀ q, w'.terrainAt? q = if q = p then some t else w.terrainAt? q := by
  have h := hw.furnished
  refine ⟨fun p i hi ↦ ⟨h.place_lt hi, ?_⟩, h.exists_terrainAt?_iff, w.exists_setTerrain_iff,
    fun p t w' hw' ↦ h.terrainAt?_setTerrain hw'⟩
  -- a cell has a place only where both sides count as signed, and then the area is small
  have hplace := Extent.index?_lt_area hi
  have harea := (Extent.signed_of_index? hi).area_lt
  omega

/-- A wall is built in the last cell of a field, whose neighbour in the row stays open. -/
theorem field_addressed :
    let field := ofExtent ⟨3, 2⟩
    field.Arises ∧ ∃ w', field.setTerrain ⟨2, 1⟩ .wall = .ok w' ∧
      w'.terrainAt? ⟨2, 1⟩ = some .wall ∧ w'.terrainAt? ⟨1, 1⟩ = some .floor := by
  intro field
  have hfield : field.Arises := .new (Or.inl ⟨⟨3, 2⟩, rfl⟩)
  obtain ⟨-, -, hset, hread⟩ := terrain_addressed hfield
  obtain ⟨w', hw'⟩ := (hset ⟨2, 1⟩ .wall).mpr (by decide)
  refine ⟨hfield, w', hw', ?_, ?_⟩
  · rw [hread _ _ _ hw', if_pos rfl]
  · rw [hread _ _ _ hw', if_neg (by decide)]
    decide

end World

end Delve

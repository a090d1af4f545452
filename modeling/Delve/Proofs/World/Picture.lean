import Delve.Game
import Delve.Proofs.Lines
import Delve.Proofs.World.Chart
import Delve.Proofs.World.History
/-!
# Layouts and pictures

A layout and the picture of its world are the same text. The other way round, a world in which
nobody stands and nothing lies, whose walls are bare and whose rocks are whole, is read back from
its picture.
-/

namespace Delve

/-! ## 1. What a layout can show -/

namespace World

variable {w w' : World} {p : Position}

/-- Nobody is in the world and nothing lies in it, no rock has been dug out, and walls are bare. -/
structure Plain (w : World) : Prop where
  actors_eq : w.actors = ∅
  itemsAt_eq : ∀ p : Position, w.itemsAt p = []
  featureAt?_ne : ∀ p : Position, w.featureAt? p ≠ some .rubble
  bare : ∀ p : Position, w.terrainAt? p = some .wall → w.featureAt? p = none

/-- The glyph that a cell is drawn with. -/
def glyphOf (w : World) (p : Position) : Glyph :=
  match w.featureAt? p with
  | some .rock => .rock
  | some .boulder => .boulder
  | some .rubble | none => if w.terrainAt? p = some .wall then .wall else .floor

theorem Plain.shows_glyphOf (h : w.Plain) {t : Terrain} (ht : w.terrainAt? p = some t) :
    w.Shows p (w.glyphOf p) := by
  unfold glyphOf
  cases hf : w.featureAt? p with
  | none =>
    cases t with
    | floor =>
      rw [ht]
      exact ⟨ht, hf⟩
    | wall =>
      rw [ht]
      exact ⟨ht, hf⟩
  | some f =>
    have hground : t = .floor := by
      cases t with
      | floor => rfl
      | wall =>
        rw [h.bare p ht] at hf
        cases hf
    subst hground
    cases f with
    | rock => exact ⟨ht, hf⟩
    | boulder => exact ⟨ht, hf⟩
    | rubble => exact absurd hf (h.featureAt?_ne p)

theorem Furnished.exists_terrain (h : w.Furnished) {i : Nat} (hi : w.extent.index? p = some i)
    (hlt : i < w.extent.area) : ∃ t, w.terrainAt? p = some t := by
  rw [← h.size_terrain] at hlt
  exact ⟨w.terrain[i], by rw [terrainAt?, hi, Option.bind_some, Array.getElem?_eq_getElem hlt]⟩

/-- Worlds of one extent are made alike if every cell of them is drawn with the same glyph. -/
theorem Furnished.eq_of_shows (h : w.Furnished) (h' : w'.Furnished) (he : w.extent.Signed)
    (hextent : w'.extent = w.extent)
    (hshows : ∀ x y, x < w.extent.width.toNat → y < w.extent.height.toNat →
      ∃ g, w.Shows (cell x y) g ∧ w'.Shows (cell x y) g) :
    w'.terrain = w.terrain ∧ w'.features = w.features := by
  constructor
  · have hsize : w'.terrain.size = w.terrain.size := by
      rw [h.size_terrain, h'.size_terrain, hextent]
    refine Array.ext hsize fun i hi' hi ↦ ?_
    rw [h.size_terrain] at hi
    obtain ⟨x, y, hx, hy, hindex⟩ := he.exists_index hi
    obtain ⟨g, hg, hg'⟩ := hshows x y hx hy
    have hterrain : w'.terrain[i]? = w.terrain[i]? := by
      have hsame := hg'.terrain.trans hg.terrain.symm
      rwa [terrainAt?, terrainAt?, hextent, hindex, Option.bind_some, Option.bind_some] at hsame
    rw [← h.size_terrain] at hi
    rw [Array.getElem?_eq_getElem hi, Array.getElem?_eq_getElem hi', Option.some.injEq] at hterrain
    exact hterrain
  · refine Std.ExtTreeMap.ext_getElem? fun p ↦ ?_
    by_cases hp : w.extent.contains p = true
    · obtain ⟨x, y, hx, hy, rfl⟩ := he.exists_cell hp
      obtain ⟨g, hg, hg'⟩ := hshows x y hx hy
      exact hg'.feature.trans hg.feature.symm
    · have hnone : ∀ {v : World}, v.Furnished → v.extent = w.extent → v.features[p]? = none := by
        intro v hv hsame
        refine Std.ExtTreeMap.getElem?_eq_none fun hmem ↦ ?_
        have hinside := hv.feature_inBounds p hmem
        rw [World.inBounds, hsame] at hinside
        exact hp hinside
      rw [hnone h rfl, hnone h' hextent]

/-! ## 2. There and back -/

theorem lines_render_of_picture_eq {e : Extent} {chart : Nat → Nat → Glyph}
    (h : w.picture = pictureOf e chart) : Text.lines w.render = pictureOf e chart := by
  rw [render, h]
  refine Text.lines_unlines fun row hrow ↦ ?_
  obtain ⟨y, -, rfl⟩ := List.mem_map.mp hrow
  rw [String.toList_ofList]
  -- no glyph is an ending of a line
  have hglyph : ∀ g : Glyph, g.toChar ≠ '\n' ∧ g.toChar ≠ '\r' := by
    intro g
    cases g <;> decide
  constructor
  · intro hmem
    obtain ⟨x, -, hx⟩ := List.mem_map.mp hmem
    exact (hglyph _).1 hx
  · intro hlast
    obtain ⟨x, -, hx⟩ := List.mem_map.mp (List.mem_of_getLast? hlast)
    exact (hglyph _).2 hx

/-- A game that begins with a layout shows the layout, and what is read from the picture of a plain
world has its extent, its ground and its features. The worlds of the second part are furnished, as
every world is at every point of its history (`Furnished.run`). -/
theorem layout_picture_roundTrip :
    (∀ (rows : List String) (w : World), ofRows rows = .ok w → rows.length < 2 ^ 31 →
      (∀ row ∈ rows, row.length < 2 ^ 31) → ∀ (rules : Rules) (memory : Memory),
        ∃ g, Game.start (some w) rules memory = .ok g ∧
          g.scene.world.render = Text.unlines rows) ∧
    ∀ w : World, w.Furnished → w.Plain →
      0 < w.extent.width.toNat → w.extent.width.toNat < 2 ^ 31 →
      0 < w.extent.height.toNat → w.extent.height.toNat < 2 ^ 31 →
        ∃ w', ofRows (Text.lines w.render) = .ok w' ∧ w'.extent = w.extent ∧
          w'.terrain = w.terrain ∧ w'.features = w.features := by
  constructor
  · intro rows w hw hheight hwidth rules memory
    refine ⟨_, rfl, ?_⟩
    obtain ⟨e, chart, he, hwide, hhigh, rfl⟩ := exists_chart_of_ofRows hw hheight hwidth
    obtain ⟨w', hw', hdrawing⟩ := exists_ofRows_pictureOf he hwide hhigh chart
    rw [hw, Except.ok.injEq] at hw'
    subst hw'
    show Text.unlines w.picture = _
    rw [hdrawing.picture_eq he]
  · intro w hw hplain hwide hwidth hhigh hheight
    have he : w.extent.Signed := ⟨hwidth, hheight⟩
    let chart (x y : Nat) : Glyph := w.glyphOf (cell x y)
    have hshows : ∀ x y, x < w.extent.width.toNat → y < w.extent.height.toNat →
        w.Shows (cell x y) (chart x y) := by
      intro x y hx hy
      obtain ⟨t, ht⟩ := hw.exists_terrain (he.index?_cell hx hy) (Extent.place_lt hx hy)
      exact hplain.shows_glyphOf ht
    have hpicture : w.picture = pictureOf w.extent chart := by
      refine picture_eq_pictureOf he fun x y hx hy ↦ ?_
      rw [glyphAt_of_bare hplain.actors_eq (hplain.itemsAt_eq _), (hshows x y hx hy).groundGlyph_eq]
    rw [lines_render_of_picture_eq hpicture]
    obtain ⟨w', hw', hdrawing⟩ := exists_ofRows_pictureOf he hwide hhigh chart
    refine ⟨w', hw', hdrawing.extent_eq, ?_⟩
    refine hw.eq_of_shows hdrawing.consistent.toFurnished he hdrawing.extent_eq fun x y hx hy ↦ ?_
    have hdrawn := hdrawing.shows x y hx hy
    rw [if_pos (Or.inl hy)] at hdrawn
    exact ⟨chart x y, hshows x y hx hy, hdrawn⟩

/-- The yard after the player has come and gone. -/
def leftYard : World :=
  yard.run [.spawnPlayer { name := "hero", position := ⟨0, 0⟩ }, .removeActor .player]

theorem featureAt?_leftYard (p : Position) :
    leftYard.featureAt? p = if ⟨0, 1⟩ = p then some .rock else none := by
  have hfeatures : leftYard.features = (∅ : CellMap Feature).insert ⟨0, 1⟩ .rock := by
    decide +kernel
  rw [featureAt?, hfeatures, getElem?_insert_eq_ite, Std.ExtTreeMap.getElem?_empty]

theorem leftYard_plain : leftYard.Plain where
  actors_eq := by decide +kernel
  itemsAt_eq p := by
    have hpiles : leftYard.piles = ∅ := by decide +kernel
    rw [itemsAt, hpiles, Std.ExtTreeMap.getElem?_empty]
    rfl
  featureAt?_ne p := by
    rw [featureAt?_leftYard]
    split <;> decide
  bare p hp := by
    rw [featureAt?_leftYard]
    split
    · rename_i hrock
      subst hrock
      exact absurd hp (by decide +kernel)
    · rfl

/-- The layout of the yard, its picture, and what is read from the picture of the yard when the
player has left it. -/
theorem yard_roundTrip :
    ofRows ["..#", "*.."] = .ok yard ∧ leftYard.Furnished ∧ leftYard.Plain ∧
      (∃ g, Game.start (some yard) {} .empty = .ok g ∧ g.scene.world.render = "..#\n*..\n") ∧
      ∃ w', ofRows (Text.lines leftYard.render) = .ok w' ∧ w'.extent = leftYard.extent ∧
        w'.terrain = leftYard.terrain ∧ w'.features = leftYard.features := by
  have hrows : ofRows ["..#", "*.."] = .ok yard := by decide +kernel
  have hnew : yard.Furnished := (IsNew.consistent (Or.inr ⟨_, hrows⟩)).1.toFurnished
  have hfurnished : leftYard.Furnished := hnew.run _
  obtain ⟨g, hg, hshown⟩ := layout_picture_roundTrip.1 _ _ hrows (by decide) (by decide) {} .empty
  exact ⟨hrows, hfurnished, leftYard_plain, ⟨g, hg, hshown⟩,
    layout_picture_roundTrip.2 leftYard hfurnished leftYard_plain (by decide +kernel)
      (by decide +kernel) (by decide +kernel) (by decide +kernel)⟩

end World

end Delve

import Delve.World.Layout
import Delve.World.Picture
import Delve.Proofs.Except
import Delve.Proofs.Grid
import Delve.Proofs.World.Invariant
/-!
# Drawing a chart

A chart says for every cell of a grid with which glyph it is drawn. A layout is drawn in reading
order: at any point the cells that have been read are as the chart says, and the others are open
floor. So a layout that is the picture of a chart is accepted, the world that comes of it is what
the chart says, and no other layouts are accepted.
-/

namespace Delve

/-! ## 1. What a glyph stands for -/

namespace Glyph

def ground : Glyph → Terrain
  | wall => .wall
  | floor | rock | boulder => .floor

def feature? : Glyph → Option Feature
  | rock => some .rock
  | boulder => some .boulder
  | floor | wall => none

theorem eq_toChar_of_ofChar? {c : Char} {g : Glyph} (h : ofChar? c = some g) : c = g.toChar := by
  unfold ofChar? at h
  split at h <;> cases h <;> rfl

end Glyph

namespace World

variable {w w' : World} {p q : Position} {g : Glyph} {e : Extent} {x y : Nat}

/-- The cell is what is drawn with the glyph. -/
structure Shows (w : World) (p : Position) (g : Glyph) : Prop where
  terrain : w.terrainAt? p = some g.ground
  feature : w.featureAt? p = g.feature?

theorem Shows.groundGlyph_eq (h : w.Shows p g) : w.groundGlyph p = g.toChar := by
  unfold groundGlyph
  rw [h.terrain, h.feature]
  cases g <;> rfl

theorem Shows.inBounds (h : w.Shows p g) : w.inBounds p = true := by
  have hterrain := h.terrain
  unfold terrainAt? Extent.index? at hterrain
  split at hterrain
  · assumption
  · cases hterrain

/-! ## 2. One glyph -/

theorem terrainAt?_setIfInBounds {i : Nat} {t : Terrain} (he : w.extent.Signed)
    (hi : w.extent.index? p = some i) (hsize : i < w.terrain.size) (q : Position) :
    ({ w with terrain := w.terrain.setIfInBounds i t } : World).terrainAt? q =
      if q = p then some t else w.terrainAt? q := by
  show (w.extent.index? q).bind ((w.terrain.setIfInBounds i t)[·]?) = _
  by_cases hqp : q = p
  · rw [if_pos hqp, hqp, hi, Option.bind_some, Array.getElem?_setIfInBounds_self_of_lt hsize]
  · rw [if_neg hqp, terrainAt?]
    cases hq : w.extent.index? q with
    | none => rfl
    | some j =>
      have hij : i ≠ j := by
        rintro rfl
        exact hqp (he.index?_inj hq hi)
      rw [Option.bind_some, Option.bind_some, Array.getElem?_setIfInBounds_ne hij]

/-- A glyph drawn onto open floor is what its cell shows then, and the other cells show what they
have shown. -/
theorem exists_draw (h : w.Consistent) (he : w.extent.Signed) (hp : w.Shows p .floor) (g : Glyph) :
    ∃ w', g.draw p w = .ok w' ∧ w'.extent = w.extent ∧ w'.actors = w.actors ∧
      w'.piles = w.piles ∧ w'.Consistent ∧ w'.Shows p g ∧
      ∀ q g', q ≠ p → w.Shows q g' → w'.Shows q g' := by
  have hinside := hp.inBounds
  have hfeature : ∀ f : Feature, g.ground = .floor → g.feature? = some f →
      let w' : World := { w with features := w.features.insert p f }
      w'.Consistent ∧ w'.Shows p g ∧ ∀ q g', q ≠ p → w.Shows q g' → w'.Shows q g' := by
    intro f hground hf w'
    refine ⟨h.insertFeature hinside f, ⟨?_, ?_⟩, fun q g' hq hshows ↦ ⟨hshows.terrain, ?_⟩⟩
    · rw [hground]
      exact hp.terrain
    · rw [hf]
      show (w.features.insert p f)[p]? = some f
      rw [getElem?_insert_eq_ite, if_pos rfl]
    · rw [← hshows.feature]
      exact getElem?_insert_of_ne _ (Ne.symm hq) f
  cases g with
  | floor => exact ⟨w, rfl, rfl, rfl, rfl, h, hp, fun q g' _ hshows ↦ hshows⟩
  | wall =>
    obtain ⟨i, hi⟩ : ∃ i, w.extent.index? p = some i := ⟨_, if_pos hinside⟩
    have hset := setTerrain_of_index hi .wall
    have hsize : i < w.terrain.size := by
      have hterrain := hp.terrain
      rw [terrainAt?, hi, Option.bind_some] at hterrain
      exact (Array.getElem?_eq_some_iff.mp hterrain).1
    refine ⟨_, hset, rfl, rfl, rfl, h.setTerrain hset, ⟨?_, hp.feature⟩, ?_⟩
    · rw [terrainAt?_setIfInBounds he hi hsize, if_pos rfl]
      rfl
    · intro q g' hq hshows
      refine ⟨?_, hshows.feature⟩
      rw [terrainAt?_setIfInBounds he hi hsize, if_neg hq]
      exact hshows.terrain
  | rock => exact ⟨_, placeFeature_of_inBounds hinside .rock, rfl, rfl, rfl, hfeature _ rfl rfl⟩
  | boulder =>
    exact ⟨_, placeFeature_of_inBounds hinside .boulder, rfl, rfl, rfl, hfeature _ rfl rfl⟩

/-! ## 3. A whole chart -/

/-- The chart has been drawn onto open floor up to the cell of column `x` and row `y`, in reading
order, and nothing else has been done. -/
structure Drawing (e : Extent) (chart : Nat → Nat → Glyph) (x y : Nat) (w : World) : Prop where
  extent_eq : w.extent = e
  actors_eq : w.actors = ∅
  piles_eq : w.piles = ∅
  consistent : w.Consistent
  shows : ∀ x' y', x' < e.width.toNat → y' < e.height.toNat →
    w.Shows (cell x' y') (if y' < y ∨ y' = y ∧ x' < x then chart x' y' else .floor)

variable {chart : Nat → Nat → Glyph}

theorem drawing_ofExtent (he : e.Signed) (chart : Nat → Nat → Glyph) :
    Drawing e chart 0 0 (ofExtent e) where
  extent_eq := rfl
  actors_eq := rfl
  piles_eq := rfl
  consistent := ofExtent_consistent e
  shows x y hx hy := by
    rw [if_neg (by omega)]
    have hi := he.index?_cell hx hy
    refine ⟨?_, ?_⟩
    · show (e.index? (cell x y)).bind ((Array.replicate e.area Terrain.floor)[·]?) = _
      rw [hi, Option.bind_some, Array.getElem?_replicate,
        if_pos (Extent.place_lt hx hy)]
      rfl
    · exact Std.ExtTreeMap.getElem?_empty

theorem Drawing.draw (h : Drawing e chart x y w) (he : e.Signed) (hx : x < e.width.toNat)
    (hy : y < e.height.toNat) :
    ∃ w', (chart x y).draw (cell x y) w = .ok w' ∧ Drawing e chart (x + 1) y w' := by
  have hblank := h.shows x y hx hy
  rw [if_neg (by omega)] at hblank
  have he' : w.extent.Signed := h.extent_eq ▸ he
  obtain ⟨w', hdraw, hextent, hactors, hpiles, hconsistent, hshows, hothers⟩ :=
    exists_draw h.consistent he' hblank (chart x y)
  refine ⟨w', hdraw, hextent.trans h.extent_eq, hactors.trans h.actors_eq,
    hpiles.trans h.piles_eq, hconsistent, fun x' y' hx' hy' ↦ ?_⟩
  by_cases hcell : x' = x ∧ y' = y
  · obtain ⟨rfl, rfl⟩ := hcell
    rw [if_pos (by omega)]
    exact hshows
  · have hne : cell x' y' ≠ cell x y := by
      have hwidth := he.width_lt
      have hheight := he.height_lt
      intro heq
      exact hcell (cell_inj heq (by omega) (by omega) (by omega) (by omega))
    have hold := hothers _ _ hne (h.shows x' y' hx' hy')
    have hread : (y' < y ∨ y' = y ∧ x' < x + 1) ↔ (y' < y ∨ y' = y ∧ x' < x) := by omega
    simp only [hread]
    exact hold

/-- By induction on the columns that are left. -/
theorem Drawing.drawRow (h : Drawing e chart x y w) (he : e.Signed) (hy : y < e.height.toNat)
    {left : Nat} (hleft : x + left = e.width.toNat) :
    ∃ w', World.drawRow (.ofNat y) x ((List.range' x left).map fun x ↦ (chart x y).toChar) w =
        .ok w' ∧ Drawing e chart e.width.toNat y w' := by
  induction left generalizing x w with
  | zero => exact ⟨w, rfl, by rwa [← hleft]⟩
  | succ left ih =>
    obtain ⟨v, hv, hdrawing⟩ := h.draw he (by omega) hy
    obtain ⟨w', hw', hrow⟩ := ih hdrawing (by omega)
    refine ⟨w', ?_, hrow⟩
    rw [List.range'_succ, List.map_cons, World.drawRow, Glyph.ofChar?_toChar]
    show ((chart x y).draw (cell x y) w).bind _ = _
    rw [hv]
    exact hw'

/-- By induction on the rows that are left. -/
theorem Drawing.drawRows (h : Drawing e chart 0 y w) (he : e.Signed) {left : Nat}
    (hleft : y + left = e.height.toNat) :
    ∃ w', World.drawRows e.width.toNat y ((List.range' y left).map fun y ↦
        (List.range e.width.toNat).map fun x ↦ (chart x y).toChar) w = .ok w' ∧
      Drawing e chart 0 e.height.toNat w' := by
  induction left generalizing y w with
  | zero => exact ⟨w, rfl, by rwa [← hleft]⟩
  | succ left ih =>
    obtain ⟨v, hv, hdrawing⟩ := h.drawRow he (by omega) (Nat.zero_add _)
    rw [← List.range_eq_range'] at hv
    have hnext : Drawing e chart 0 (y + 1) v := by
      refine ⟨hdrawing.extent_eq, hdrawing.actors_eq, hdrawing.piles_eq, hdrawing.consistent,
        fun x' y' hx' hy' ↦ ?_⟩
      have hread : (y' < y + 1 ∨ y' = y + 1 ∧ x' < 0) ↔
          (y' < y ∨ y' = y ∧ x' < e.width.toNat) := by omega
      simp only [hread]
      exact hdrawing.shows x' y' hx' hy'
    obtain ⟨w', hw', hrows⟩ := ih hnext (by omega)
    refine ⟨w', ?_, hrows⟩
    rw [List.range'_succ, List.map_cons, World.drawRows, if_pos (by simp)]
    show (World.drawRow (.ofNat y) 0 _ w).bind _ = _
    rw [hv]
    exact hw'

/-! ## 4. The picture of a chart -/

def pictureOf (e : Extent) (chart : Nat → Nat → Glyph) : List String :=
  (List.range e.height.toNat).map fun y ↦
    .ofList ((List.range e.width.toNat).map fun x ↦ (chart x y).toChar)

theorem ofRows_of_cons {rows : List String} {first : List Char} {rest : List (List Char)}
    (hrows : rows.map (·.toList) = first :: rest) (hfirst : first ≠ []) :
    ofRows rows = World.drawRows first.length 0 (first :: rest)
      (ofExtent ⟨.ofNat first.length, .ofNat (first :: rest).length⟩) := by
  obtain ⟨c, cs, rfl⟩ := List.exists_cons_of_ne_nil hfirst
  unfold ofRows
  rw [hrows]

/-- The level that is drawn has the size of the layout, as long as the sides fit into a word. -/
theorem ofRows_of_head {rows : List String} {first : String} (hfirst : rows.head? = some first)
    (hne : first ≠ "") (hheight : rows.length < 2 ^ 31) (hwidth : first.length < 2 ^ 31) :
    ∃ e : Extent, e.Signed ∧ e.width.toNat = first.length ∧ e.height.toNat = rows.length ∧
      ofRows rows = World.drawRows e.width.toNat 0 (rows.map (·.toList)) (ofExtent e) := by
  obtain ⟨rest, rfl⟩ : ∃ rest, rows = first :: rest := by
    cases rows with
    | nil => cases hfirst
    | cons row rest => exact ⟨rest, by rw [Option.some.inj hfirst]⟩
  have hside : ∀ {n : Nat}, n < 2 ^ 31 → (UInt32.ofNat n).toNat = n :=
    fun hn ↦ UInt32.toNat_ofNat_of_lt' (Nat.lt_trans hn (by decide))
  refine ⟨⟨.ofNat first.length, .ofNat (first :: rest).length⟩, ⟨?_, ?_⟩, hside hwidth,
    hside hheight, ?_⟩
  · rwa [hside hwidth]
  · rwa [hside hheight]
  · have hchars : first.toList ≠ [] := fun hnil ↦ hne (String.toList_eq_nil_iff.mp hnil)
    rw [ofRows_of_cons rfl hchars, hside hwidth, String.length_toList, List.map_cons,
      List.length_cons, List.length_map, List.length_cons]

/-- The picture of a chart is a layout of what the chart shows. -/
theorem exists_ofRows_pictureOf (he : e.Signed) (hwidth : 0 < e.width.toNat)
    (hheight : 0 < e.height.toNat) (chart : Nat → Nat → Glyph) :
    ∃ w, ofRows (pictureOf e chart) = .ok w ∧ Drawing e chart 0 e.height.toNat w := by
  obtain ⟨w, hw, hdrawing⟩ := (drawing_ofExtent he chart).drawRows he (Nat.zero_add _)
  refine ⟨w, ?_, hdrawing⟩
  rw [← List.range_eq_range'] at hw
  have hrows : (pictureOf e chart).map (·.toList) = (List.range e.height.toNat).map fun y ↦
      (List.range e.width.toNat).map fun x ↦ (chart x y).toChar := by
    simp [pictureOf]
  obtain ⟨height, hsucc⟩ := Nat.exists_eq_add_one_of_ne_zero (Nat.ne_of_gt hheight)
  have hcons := hrows
  rw [hsucc, List.range_succ_eq_map, List.map_cons] at hcons
  have hfirst : (List.range e.width.toNat).map (fun x ↦ (chart x 0).toChar) ≠ [] := by
    rw [Ne, List.map_eq_nil_iff, List.range_eq_nil]
    omega
  rw [ofRows_of_cons hcons hfirst, ← hcons, hrows]
  simpa using hw

theorem exists_glyphs_of_drawRow {y : Int32} {cs : List Char}
    (hw : World.drawRow y x cs w = .ok w') :
    ∃ gs : List Glyph, cs = gs.map Glyph.toChar := by
  induction cs generalizing x w with
  | nil => exact ⟨[], rfl⟩
  | cons c cs ih =>
    unfold World.drawRow at hw
    dsimp only at hw
    split at hw
    · cases hw
    · rename_i g hg
      obtain ⟨v, -, hrest⟩ := bind_eq_ok.mp hw
      obtain ⟨gs, rfl⟩ := ih hrest
      exact ⟨g :: gs, by rw [Glyph.eq_toChar_of_ofChar? hg, List.map_cons]⟩

theorem exists_glyphs_of_drawRows {width : Nat} {rows : List (List Char)}
    (hw : World.drawRows width y rows w = .ok w') :
    ∃ gss : List (List Glyph), rows = gss.map (List.map Glyph.toChar) ∧
      ∀ gs ∈ gss, gs.length = width := by
  induction rows generalizing y w with
  | nil => exact ⟨[], rfl, by simp⟩
  | cons row rows ih =>
    unfold World.drawRows at hw
    split at hw
    · rename_i hlength
      obtain ⟨v, hv, hrest⟩ := bind_eq_ok.mp hw
      obtain ⟨gs, rfl⟩ := exists_glyphs_of_drawRow hv
      obtain ⟨gss, rfl, hgss⟩ := ih hrest
      rw [List.length_map] at hlength
      exact ⟨gs :: gss, rfl, List.forall_mem_cons.mpr ⟨hlength, hgss⟩⟩
    · cases hw

/-- Rows of one length are given by what stands in each column of each row. -/
theorem exists_chart {gss : List (List Glyph)} {width : Nat} (h : ∀ gs ∈ gss, gs.length = width) :
    ∃ chart : Nat → Nat → Glyph, gss = (List.range gss.length).map fun y ↦
      (List.range width).map fun x ↦ chart x y := by
  refine ⟨fun x y ↦ ((gss[y]?.getD [])[x]?).getD .floor, ?_⟩
  refine List.ext_getElem (by simp) fun y hy _ ↦ ?_
  rw [List.getElem_map, List.getElem_range]
  have hlength : gss[y].length = width := h _ (List.getElem_mem hy)
  refine List.ext_getElem (by simp [hlength]) fun x hx _ ↦ ?_
  rw [List.getElem_map, List.getElem_range]
  show _ = ((gss[y]?.getD [])[x]?).getD .floor
  rw [List.getElem?_eq_getElem hy, Option.getD_some, List.getElem?_eq_getElem hx, Option.getD_some]

theorem exists_head_of_ofRows {rows : List String} (hw : ofRows rows = .ok w) :
    ∃ first, rows.head? = some first ∧ first ≠ "" := by
  cases rows with
  | nil => cases hw
  | cons first rest =>
    refine ⟨first, rfl, ?_⟩
    rintro rfl
    cases hw

/-- Every layout that is accepted is the picture of a chart. -/
theorem exists_chart_of_ofRows {rows : List String} (hw : ofRows rows = .ok w)
    (hheight : rows.length < 2 ^ 31) (hwidth : ∀ row ∈ rows, row.length < 2 ^ 31) :
    ∃ e chart, e.Signed ∧ 0 < e.width.toNat ∧ 0 < e.height.toNat ∧ rows = pictureOf e chart := by
  obtain ⟨first, hfirst, hne⟩ := exists_head_of_ofRows hw
  have hmem : first ∈ rows := List.mem_of_mem_head? hfirst
  obtain ⟨e, he, hcolumns, hlines, heq⟩ := ofRows_of_head hfirst hne hheight (hwidth first hmem)
  rw [heq] at hw
  obtain ⟨gss, hgss, hlength⟩ := exists_glyphs_of_drawRows hw
  obtain ⟨chart, hchart⟩ := exists_chart hlength
  have hcount : gss.length = e.height.toNat := by
    rw [hlines, ← List.length_map (f := List.map Glyph.toChar), ← hgss, List.length_map]
  have hrows : rows = (gss.map (List.map Glyph.toChar)).map String.ofList := by
    rw [← hgss, List.map_map]
    simp
  refine ⟨e, chart, he, ?_, ?_, ?_⟩
  · rw [hcolumns, ← String.length_toList]
    exact List.length_pos_of_ne_nil fun hnil ↦ hne (String.toList_eq_nil_iff.mp hnil)
  · rw [hlines]
    exact List.length_pos_of_mem hmem
  · rw [hchart, hcount, List.map_map, List.map_map] at hrows
    refine hrows.trans (List.map_congr_left fun y _ ↦ ?_)
    simp only [Function.comp_apply, List.map_map]
    rfl

/-- Without actors and items a cell looks like its ground. -/
theorem glyphAt_of_bare (hactors : w.actors = ∅) (hpile : w.itemsAt p = []) :
    w.glyphAt p = w.groundGlyph p := by
  have hnobody : (w.occupantAt? p).bind w.actor? = none := by
    cases w.occupantAt? p with
    | none => rfl
    | some id =>
      show w.actors[id]? = none
      rw [hactors, Std.ExtTreeMap.getElem?_empty]
  rw [glyphAt, hnobody, hpile]
  rfl

theorem picture_eq_pictureOf (he : w.extent.Signed) (hshown : ∀ x y, x < w.extent.width.toNat →
      y < w.extent.height.toNat → w.glyphAt (cell x y) = (chart x y).toChar) :
    w.picture = pictureOf w.extent chart := by
  rw [picture, pictureOf, he.rows_eq, List.map_map]
  refine List.map_congr_left fun y hy ↦ ?_
  rw [Function.comp_apply, List.map_map]
  refine congrArg String.ofList (List.map_congr_left fun x hx ↦ ?_)
  exact hshown x y (List.mem_range.mp hx) (List.mem_range.mp hy)

theorem Drawing.picture_eq (h : Drawing e chart 0 e.height.toNat w) (he : e.Signed) :
    w.picture = pictureOf e chart := by
  obtain rfl := h.extent_eq
  refine picture_eq_pictureOf he fun x y hx hy ↦ ?_
  have hshows := h.shows x y hx hy
  rw [if_pos (Or.inl hy)] at hshows
  have hpile : w.itemsAt (cell x y) = [] := by
    rw [itemsAt, h.piles_eq, Std.ExtTreeMap.getElem?_empty]
    rfl
  rw [glyphAt_of_bare h.actors_eq hpile, hshows.groundGlyph_eq]

end World

end Delve

import Delve.Proofs.World.Chart
/-!
# Which layouts there are

A layout is accepted if there is something to draw, if no row differs from the first in width, and
if every character is one of the legend. Otherwise the fault is that of the first row that is not
sound, since no glyph of the legend is refused on a cell of the level. The main statement is
`ofRows_grammar`.
-/

namespace Delve

/-! ## 1. The first to fail -/

/-- `a` stands at place `i`, and nothing before it fails to have `P`, as it does. -/
structure FailsAt {α : Type} (P : α → Prop) (l : List α) (i : Nat) (a : α) : Prop where
  getElem?_eq : l[i]? = some a
  fails : ¬ P a
  earlier : ∀ j < i, ∀ b, l[j]? = some b → P b

namespace FailsAt

variable {α : Type} {P : α → Prop} {l : List α} {i j : Nat} {a b : α}

theorem zero (h : ¬ P a) (l : List α) : FailsAt P (a :: l) 0 a :=
  ⟨rfl, h, fun _ hj ↦ absurd hj (Nat.not_lt_zero _)⟩

theorem succ (h : FailsAt P l i b) (ha : P a) : FailsAt P (a :: l) (i + 1) b := by
  refine ⟨h.getElem?_eq, h.fails, fun j hj c hc ↦ ?_⟩
  cases j with
  | zero =>
    obtain rfl := Option.some.inj hc
    exact ha
  | succ j => exact h.earlier j (Nat.lt_of_succ_lt_succ hj) c hc

theorem mem (h : FailsAt P l i a) : a ∈ l := List.mem_of_getElem? h.getElem?_eq

/-- There is no more than one first failure. -/
theorem unique (ha : FailsAt P l i a) (hb : FailsAt P l j b) : i = j ∧ a = b := by
  rcases Nat.lt_trichotomy i j with hlt | rfl | hgt
  · exact absurd (hb.earlier i hlt a ha.getElem?_eq) ha.fails
  · exact ⟨rfl, Option.some.inj (ha.getElem?_eq.symm.trans hb.getElem?_eq)⟩
  · exact absurd (ha.earlier j hgt b hb.getElem?_eq) hb.fails

end FailsAt

/-! ## 2. Sound rows -/

/-- The characters that a level is drawn with. -/
def Glyph.legend : List Char := ['#', '.', '*', '0']

theorem Glyph.ofChar?_eq_none_iff {c : Char} : ofChar? c = none ↔ c ∉ legend := by
  unfold ofChar?
  split <;> simp_all [legend]

/-- The row has the given width and only characters of the legend. -/
structure IsSound (width : Nat) (row : String) : Prop where
  length_eq : row.length = width
  legible : ∀ c ∈ row.toList, c ∈ Glyph.legend

/-- What is wrong with row `y`, which is read from the left if it has the right width. -/
inductive RowFault (width y : Nat) (row : String) : LayoutFault → Prop
  | ragged : row.length ≠ width → RowFault width y row (.ragged y row.length width)
  | unknownGlyph {x : Nat} {c : Char} {p : Position} : row.length = width →
    FailsAt (· ∈ Glyph.legend) row.toList x c → p.x.toInt = x → p.y.toInt = y →
      RowFault width y row (.unknownGlyph c p)

/-- What is wrong with a layout: there is nothing to draw, or there is a first row that is not
sound. -/
inductive Misdrawn (rows : List String) : LayoutFault → Prop
  | empty : rows = [] ∨ rows.head? = some "" → Misdrawn rows .empty
  | row {first row : String} {y : Nat} {fault : LayoutFault} : rows.head? = some first →
    first ≠ "" → FailsAt (IsSound first.length) rows y row → RowFault first.length y row fault →
      Misdrawn rows fault

/-- There is something to draw, and all rows are sound. -/
structure WellDrawn (rows : List String) : Prop where
  ne_nil : rows ≠ []
  first_ne : rows.head? ≠ some ""
  sound : ∀ first ∈ rows.head?, ∀ row ∈ rows, IsSound first.length row

theorem RowFault.unique {width y : Nat} {row : String} {f f' : LayoutFault}
    (h : RowFault width y row f) (h' : RowFault width y row f') : f = f' := by
  cases h with
  | ragged hlength =>
    cases h' with
    | ragged => rfl
    | unknownGlyph hlength' => exact absurd hlength' hlength
  | unknownGlyph hlength hfails hx hy =>
    cases h' with
    | ragged hlength' => exact absurd hlength hlength'
    | unknownGlyph _ hfails' hx' hy' =>
      obtain ⟨rfl, rfl⟩ := hfails.unique hfails'
      rw [Position.eq_of_toInt_eq (hx.trans hx'.symm) (hy.trans hy'.symm)]

/-- No layout has two faults. -/
theorem Misdrawn.unique {rows : List String} {f f' : LayoutFault} (h : Misdrawn rows f)
    (h' : Misdrawn rows f') : f = f' := by
  -- a layout with nothing to draw has no first row that could be measured
  have hempty : ∀ {first : String}, rows.head? = some first → first ≠ "" →
      ¬ (rows = [] ∨ rows.head? = some "") := by
    rintro first hfirst hne (rfl | hblank)
    · cases hfirst
    · exact hne (Option.some.inj (hfirst.symm.trans hblank))
  cases h with
  | empty hnone =>
    cases h' with
    | empty => rfl
    | row hfirst hne => exact absurd hnone (hempty hfirst hne)
  | row hfirst hne hfails hfault =>
    cases h' with
    | empty hnone => exact absurd hnone (hempty hfirst hne)
    | row hfirst' _ hfails' hfault' =>
      obtain rfl := Option.some.inj (hfirst.symm.trans hfirst')
      obtain ⟨rfl, rfl⟩ := hfails.unique hfails'
      exact hfault.unique hfault'

theorem WellDrawn.not_misdrawn {rows : List String} (h : WellDrawn rows) (fault : LayoutFault) :
    ¬ Misdrawn rows fault := by
  rintro (⟨hnone | hblank⟩ | ⟨hfirst, -, hfails, -⟩)
  · exact h.ne_nil hnone
  · exact h.first_ne hblank
  · exact hfails.fails (h.sound _ hfirst _ hfails.mem)

/-! ## 3. Reading on -/

namespace World

variable {w : World} {p : Position} {x y : Nat}

/-- Every glyph can be drawn on every cell of the level. -/
theorem exists_draw_of_inBounds (h : w.inBounds p = true) (g : Glyph) :
    ∃ w', g.draw p w = .ok w' ∧ w'.extent = w.extent := by
  cases g with
  | floor => exact ⟨w, rfl, rfl⟩
  | wall =>
    obtain ⟨i, hi⟩ : ∃ i, w.extent.index? p = some i := ⟨_, if_pos h⟩
    exact ⟨_, setTerrain_of_index hi .wall, rfl⟩
  | rock => exact ⟨_, placeFeature_of_inBounds h .rock, rfl⟩
  | boulder => exact ⟨_, placeFeature_of_inBounds h .boulder, rfl⟩

/-- By induction on the rest of the row. -/
theorem drawRow_comesTo {cs : List Char} (he : w.extent.Signed) (hy : y < w.extent.height.toNat)
    (hx : x + cs.length ≤ w.extent.width.toNat) :
    (drawRow (.ofNat y) x cs w).ComesTo
      (fun w' ↦ w'.extent = w.extent ∧ ∀ c ∈ cs, c ∈ Glyph.legend)
      fun e ↦ ∃ i c, FailsAt (· ∈ Glyph.legend) cs i c ∧
        e = .malformedLayout (.unknownGlyph c (cell (x + i) y)) := by
  induction cs generalizing x w with
  | nil => exact ⟨rfl, List.forall_mem_nil _⟩
  | cons c cs ih =>
    rw [List.length_cons] at hx
    rw [drawRow]
    cases hc : Glyph.ofChar? c with
    | none => exact ⟨0, c, .zero (Glyph.ofChar?_eq_none_iff.mp hc) cs, rfl⟩
    | some g =>
      have hlegend : c ∈ Glyph.legend := by
        by_contra hnot
        rw [Glyph.ofChar?_eq_none_iff.mpr hnot] at hc
        cases hc
      obtain ⟨w', hdraw, hextent⟩ := exists_draw_of_inBounds
        (he.contains_cell (show x < w.extent.width.toNat by omega) hy) g
      show (g.draw (cell x y) w >>= drawRow (.ofNat y) (x + 1) cs).ComesTo _ _
      rw [hdraw]
      -- all that the rest of the row depends on is the extent, which is what it was
      rw [← hextent] at he hy hx ⊢
      refine (ih he hy (by omega)).mono (fun w'' h ↦ ?_) ?_
      · exact ⟨h.1, List.forall_mem_cons.mpr ⟨hlegend, h.2⟩⟩
      · rintro _ ⟨i, d, hfails, rfl⟩
        exact ⟨i + 1, d, hfails.succ hlegend, by rw [Nat.add_right_comm, Nat.add_assoc]⟩

/-- By induction on the rows that are left. -/
theorem drawRows_comesTo {rows : List String} (he : w.extent.Signed)
    (hy : y + rows.length ≤ w.extent.height.toNat) :
    (drawRows w.extent.width.toNat y (rows.map (·.toList)) w).ComesTo
      (fun _ ↦ ∀ row ∈ rows, IsSound w.extent.width.toNat row)
      fun e ↦ ∃ i row fault, FailsAt (IsSound w.extent.width.toNat) rows i row ∧
        RowFault w.extent.width.toNat (y + i) row fault ∧ e = .malformedLayout fault := by
  induction rows generalizing y w with
  | nil => exact List.forall_mem_nil _
  | cons row rows ih =>
    rw [List.length_cons] at hy
    rw [List.map_cons, drawRows, String.length_toList]
    split
    case isFalse hlength =>
      exact ⟨0, row, _, .zero (fun hsound ↦ hlength hsound.length_eq) rows, .ragged hlength, rfl⟩
    case isTrue hlength =>
      -- the row has the right width, so only a character can be at fault
      have hcolumns : 0 + row.toList.length ≤ w.extent.width.toNat := by
        rw [String.length_toList]
        omega
      have hrow := drawRow_comesTo he (show y < w.extent.height.toNat by omega) hcolumns
      cases hdrawn : drawRow (.ofNat y) 0 row.toList w with
      | error e =>
        rw [hdrawn] at hrow
        obtain ⟨x, c, hfails, rfl⟩ := hrow
        have hx : x < row.toList.length := (List.getElem?_eq_some_iff.mp hfails.getElem?_eq).1
        refine ⟨0, row, _, .zero (fun hsound ↦ hfails.fails (hsound.legible c hfails.mem)) rows,
          .unknownGlyph hlength hfails ?_ ?_, rfl⟩
        · have hwidth := he.width_lt
          rw [Nat.zero_add]
          exact Int32.toInt_ofNat_of_lt (by omega)
        · have hheight := he.height_lt
          exact Int32.toInt_ofNat_of_lt (by omega)
      | ok w' =>
        rw [hdrawn] at hrow
        obtain ⟨hextent, hlegible⟩ := hrow
        have hsound : IsSound w.extent.width.toNat row := ⟨hlength, hlegible⟩
        show (drawRows _ (y + 1) (rows.map (·.toList)) w').ComesTo _ _
        rw [← hextent] at he hy hsound ⊢
        refine (ih he (by omega)).mono (fun _ h ↦ List.forall_mem_cons.mpr ⟨hsound, h⟩) ?_
        rintro _ ⟨i, later, fault, hfails, hfault, rfl⟩
        rw [Nat.add_right_comm, Nat.add_assoc] at hfault
        exact ⟨i + 1, later, fault, hfails.succ hsound, hfault, rfl⟩

/-- A layout is drawn if it is well drawn, and refused for its fault otherwise. -/
theorem ofRows_comesTo {rows : List String} (hheight : rows.length < 2 ^ 31)
    (hwidth : ∀ first ∈ rows.head?, first.length < 2 ^ 31) :
    (ofRows rows).ComesTo (fun _ ↦ WellDrawn rows)
      fun e ↦ ∃ fault, e = .malformedLayout fault ∧ Misdrawn rows fault := by
  -- that there is nothing to draw is found out before any row is read
  by_cases hnone : rows = [] ∨ rows.head? = some ""
  · have hempty : ofRows rows = .error (.malformedLayout .empty) := by
      rcases hnone with rfl | hblank
      · rfl
      · obtain ⟨rest, rfl⟩ := List.head?_eq_some_iff.mp hblank
        rfl
    rw [hempty]
    exact ⟨.empty, rfl, .empty hnone⟩
  · obtain ⟨hnil, hblank⟩ := not_or.mp hnone
    obtain ⟨first, hfirst⟩ : ∃ first, rows.head? = some first :=
      Option.ne_none_iff_exists'.mp fun hhead ↦ hnil (List.head?_eq_none_iff.mp hhead)
    have hne : first ≠ "" := fun heq ↦ hblank (heq ▸ hfirst)
    obtain ⟨e, he, hcolumns, hrows, heq⟩ := ofRows_of_head hfirst hne hheight (hwidth first hfirst)
    have hlength : 0 + rows.length ≤ (ofExtent e).extent.height.toNat := by
      show 0 + rows.length ≤ e.height.toNat
      omega
    rw [heq]
    refine (drawRows_comesTo he hlength).mono
      (fun _ hsound ↦ ⟨hnil, hblank, fun first' hfirst' ↦ ?_⟩) ?_
    · obtain rfl := Option.some.inj (hfirst.symm.trans hfirst')
      rw [← hcolumns]
      exact hsound
    · rintro _ ⟨y, row, fault, hfails, hfault, rfl⟩
      change FailsAt (IsSound e.width.toNat) rows y row at hfails
      change RowFault e.width.toNat (0 + y) row fault at hfault
      rw [hcolumns] at hfails hfault
      rw [Nat.zero_add] at hfault
      exact ⟨fault, rfl, .row hfirst hne hfails hfault⟩

/-! ## 4. What is drawn -/

/-- The character in the column and the row of the cell. -/
def charAt? (rows : List String) (p : Position) : Option Char :=
  rows[p.y.toInt.toNat]?.bind fun row ↦ row.toList[p.x.toInt.toNat]?

/-- The world is what the layout shows, and nobody and nothing else is in it. -/
structure IsDrawnFrom (w : World) (rows : List String) : Prop where
  height_eq : w.extent.height.toNat = rows.length
  width_eq : ∀ row ∈ rows, w.extent.width.toNat = row.length
  inBounds_iff : ∀ p, w.inBounds p = true ↔
    (0 ≤ p.x.toInt ∧ p.x.toInt < w.extent.width.toNat) ∧
      0 ≤ p.y.toInt ∧ p.y.toInt < w.extent.height.toNat
  cells : ∀ p, w.inBounds p = true → ∃ c, charAt? rows p = some c ∧
    w.terrainAt? p = some (if c = '#' then .wall else .floor) ∧
    w.featureAt? p = if c = '*' then some .rock else if c = '0' then some .boulder else none
  actors_eq : w.actors = ∅
  occupants_eq : w.occupants = ∅
  piles_eq : w.piles = ∅
  playerId_eq : w.playerId = none

theorem Drawing.isDrawnFrom {e : Extent} {chart : Nat → Nat → Glyph}
    (h : Drawing e chart 0 e.height.toNat w) (he : e.Signed) :
    w.IsDrawnFrom (pictureOf e chart) := by
  obtain rfl := h.extent_eq
  refine ⟨?_, ?_, fun p ↦ ?_, fun p hp ↦ ?_, h.actors_eq, ?_, h.piles_eq, ?_⟩
  · rw [pictureOf, List.length_map, List.length_range]
  · intro row hrow
    obtain ⟨y, -, rfl⟩ := List.mem_map.mp hrow
    rw [String.length_ofList, List.length_map, List.length_range]
  · rw [inBounds, Extent.contains_iff, toInt_toInt32 he.width_lt, toInt_toInt32 he.height_lt]
  · obtain ⟨x, y, hx, hy, rfl⟩ := he.exists_cell hp
    have hshows := h.shows x y hx hy
    rw [if_pos (Or.inl hy)] at hshows
    refine ⟨(chart x y).toChar, ?_, ?_, ?_⟩
    · have hwidth := he.width_lt
      have hheight := he.height_lt
      rw [charAt?, cell, Int32.toInt_ofNat_of_lt (by omega), Int32.toInt_ofNat_of_lt (by omega)]
      simp [pictureOf, hx, hy]
    · rw [hshows.terrain]
      cases chart x y <;> rfl
    · rw [hshows.feature]
      cases chart x y <;> rfl
  · refine Std.ExtTreeMap.ext_getElem? fun p ↦ ?_
    rw [Std.ExtTreeMap.getElem?_empty, Option.eq_none_iff_forall_ne_some]
    intro id hid
    obtain ⟨a, ha, -⟩ := (h.consistent.occupants_iff p id).mp hid
    rw [h.actors_eq, Std.ExtTreeMap.getElem?_empty] at ha
    cases ha
  · rw [h.consistent.playerId_eq, h.actors_eq, if_neg Std.ExtTreeMap.not_mem_empty]

/-- Layouts of any characters are accepted exactly if they are well drawn, and the world is what is
drawn then. They are refused exactly for the fault that they have, of which there is one at most. -/
theorem ofRows_grammar {rows : List String} (hheight : rows.length < 2 ^ 31)
    (hwidth : ∀ first ∈ rows.head?, first.length < 2 ^ 31) :
    ((∃ w, ofRows rows = .ok w) ↔ WellDrawn rows) ∧
    (∀ w, ofRows rows = .ok w → w.IsDrawnFrom rows) ∧
    ∀ e, ofRows rows = .error e ↔ ∃ fault, e = .malformedLayout fault ∧ Misdrawn rows fault := by
  have hread := ofRows_comesTo hheight hwidth
  have hdrawn : ∀ w, ofRows rows = .ok w → w.IsDrawnFrom rows := by
    intro w hw
    have hwide : ∀ row ∈ rows, row.length < 2 ^ 31 := by
      intro row hrow
      obtain ⟨first, hfirst, -⟩ := exists_head_of_ofRows hw
      rw [((hread.of_eq_ok hw).sound first hfirst row hrow).length_eq]
      exact hwidth first hfirst
    obtain ⟨e, chart, he, hcolumns, hlines, rfl⟩ := exists_chart_of_ofRows hw hheight hwide
    obtain ⟨w', hw', hdrawing⟩ := exists_ofRows_pictureOf he hcolumns hlines chart
    obtain rfl := Except.ok.inj (hw'.symm.trans hw)
    exact hdrawing.isDrawnFrom he
  cases hrows : ofRows rows with
  | ok w =>
    have hwell : WellDrawn rows := hread.of_eq_ok hrows
    refine ⟨⟨fun _ ↦ hwell, fun _ ↦ ⟨w, rfl⟩⟩, fun w' hw' ↦ hdrawn w' (hrows.trans hw'), fun e ↦ ?_⟩
    exact ⟨nofun, fun ⟨fault, _, hfault⟩ ↦ absurd hfault (hwell.not_misdrawn fault)⟩
  | error e =>
    rw [hrows] at hread
    obtain ⟨fault, rfl, hfault⟩ := hread
    refine ⟨⟨nofun, fun hwell ↦ absurd hfault (hwell.not_misdrawn fault)⟩, nofun, fun e ↦ ?_⟩
    constructor
    · intro he
      exact ⟨fault, (Except.error.inj he).symm, hfault⟩
    · rintro ⟨fault', rfl, hfault'⟩
      rw [hfault.unique hfault']

/-- A layout with every glyph, and one whose second row is at fault before its third. -/
theorem ofRows_grammar_legend :
    (∃ w, ofRows ["#.*", "0.."] = .ok w ∧ w.IsDrawnFrom ["#.*", "0.."]) ∧
      ofRows ["..", ".x", "..."] = .error (.malformedLayout (.unknownGlyph 'x' ⟨1, 1⟩)) := by
  constructor
  · obtain ⟨hwell, hdrawn, -⟩ := ofRows_grammar
      (show ["#.*", "0.."].length < 2 ^ 31 by decide) (by rintro _ ⟨⟩; decide)
    have hsound : ∀ row ∈ ["#.*", "0.."], IsSound 3 row := by
      intro row hrow
      rcases List.mem_pair.mp hrow with rfl | rfl <;> exact ⟨by decide, by simp [Glyph.legend]⟩
    obtain ⟨w, hw⟩ := hwell.mpr ⟨by decide, by decide, by rintro _ ⟨⟩; exact hsound⟩
    exact ⟨w, hw, hdrawn w hw⟩
  · have hrefused := (ofRows_grammar
      (show ["..", ".x", "..."].length < 2 ^ 31 by decide) (by rintro _ ⟨⟩; decide)).2.2
    have hglyph : FailsAt (· ∈ Glyph.legend) ".x".toList 1 'x' :=
      .succ (.zero (by decide) []) (by decide)
    have hrow : FailsAt (IsSound 2) ["..", ".x", "..."] 1 ".x" :=
      .succ (.zero (fun h ↦ hglyph.fails (h.legible _ hglyph.mem)) _)
        ⟨by decide, by simp [Glyph.legend]⟩
    exact (hrefused _).mpr
      ⟨_, rfl, .row rfl (by decide) hrow (.unknownGlyph (by decide) hglyph (by decide) (by decide))⟩

end World

end Delve

import Delve.Proofs.World.Invariant
/-!
# What no deed breaks

An actor changes on its cell, steps onto a free cell, and digs and picks up what lies about. A
property of worlds that outlasts these is a durable one. That the tables of a world agree is
durable. So is a weaker property that also outlasts the arrival of any number of actors, even after
the handles have run out and are given again: every actor is housed, on a cell that the table of
occupied cells holds for it.
-/

namespace Delve.World

variable {w : World} {id : ActorId} {a b : Actor}

/-! ## 1. Durable properties -/

structure Durable (P : World → Prop) : Prop where
  ground : ∀ {w : World} (features : CellMap Feature) (piles : CellMap (List Item)),
    P w → P { w with features, piles }
  modify : ∀ {w : World} {id : ActorId} {a b : Actor}, P w → w.actors[id]? = some a →
    b.position = a.position → P { w with actors := w.actors.insert id b }
  relocate : ∀ {w : World} {id : ActorId} {a : Actor} {goal : Position}, P w →
    w.actors[id]? = some a → w.canEnter goal = true → P (w.relocate id a goal)

theorem Durable.modifyActor {P : World → Prop} (hP : Durable P) (hw : P w)
    {change : Actor → Actor}
    (hposition : ∀ a, w.actors[id]? = some a → (change a).position = a.position) :
    P (w.modifyActor id change) := by
  cases ha : w.actors[id]? with
  | none => rwa [modifyActor_of_none ha]
  | some a =>
    rw [modifyActor_of_some ha]
    exact hP.modify hw ha (hposition a ha)

theorem seated_durable : Durable Seated where
  ground _ _ h := ⟨h.occupants_iff, h.inBounds⟩
  modify h := h.modify
  relocate h ha hgoal := h.relocate ha hgoal

theorem inside_durable : Durable Inside where
  ground _ _ h := h
  modify {w id a b} h ha hposition i c hc := by
    show w.inBounds c.position = true
    rcases getElem?_insert_eq_some hc with ⟨-, rfl⟩ | hc
    · rw [hposition]
      exact h id a ha
    · exact h i c hc
  relocate {w id a goal} h ha hgoal i c hc := by
    have hc : (w.actors.insert id { a with position := goal })[i]? = some c := hc
    show w.inBounds c.position = true
    rcases getElem?_insert_eq_some hc with ⟨-, rfl⟩ | hc
    · exact inBounds_of_canEnter hgoal
    · exact h i c hc

theorem Inside.vacate (h : w.Inside) : (w.vacate id a).Inside := fun i b hb ↦ by
  have hb : (w.actors.erase id)[i]? = some b := hb
  exact h i b (getElem?_of_erase hb)

/-! ## 2. Housed actors -/

/-- Every actor stands on a cell of the world that is marked as its own. Other cells may be marked
by mistake. -/
structure Housed (w : World) : Prop where
  occupants_eq : ∀ (id : ActorId) (a : Actor), w.actors[id]? = some a →
    w.occupants[a.position]? = some id
  inside : w.Inside

theorem Seated.housed (h : w.Seated) : w.Housed := ⟨fun _ _ ↦ h.occupants_eq, h.inBounds⟩

/-- Nobody else stands on the cell of an actor. -/
theorem Housed.position_ne (h : w.Housed) {i : ActorId} (ha : w.actors[id]? = some a)
    (hb : w.actors[i]? = some b) (hi : id ≠ i) : a.position ≠ b.position := by
  intro hcell
  have hown := h.occupants_eq id a ha
  rw [hcell, h.occupants_eq i b hb] at hown
  exact hi (Option.some.inj hown).symm

/-- Nobody stands on a free cell. -/
theorem Housed.position_ne_of_canEnter (h : w.Housed) {goal : Position}
    (hgoal : w.canEnter goal = true) (ha : w.actors[id]? = some a) : goal ≠ a.position := by
  rintro rfl
  have hfree := (canEnter_iff.mp hgoal).2
  rw [h.occupants_eq id a ha] at hfree
  cases hfree

/-- An actor may come in under any handle, also one that is in use already. -/
theorem Housed.settle (h : w.Housed) (id : ActorId) (hcell : w.canEnter a.position = true) :
    (w.settle id a).Housed where
  occupants_eq i b hb := by
    have hb : (w.actors.insert id { a with id })[i]? = some b := hb
    show (w.occupants.insert a.position id)[b.position]? = some i
    rcases getElem?_insert_eq_some hb with ⟨rfl, rfl⟩ | hb
    · rw [getElem?_insert_eq_ite, if_pos rfl]
    · -- the cell is free, so whoever is there already stands elsewhere
      rw [getElem?_insert_of_ne _ (h.position_ne_of_canEnter hcell hb)]
      exact h.occupants_eq i b hb
  inside i b hb := by
    have hb : (w.actors.insert id { a with id })[i]? = some b := hb
    show w.inBounds b.position = true
    rcases getElem?_insert_eq_some hb with ⟨-, rfl⟩ | hb
    · exact inBounds_of_canEnter hcell
    · exact h.inside i b hb

/-- The cell of an actor that goes is freed, for it is marked as the actor's own. -/
theorem Housed.occupants_vacate (h : w.Housed) (ha : w.actors[id]? = some a) :
    (w.vacate id a).occupants = w.occupants.erase a.position := by
  have hcell : w.occupantAt? a.position = some id := h.occupants_eq id a ha
  show (if w.occupantAt? a.position = some id then w.occupants.erase a.position
    else w.occupants) = _
  rw [if_pos hcell]

theorem Housed.vacate (h : w.Housed) (ha : w.actors[id]? = some a) : (w.vacate id a).Housed where
  occupants_eq i b hb := by
    have hb : (w.actors.erase id)[i]? = some b := hb
    have hother : id ≠ i := by
      rintro rfl
      rw [getElem?_erase_eq_ite, if_pos rfl] at hb
      cases hb
    have hb := getElem?_of_erase hb
    rw [h.occupants_vacate ha, getElem?_erase_of_ne _ (h.position_ne ha hb hother)]
    exact h.occupants_eq i b hb
  inside := h.inside.vacate

theorem housed_durable : Durable Housed where
  ground _ _ h := ⟨h.occupants_eq, h.inside⟩
  modify {w id a b} h ha hposition := by
    -- whoever is there afterwards stands where it stood before
    have hold : ∀ (i : ActorId) (c : Actor), (w.actors.insert id b)[i]? = some c →
        ∃ d, w.actors[i]? = some d ∧ d.position = c.position := by
      intro i c hc
      rcases getElem?_insert_eq_some hc with ⟨rfl, rfl⟩ | hc
      · exact ⟨a, ha, hposition.symm⟩
      · exact ⟨c, hc, rfl⟩
    refine ⟨fun i c hc ↦ ?_, inside_durable.modify h.inside ha hposition⟩
    obtain ⟨d, hd, hcell⟩ := hold i c hc
    rw [← hcell]
    exact h.occupants_eq i d hd
  relocate {w id a goal} h ha hgoal := by
    refine ⟨fun i c hc ↦ ?_, inside_durable.relocate h.inside ha hgoal⟩
    have hc : (w.actors.insert id { a with position := goal })[i]? = some c := hc
    show ((w.occupants.erase a.position).insert goal id)[c.position]? = some i
    rw [getElem?_insert_eq_ite] at hc
    split at hc
    · rename_i hi
      cases hc
      rw [hi, getElem?_insert_eq_ite, if_pos rfl]
    · rename_i hi
      -- neither the cell that is left nor the goal is the cell of another
      rw [getElem?_insert_of_ne _ (h.position_ne_of_canEnter hgoal hc),
        getElem?_erase_of_ne _ (h.position_ne ha hc hi)]
      exact h.occupants_eq i c hc

end Delve.World

import Delve.Proofs.World.Chart
import Delve.Proofs.World.Frame
import Delve.Proofs.World.History
/-!
# How far a request reaches

A request to change a world goes through or is refused. A refused one changes nothing. One that
goes through changes the cells and the actor that it is about, in the tables that it is about, and
an actor that has come in can be taken out again as if it had never been there.
-/

namespace Delve

/-! ## 1. Refusals and reaches -/

/-- What of a world may change: the cells of each table, the actors, and whether the handle of the
player and the counter of handles may. -/
structure Reach where
  ground : List Position := []
  features : List Position := []
  occupants : List Position := []
  piles : List Position := []
  actors : List ActorId := []
  player : Bool := false
  counter : Bool := false

/-- Outside the reach, everything that can be seen of the world is as it was. -/
structure World.Within (r : Reach) (w w' : World) : Prop where
  extent_eq : w'.extent = w.extent
  terrain_eq : ∀ p ∉ r.ground, w'.terrainAt? p = w.terrainAt? p
  feature_eq : ∀ p ∉ r.features, w'.featureAt? p = w.featureAt? p
  occupant_eq : ∀ p ∉ r.occupants, w'.occupantAt? p = w.occupantAt? p
  pile_eq : ∀ p ∉ r.piles, w'.itemsAt p = w.itemsAt p
  actor_eq : ∀ i ∉ r.actors, w'.actor? i = w.actor? i
  playerId_eq : r.player = false → w'.playerId = w.playerId
  nextId_eq : r.counter = false → w'.nextId = w.nextId

namespace Change

/-- The operation that is asked for answers with a cause against it. The other requests are never
refused for a cause. -/
def RefusedFor (w : World) (e : WorldError) : Change → Prop
  | setTerrain p t => w.setTerrain p t = .error e
  | placeFeature p f => w.placeFeature p f = .error e
  | mine p => w.mine p = .error e
  | spawnActor a => w.spawnActor a = .error e
  | spawnPlayer a => w.spawnPlayer a = .error e
  | moveActor id goal => w.moveActor id goal = .error e
  | dropItem p item => w.dropItem p item = .error e
  | removeFeature _ | removeActor _ | takeItem _ _ | edit _ _ => False

/-- What a request may change. An actor that leaves a cell changes that cell, too. -/
def reach (w : World) : Change → Reach
  | setTerrain p _ => { ground := [p] }
  | placeFeature p _ | removeFeature p | mine p => { features := [p] }
  | spawnActor a => { occupants := [a.position], actors := [⟨w.nextId⟩], counter := true }
  | spawnPlayer a => { occupants := [a.position], actors := [.player], player := true }
  | removeActor id =>
    { occupants := ((w.actor? id).map (·.position)).toList
      actors := [id]
      player := w.playerId = some id }
  | moveActor id goal =>
    { occupants := goal :: ((w.actor? id).map (·.position)).toList, actors := [id] }
  | dropItem p _ | takeItem p _ => { piles := [p] }
  | edit id _ => { actors := [id] }

variable {w w' : World} {c : Change} {e : WorldError}

theorem apply_of_refusedFor (h : c.RefusedFor w e) : c.apply w = w := by
  have hnone : c.attempt w = none := by
    cases c with
    | removeFeature | removeActor | takeItem | edit => exact h.elim
    | _ =>
      simp only [RefusedFor] at h
      rw [attempt, h]
      rfl
  rw [apply, hnone, Option.getD_none]

end Change

/-! ## 2. What goes through stays within its reach -/

namespace World

variable {w w' : World} {p q : Position} {id : ActorId} {a : Actor}

/-- No two cells have their ground in one place. -/
theorem terrainAt?_setIfInBounds_of_ne {i : Nat} (hi : w.extent.index? p = some i) (hq : q ≠ p)
    (t : Terrain) :
    ({ w with terrain := w.terrain.setIfInBounds i t } : World).terrainAt? q =
      w.terrainAt? q := by
  show (w.extent.index? q).bind ((w.terrain.setIfInBounds i t)[·]?) =
    (w.extent.index? q).bind (w.terrain[·]?)
  cases hj : w.extent.index? q with
  | none => rfl
  | some j =>
    have hij : i ≠ j := by
      rintro rfl
      exact hq ((Extent.signed_of_index? hi).index?_inj hj hi)
    exact Array.getElem?_setIfInBounds_ne hij

theorem within_terrain {i : Nat} (hi : w.extent.index? p = some i) (t : Terrain) :
    w.Within { ground := [p] } { w with terrain := w.terrain.setIfInBounds i t } :=
  ⟨rfl, fun _ hq ↦ terrainAt?_setIfInBounds_of_ne hi (List.ne_of_not_mem_cons hq) t,
    fun _ _ ↦ rfl, fun _ _ ↦ rfl, fun _ _ ↦ rfl, fun _ _ ↦ rfl, fun _ ↦ rfl, fun _ ↦ rfl⟩

theorem within_features {features : CellMap Feature}
    (h : ∀ q, p ≠ q → features[q]? = w.features[q]?) :
    w.Within { features := [p] } { w with features } :=
  ⟨rfl, fun _ _ ↦ rfl, fun q hq ↦ h q (List.ne_of_not_mem_cons hq).symm,
    fun _ _ ↦ rfl, fun _ _ ↦ rfl, fun _ _ ↦ rfl, fun _ ↦ rfl, fun _ ↦ rfl⟩

theorem within_withPile (w : World) (p : Position) (pile : List Item) :
    w.Within { piles := [p] } (w.withPile p pile) := by
  refine ⟨rfl, fun _ _ ↦ rfl, fun _ _ ↦ rfl, fun _ _ ↦ rfl, fun q hq ↦ ?_, fun _ _ ↦ rfl,
    fun _ ↦ rfl, fun _ ↦ rfl⟩
  have hpq : p ≠ q := (List.ne_of_not_mem_cons hq).symm
  have hpile : (if pile.isEmpty then w.piles.erase p else w.piles.insert p pile)[q]? =
      w.piles[q]? := by
    split
    · exact getElem?_erase_of_ne _ hpq
    · exact getElem?_insert_of_ne _ hpq pile
  show ((if pile.isEmpty then w.piles.erase p else w.piles.insert p pile)[q]?).getD [] = _
  rw [hpile, itemsAt]

/-- Where actors stand and who they are is kept apart from the ground and what lies on it. -/
theorem within_of_actors {r : Reach} {occupants : CellMap ActorId} {actors : ActorMap Actor}
    {playerId : Option ActorId} {nextId : UInt32}
    (hoccupants : ∀ q ∉ r.occupants, occupants[q]? = w.occupants[q]?)
    (hactors : ∀ i ∉ r.actors, actors[i]? = w.actors[i]?)
    (hplayer : r.player = false → playerId = w.playerId)
    (hnext : r.counter = false → nextId = w.nextId) :
    w.Within r { w with occupants, actors, playerId, nextId } :=
  ⟨rfl, fun _ _ ↦ rfl, fun _ _ ↦ rfl, hoccupants, fun _ _ ↦ rfl, hactors, hplayer, hnext⟩

/-- A newcomer takes its cell and its handle. -/
theorem settle_eq_of_ne (w : World) (id : ActorId) (a : Actor) :
    (∀ q ∉ [a.position], (w.settle id a).occupants[q]? = w.occupants[q]?) ∧
      ∀ i ∉ [id], (w.settle id a).actors[i]? = w.actors[i]? :=
  ⟨fun _ hq ↦ getElem?_insert_of_ne _ (List.ne_of_not_mem_cons hq).symm id,
    fun _ hi ↦ getElem?_insert_of_ne _ (List.ne_of_not_mem_cons hi).symm _⟩

theorem within_vacate (ha : w.actors[id]? = some a) :
    w.Within ((Change.removeActor id).reach w) (w.vacate id a) := by
  have ha : w.actor? id = some a := ha
  refine within_of_actors (fun q hq ↦ ?_) (fun i hi ↦ ?_) (fun hplayer ↦ ?_) fun _ ↦ rfl
  · rw [Change.reach, ha] at hq
    have hne : a.position ≠ q := (List.ne_of_not_mem_cons hq).symm
    split
    · exact getElem?_erase_of_ne _ hne
    · rfl
  · exact getElem?_erase_of_ne _ (List.ne_of_not_mem_cons hi).symm
  · exact if_neg (of_decide_eq_false hplayer)

theorem within_relocate (ha : w.actors[id]? = some a) (goal : Position) :
    w.Within ((Change.moveActor id goal).reach w) (w.relocate id a goal) := by
  have ha : w.actor? id = some a := ha
  refine within_of_actors (fun q hq ↦ ?_) (fun i hi ↦ ?_) (fun _ ↦ rfl) fun _ ↦ rfl
  · rw [Change.reach, ha] at hq
    have hleft := List.ne_of_not_mem_cons (List.not_mem_of_not_mem_cons hq)
    rw [getElem?_insert_of_ne _ (List.ne_of_not_mem_cons hq).symm,
      getElem?_erase_of_ne _ hleft.symm]
  · exact getElem?_insert_of_ne _ (List.ne_of_not_mem_cons hi).symm _

theorem within_modifyActor (w : World) (id : ActorId) (change : Actor → Actor) :
    w.Within { actors := [id] } (w.modifyActor id change) := by
  cases ha : w.actors[id]? with
  | none =>
    rw [modifyActor_of_none ha]
    exact within_of_actors (fun _ _ ↦ rfl) (fun _ _ ↦ rfl) (fun _ ↦ rfl) fun _ ↦ rfl
  | some a =>
    rw [modifyActor_of_some ha]
    exact within_of_actors (fun _ _ ↦ rfl)
      (fun i hi ↦ getElem?_insert_of_ne _ (List.ne_of_not_mem_cons hi).symm _) (fun _ ↦ rfl)
      fun _ ↦ rfl

end World

theorem Change.within_attempt {w w' : World} {c : Change} (hc : c.attempt w = some w') :
    w.Within (c.reach w) w' := by
  cases c with
  | setTerrain p t =>
    obtain ⟨i, hi, rfl⟩ := World.setTerrain_eq_ok (toOption_eq_some hc)
    exact World.within_terrain hi t
  | placeFeature p f =>
    obtain ⟨-, rfl⟩ := World.placeFeature_eq_ok (toOption_eq_some hc)
    exact World.within_features fun q hq ↦ getElem?_insert_of_ne _ hq f
  | removeFeature p =>
    cases hc
    exact World.within_features fun q hq ↦ getElem?_erase_of_ne _ hq
  | mine p =>
    obtain ⟨-, rfl⟩ := World.mine_eq_ok (toOption_eq_some hc)
    exact World.within_features fun q hq ↦ getElem?_insert_of_ne _ hq _
  | spawnActor a =>
    obtain ⟨⟨id, v⟩, hv, rfl⟩ := Option.map_eq_some_iff.mp hc
    obtain ⟨-, -, rfl⟩ := World.spawnActor_eq_ok (toOption_eq_some hv)
    obtain ⟨hcells, hactors⟩ := w.settle_eq_of_ne ⟨w.nextId⟩ a
    exact World.within_of_actors hcells hactors (fun _ ↦ rfl) nofun
  | spawnPlayer a =>
    obtain ⟨⟨id, v⟩, hv, rfl⟩ := Option.map_eq_some_iff.mp hc
    obtain ⟨-, -, -, rfl⟩ := World.spawnPlayer_eq_ok (toOption_eq_some hv)
    obtain ⟨hcells, hactors⟩ := w.settle_eq_of_ne .player a
    exact World.within_of_actors hcells hactors nofun fun _ ↦ rfl
  | removeActor id =>
    obtain ⟨⟨a, v⟩, hv, rfl⟩ := Option.map_eq_some_iff.mp hc
    obtain ⟨ha, rfl⟩ := World.removeActor_eq_some hv
    exact World.within_vacate ha
  | moveActor id goal =>
    obtain ⟨a, ha, -, -, rfl⟩ := World.moveActor_eq_ok (toOption_eq_some hc)
    exact World.within_relocate ha goal
  | dropItem p item =>
    obtain ⟨-, rfl⟩ := World.withPile_of_dropItem (toOption_eq_some hc)
    exact w.within_withPile p _
  | takeItem p place =>
    obtain ⟨⟨item, v⟩, hv, rfl⟩ := Option.map_eq_some_iff.mp hc
    obtain ⟨-, rfl⟩ := World.takeItem_eq_some hv
    exact w.within_withPile p _
  | edit id e =>
    cases hc
    exact w.within_modifyActor id e.change

/-! ## 3. What goes through, and what can be taken back -/

namespace World

variable {w w' : World} {p : Position} {id : ActorId} {a : Actor}

/-- In bounds, no obstacle and without an occupant: the bounds are asked for by the obstacles. -/
theorem canEnter_iff_free : w.canEnter p = true ↔
    w.inBounds p = true ∧ w.isObstacle p = false ∧ w.occupantAt? p = none := by
  constructor
  · intro h
    exact ⟨inBounds_of_canEnter h, canEnter_iff.mp h⟩
  · rintro ⟨-, hground, hnobody⟩
    exact canEnter_iff.mpr ⟨hground, hnobody⟩

theorem spawnError?_of_canEnter (h : w.canEnter p = true) : w.spawnError? p = none := by
  obtain ⟨hinside, hground, hnobody⟩ := canEnter_iff_free.mp h
  rw [spawnError?, if_neg (by simp [hinside]), if_neg (by simp [hground]),
    if_neg (by simp [hnobody])]

theorem exists_spawnActor_iff :
    (∃ r, w.spawnActor a = .ok r) ↔ w.canEnter a.position = true := by
  constructor
  · rintro ⟨⟨id, w'⟩, h⟩
    exact (spawnActor_eq_ok h).1
  · intro h
    rw [spawnActor, spawnError?_of_canEnter h]
    exact ⟨_, rfl⟩

theorem exists_spawnPlayer_iff :
    (∃ r, w.spawnPlayer a = .ok r) ↔
      w.canEnter a.position = true ∧ w.actor? .player = none := by
  constructor
  · rintro ⟨⟨id, w'⟩, h⟩
    obtain ⟨hcell, -, hnew, -⟩ := spawnPlayer_eq_ok h
    exact ⟨hcell, hnew⟩
  · rintro ⟨hcell, hnew⟩
    rw [spawnPlayer, if_neg (by simp [hnew]), spawnError?_of_canEnter hcell]
    exact ⟨_, rfl⟩

theorem exists_moveActor_iff {goal : Position} :
    (∃ w', w.moveActor id goal = .ok w') ↔ ∃ a, w.actor? id = some a ∧
      a.position.isNeighbor goal = true ∧ w.canEnter goal = true := by
  constructor
  · rintro ⟨w', h⟩
    obtain ⟨a, ha, hnear, hfree, -⟩ := moveActor_eq_ok h
    exact ⟨a, ha, hnear, hfree⟩
  · rintro ⟨a, ha, hnear, hfree⟩
    exact ⟨_, moveActor_of_canEnter ha hnear hfree⟩

/-- A newcomer that leaves again takes along what has come with it. -/
theorem removeActor_settle (playerId : Option ActorId) (nextId : UInt32)
    (hfree : w.occupants[a.position]? = none) (hnew : w.actors[id]? = none) :
    ({ w.settle id a with playerId, nextId } : World).removeActor? id =
      some ({ a with id },
        { w with playerId := if playerId = some id then none else playerId, nextId }) := by
  have hactor : (w.settle id a).actors[id]? = some { a with id } := by
    rw [settle, getElem?_insert_eq_ite, if_pos rfl]
  have hcell : (w.settle id a).occupantAt? a.position = some id := by
    rw [occupantAt?, settle, getElem?_insert_eq_ite, if_pos rfl]
  have hactors : (w.settle id a).actors.erase id = w.actors :=
    erase_insert_of_getElem?_eq_none hnew _
  have hoccupants : (if (w.settle id a).occupantAt? a.position = some id
      then (w.settle id a).occupants.erase a.position else (w.settle id a).occupants) =
        w.occupants := by
    rw [if_pos hcell]
    exact erase_insert_of_getElem?_eq_none hfree id
  refine (removeActor_of_some (w := { w.settle id a with playerId, nextId }) hactor).trans ?_
  -- of the two tables that the newcomer was in, both are as they were
  rw [vacate]
  congr 3

theorem Consistent.removeActor_of_spawnActor (h : w.Consistent)
    (hw : w.spawnActor a = .ok (id, w')) :
    w'.removeActor? id = some ({ a with id }, { w with nextId := w'.nextId }) := by
  obtain ⟨hcell, rfl, rfl⟩ := spawnActor_eq_ok hw
  have hplayer : w.playerId ≠ some ⟨w.nextId⟩ := by
    rw [h.playerId_eq]
    split
    · exact fun heq ↦ h.next_ne_player (Option.some.inj heq).symm
    · nofun
  have hleft := removeActor_settle w.playerId (w.nextId + 1) (canEnter_iff.mp hcell).2 h.fresh
  rw [if_neg hplayer] at hleft
  exact hleft

theorem Consistent.removeActor_of_spawnPlayer (h : w.Consistent)
    (hw : w.spawnPlayer a = .ok (id, w')) : w'.removeActor? id = some ({ a with id }, w) := by
  obtain ⟨hcell, rfl, hnew, rfl⟩ := spawnPlayer_eq_ok hw
  have hplayer : w.playerId = none := by
    rw [h.playerId_eq, if_neg]
    rw [Std.ExtTreeMap.mem_iff_isSome_getElem?, hnew]
    nofun
  have hleft := removeActor_settle (some .player) w.nextId (canEnter_iff.mp hcell).2 hnew
  rw [if_pos rfl, ← hplayer] at hleft
  exact hleft

theorem moveActor_moves {goal : Position} (hw : w.moveActor id goal = .ok w') :
    ∃ a, w.actor? id = some a ∧ w'.actor? id = some { a with position := goal } ∧
      w'.occupantAt? goal = some id ∧ w'.occupantAt? a.position = none := by
  obtain ⟨a, ha, hnear, -, rfl⟩ := moveActor_eq_ok hw
  have hne : goal ≠ a.position := (Position.ne_of_isNeighbor hnear).symm
  refine ⟨a, ha, w.actor_relocate id a goal, ?_, ?_⟩
  · rw [occupantAt?, relocate, getElem?_insert_eq_ite, if_pos rfl]
  · rw [occupantAt?, relocate, getElem?_insert_of_ne _ hne, getElem?_erase_eq_ite, if_pos rfl]

/-- Requests commit wholly or not at all. What is refused leaves the world as it was, and what goes
through leaves as it was all that is outside its reach. An actor steps exactly onto the free cells
around its own, and takes the new cell for the old one. Actors come in exactly on free cells, the
player only while there is none, and whoever comes in and is taken out leaves nothing behind but
the used up handle. -/
theorem Consistent.requests_commit (h : w.Consistent) :
    (∀ (c : Change) e, c.RefusedFor w e → c.apply w = w) ∧
    (∀ (c : Change) w', c.attempt w = some w' → w.Within (c.reach w) w') ∧
    (∀ id goal, (∃ w', w.moveActor id goal = .ok w') ↔
      ∃ a, w.actor? id = some a ∧ w.inBounds goal = true ∧
        (a.position ≠ goal ∧ (a.position.x.toInt - goal.x.toInt).natAbs ≤ 1 ∧
          (a.position.y.toInt - goal.y.toInt).natAbs ≤ 1) ∧
        w.isObstacle goal = false ∧ w.occupantAt? goal = none) ∧
    (∀ id goal w', w.moveActor id goal = .ok w' →
      ∃ a, w.actor? id = some a ∧ w'.actor? id = some { a with position := goal } ∧
        w'.occupantAt? goal = some id ∧ w'.occupantAt? a.position = none) ∧
    (∀ a, (∃ r, w.spawnActor a = .ok r) ↔ w.inBounds a.position = true ∧
      w.isObstacle a.position = false ∧ w.occupantAt? a.position = none) ∧
    (∀ a, (∃ r, w.spawnPlayer a = .ok r) ↔ (w.inBounds a.position = true ∧
      w.isObstacle a.position = false ∧ w.occupantAt? a.position = none) ∧
        w.actor? .player = none) ∧
    (∀ a id w', w.spawnActor a = .ok (id, w') →
      w'.removeActor? id = some ({ a with id }, { w with nextId := w'.nextId })) ∧
    ∀ a id w', w.spawnPlayer a = .ok (id, w') →
      w'.removeActor? id = some ({ a with id }, w) := by
  refine ⟨fun _ _ ↦ Change.apply_of_refusedFor, fun _ _ ↦ Change.within_attempt,
    fun id goal ↦ ?_, fun _ _ _ ↦ moveActor_moves, fun a ↦ ?_, fun a ↦ ?_,
    fun _ _ _ ↦ h.removeActor_of_spawnActor, fun _ _ _ ↦ h.removeActor_of_spawnPlayer⟩
  · rw [exists_moveActor_iff]
    refine exists_congr fun a ↦ and_congr_right fun _ ↦ ?_
    rw [canEnter_iff_free, Position.isNeighbor_iff]
    exact and_left_comm
  · rw [exists_spawnActor_iff, canEnter_iff_free]
  · rw [exists_spawnPlayer_iff, canEnter_iff_free]

end World

/-- The yard with a hero and a rat side by side. -/
def crowdedYard : World :=
  yard.run [.spawnPlayer { name := "hero", position := ⟨0, 0⟩ },
    .spawnActor { name := "rat", position := ⟨1, 0⟩ }]

/-- The rat is kept out of the wall, and steps down without anything else changing. A second rat
comes and goes, and its handle is used up. -/
theorem crowdedYard_commits :
    crowdedYard.Consistent ∧
      crowdedYard.moveActor ⟨1⟩ ⟨2, 0⟩ = .error (.blocked ⟨2, 0⟩) ∧
      (Change.moveActor ⟨1⟩ ⟨2, 0⟩).apply crowdedYard = crowdedYard ∧
      (∃ w, crowdedYard.moveActor ⟨1⟩ ⟨1, 1⟩ = .ok w ∧ w.occupantAt? ⟨1, 1⟩ = some ⟨1⟩ ∧
        w.occupantAt? ⟨1, 0⟩ = none ∧ w.featureAt? ⟨0, 1⟩ = crowdedYard.featureAt? ⟨0, 1⟩) ∧
      ∃ w, crowdedYard.spawnActor { name := "rat", position := ⟨2, 1⟩ } = .ok (⟨2⟩, w) ∧
        w.removeActor? ⟨2⟩ = some ({ id := ⟨2⟩, name := "rat", position := ⟨2, 1⟩ },
          { crowdedYard with nextId := 3 }) := by
  have hnew : yard.IsNew := Or.inr ⟨["..#", "*.."], by decide +kernel⟩
  have hyard : crowdedYard.Consistent := by
    refine hnew.consistent.1.run _ ?_
    decide +kernel
  obtain ⟨hrefused, hreach, hsteps, hmoves, hspawns, -, hleaves, -⟩ := hyard.requests_commit
  have hwall : crowdedYard.moveActor ⟨1⟩ ⟨2, 0⟩ = .error (.blocked ⟨2, 0⟩) := by decide +kernel
  have hrat : crowdedYard.actor? ⟨1⟩ = some { id := ⟨1⟩, name := "rat", position := ⟨1, 0⟩ } := by
    decide +kernel
  refine ⟨hyard, hwall, hrefused (.moveActor ⟨1⟩ ⟨2, 0⟩) _ hwall, ?_, ?_⟩
  · obtain ⟨w, hw⟩ := (hsteps ⟨1⟩ ⟨1, 1⟩).mpr ⟨_, hrat, by decide +kernel⟩
    obtain ⟨a, ha, -, hgoal, hleft⟩ := hmoves ⟨1⟩ ⟨1, 1⟩ w hw
    obtain rfl := Option.some.inj (hrat.symm.trans ha)
    have hstep : (Change.moveActor ⟨1⟩ ⟨1, 1⟩).attempt crowdedYard = some w := by
      rw [Change.attempt, hw]
      rfl
    exact ⟨w, hw, hgoal, hleft, (hreach _ w hstep).feature_eq ⟨0, 1⟩ List.not_mem_nil⟩
  · obtain ⟨⟨id, w⟩, hw⟩ :=
      (hspawns { name := "rat", position := ⟨2, 1⟩ }).mpr (by decide +kernel)
    obtain ⟨-, rfl, rfl⟩ := World.spawnActor_eq_ok hw
    exact ⟨_, hw, hleaves _ _ _ hw⟩

end Delve

import Delve.World.Layout
import Delve.Proofs.Except
import Delve.Proofs.World.Invariant
/-!
# The history of a world

A world begins as open floor or as a drawn layout, and from then on it only changes through its
operations. Whatever they are and whatever they are asked, the invariant holds at every point of
the history, as long as the handles last.
-/

namespace Delve

/-! ## 1. Histories -/

/-- An edit of an actor: it leaves alone who the actor is and where it stands. -/
structure ActorEdit where
  change : Actor → Actor
  id_eq : ∀ a : Actor, (change a).id = a.id
  position_eq : ∀ a : Actor, (change a).position = a.position

/-- A request to change a world. -/
inductive Change where
  | setTerrain (p : Position) (t : Terrain)
  | placeFeature (p : Position) (f : Feature)
  | removeFeature (p : Position)
  | mine (p : Position)
  | spawnActor (a : Actor)
  | spawnPlayer (a : Actor)
  | removeActor (id : ActorId)
  | moveActor (id : ActorId) (goal : Position)
  | dropItem (p : Position) (item : Item)
  | takeItem (p : Position) (place : Nat)
  | edit (id : ActorId) (e : ActorEdit)

namespace Change

/-- The world that a request leads to, if it goes through. -/
def attempt (w : World) : Change → Option World
  | setTerrain p t => (w.setTerrain p t).toOption
  | placeFeature p f => (w.placeFeature p f).toOption
  | removeFeature p => some (w.removeFeature p)
  | mine p => (w.mine p).toOption
  | spawnActor a => (w.spawnActor a).toOption.map (·.2)
  | spawnPlayer a => (w.spawnPlayer a).toOption.map (·.2)
  | removeActor id => (w.removeActor? id).map (·.2)
  | moveActor id goal => (w.moveActor id goal).toOption
  | dropItem p item => (w.dropItem p item).toOption
  | takeItem p place => (w.takeItem? p place).map (·.2)
  | edit id e => some (w.modifyActor id e.change)

/-- The world after a request. A refused one leaves it as it is. -/
def apply (w : World) (c : Change) : World := (c.attempt w).getD w

/-- Whether a request uses up a handle. -/
def isSpawn : Change → Bool
  | spawnActor _ => true
  | _ => false

/-- How many handles a request uses up: a refused one none. -/
def spawns (w : World) (c : Change) : Nat :=
  if c.isSpawn && (c.attempt w).isSome then 1 else 0

end Change

namespace World

/-- The world after a list of requests. -/
def run (w : World) : List Change → World
  | [] => w
  | c :: cs => (c.apply w).run cs

/-- How many handles a list of requests uses up. -/
def spawnCount (w : World) : List Change → Nat
  | [] => 0
  | c :: cs => c.spawns w + (c.apply w).spawnCount cs

end World

/-! ## 2. One request -/

namespace Change

variable {w w' : World} {c : Change}

theorem consistent_attempt (h : w.Consistent) (hroom : w.nextId.toNat + c.spawns w < 2 ^ 32)
    (hc : c.attempt w = some w') : w'.Consistent := by
  cases c with
  | setTerrain p t => exact h.setTerrain (toOption_eq_some hc)
  | placeFeature p f => exact h.placeFeature (toOption_eq_some hc)
  | removeFeature p =>
    cases hc
    exact h.removeFeature p
  | mine p => exact h.mine (toOption_eq_some hc)
  | spawnActor a =>
    have hone : (spawnActor a).spawns w = 1 := by
      rw [spawns, isSpawn, hc]
      rfl
    obtain ⟨⟨id, v⟩, hv, rfl⟩ := Option.map_eq_some_iff.mp hc
    rw [hone] at hroom
    exact h.spawnActor hroom (toOption_eq_some hv)
  | spawnPlayer a =>
    obtain ⟨⟨id, v⟩, hv, rfl⟩ := Option.map_eq_some_iff.mp hc
    exact h.spawnPlayer (toOption_eq_some hv)
  | removeActor id =>
    obtain ⟨⟨a, v⟩, hv, rfl⟩ := Option.map_eq_some_iff.mp hc
    exact h.removeActor hv
  | moveActor id goal => exact h.moveActor (toOption_eq_some hc)
  | dropItem p item => exact h.dropItem (toOption_eq_some hc)
  | takeItem p place =>
    obtain ⟨⟨item, v⟩, hv, rfl⟩ := Option.map_eq_some_iff.mp hc
    exact h.takeItem hv
  | edit id e =>
    cases hc
    exact h.modifyActor e.id_eq e.position_eq

/-- What lies in a world is in order whether or not the handles last. -/
theorem furnished_attempt (h : w.Furnished) (hc : c.attempt w = some w') : w'.Furnished := by
  cases c with
  | setTerrain p t => exact h.setTerrain (toOption_eq_some hc)
  | placeFeature p f =>
    obtain ⟨hp, rfl⟩ := World.placeFeature_eq_ok (toOption_eq_some hc)
    exact h.insertFeature hp f
  | removeFeature p =>
    cases hc
    exact h.removeFeature p
  | mine p =>
    obtain ⟨hp, rfl⟩ := World.mine_eq_ok (toOption_eq_some hc)
    exact h.insertFeature (h.feature_inBounds p (World.mem_features_of_isMineable hp)) .rubble
  | spawnActor a =>
    obtain ⟨⟨id, v⟩, hv, rfl⟩ := Option.map_eq_some_iff.mp hc
    obtain ⟨-, -, rfl⟩ := World.spawnActor_eq_ok (toOption_eq_some hv)
    exact h.of_eq rfl rfl rfl rfl
  | spawnPlayer a =>
    obtain ⟨⟨id, v⟩, hv, rfl⟩ := Option.map_eq_some_iff.mp hc
    obtain ⟨-, -, -, rfl⟩ := World.spawnPlayer_eq_ok (toOption_eq_some hv)
    exact h.of_eq rfl rfl rfl rfl
  | removeActor id =>
    obtain ⟨⟨a, v⟩, hv, rfl⟩ := Option.map_eq_some_iff.mp hc
    obtain ⟨-, rfl⟩ := World.removeActor_eq_some hv
    exact h.of_eq rfl rfl rfl rfl
  | moveActor id goal =>
    obtain ⟨a, -, -, -, rfl⟩ := World.moveActor_eq_ok (toOption_eq_some hc)
    exact h.of_eq rfl rfl rfl rfl
  | dropItem p item =>
    obtain ⟨hp, rfl⟩ := World.withPile_of_dropItem (toOption_eq_some hc)
    exact h.withPile hp _
  | takeItem p place =>
    obtain ⟨⟨item, v⟩, hv, rfl⟩ := Option.map_eq_some_iff.mp hc
    obtain ⟨hitem, rfl⟩ := World.takeItem_eq_some hv
    exact h.withPile (h.pile_inBounds p (World.mem_piles_of_getElem? hitem)) _
  | edit id e =>
    cases hc
    show (w.modifyActor id e.change).Furnished
    unfold World.modifyActor
    split
    · exact h
    · exact h.of_eq rfl rfl rfl rfl

/-- The counter of handles moves with the spawns and with nothing else. -/
theorem nextId_attempt (hroom : w.nextId.toNat + c.spawns w < 2 ^ 32)
    (hc : c.attempt w = some w') : w'.nextId.toNat = w.nextId.toNat + c.spawns w := by
  cases c with
  | setTerrain p t =>
    obtain ⟨i, -, rfl⟩ := World.setTerrain_eq_ok (toOption_eq_some hc)
    rfl
  | placeFeature p f =>
    obtain ⟨-, rfl⟩ := World.placeFeature_eq_ok (toOption_eq_some hc)
    rfl
  | removeFeature p =>
    cases hc
    rfl
  | mine p =>
    obtain ⟨-, rfl⟩ := World.mine_eq_ok (toOption_eq_some hc)
    rfl
  | spawnActor a =>
    have hone : (spawnActor a).spawns w = 1 := by
      rw [spawns, isSpawn, hc]
      rfl
    obtain ⟨⟨id, v⟩, hv, rfl⟩ := Option.map_eq_some_iff.mp hc
    obtain ⟨-, -, rfl⟩ := World.spawnActor_eq_ok (toOption_eq_some hv)
    rw [hone] at hroom ⊢
    show (w.nextId + 1).toNat = w.nextId.toNat + 1
    rw [UInt32.toNat_add]
    exact Nat.mod_eq_of_lt hroom
  | spawnPlayer a =>
    obtain ⟨⟨id, v⟩, hv, rfl⟩ := Option.map_eq_some_iff.mp hc
    obtain ⟨-, -, -, rfl⟩ := World.spawnPlayer_eq_ok (toOption_eq_some hv)
    rfl
  | removeActor id =>
    obtain ⟨⟨a, v⟩, hv, rfl⟩ := Option.map_eq_some_iff.mp hc
    obtain ⟨-, rfl⟩ := World.removeActor_eq_some hv
    rfl
  | moveActor id goal =>
    obtain ⟨a, -, -, -, rfl⟩ := World.moveActor_eq_ok (toOption_eq_some hc)
    rfl
  | dropItem p item =>
    obtain ⟨-, rfl⟩ := World.dropItem_eq_ok (toOption_eq_some hc)
    rfl
  | takeItem p place =>
    obtain ⟨⟨item, v⟩, hv, rfl⟩ := Option.map_eq_some_iff.mp hc
    obtain ⟨-, rfl⟩ := World.takeItem_eq_some hv
    rfl
  | edit id e =>
    cases hc
    show (w.modifyActor id e.change).nextId.toNat = w.nextId.toNat
    unfold World.modifyActor
    split <;> rfl

/-- A request that goes through keeps the invariant, and a refused one has no effect. -/
theorem consistent_apply (h : w.Consistent) (hroom : w.nextId.toNat + c.spawns w < 2 ^ 32) :
    (c.apply w).Consistent ∧ (c.apply w).nextId.toNat = w.nextId.toNat + c.spawns w := by
  unfold apply
  cases hc : c.attempt w with
  | none =>
    have hnone : c.spawns w = 0 := by
      rw [spawns, hc, Option.isSome_none, Bool.and_false]
      rfl
    rw [hnone]
    exact ⟨h, rfl⟩
  | some w' => exact ⟨consistent_attempt h hroom hc, nextId_attempt hroom hc⟩

end Change

/-! ## 3. Layouts -/

namespace World

section Drawing

variable {P : World → Prop}
  (hterrain : ∀ (w w' : World) (p : Position) (t : Terrain),
    P w → w.setTerrain p t = .ok w' → P w')
  (hfeature : ∀ (w w' : World) (p : Position) (f : Feature),
    P w → w.placeFeature p f = .ok w' → P w')

include hterrain hfeature

theorem drawRow_induction {y : Int32} {x : Nat} {cs : List Char} {w w' : World} (h : P w)
    (hw : drawRow y x cs w = .ok w') : P w' := by
  induction cs generalizing x w with
  | nil =>
    cases hw
    exact h
  | cons c cs ih =>
    unfold drawRow at hw
    dsimp only at hw
    split at hw
    · cases hw
    · rename_i g hg
      obtain ⟨v, hv, hrest⟩ := bind_eq_ok.mp hw
      refine ih ?_ hrest
      cases g with
      | floor =>
        cases hv
        exact h
      | wall => exact hterrain w v _ _ h hv
      | rock => exact hfeature w v _ _ h hv
      | boulder => exact hfeature w v _ _ h hv

theorem drawRows_induction {width y : Nat} {rows : List (List Char)} {w w' : World} (h : P w)
    (hw : drawRows width y rows w = .ok w') : P w' := by
  induction rows generalizing y w with
  | nil =>
    cases hw
    exact h
  | cons row rows ih =>
    unfold drawRows at hw
    split at hw
    · obtain ⟨v, hv, hrest⟩ := bind_eq_ok.mp hw
      exact ih (drawRow_induction hterrain hfeature h hv) hrest
    · cases hw

/-- What open floor has, and what drawing walls and features keeps, every drawn world has. -/
theorem ofRows_induction (hfloor : ∀ extent : Extent, P (ofExtent extent)) {rows : List String}
    {w : World} (hw : ofRows rows = .ok w) : P w := by
  unfold ofRows at hw
  dsimp only at hw
  split at hw
  · cases hw
  · cases hw
  · exact drawRows_induction hterrain hfeature (hfloor _) hw

end Drawing

/-- A world at the beginning of its history: open floor, or a layout. -/
def IsNew (w : World) : Prop :=
  (∃ extent, w = ofExtent extent) ∨ ∃ rows, ofRows rows = .ok w

theorem IsNew.consistent {w : World} (h : w.IsNew) : w.Consistent ∧ w.nextId = 1 := by
  rcases h with ⟨extent, rfl⟩ | ⟨rows, hrows⟩
  · exact ⟨ofExtent_consistent extent, rfl⟩
  · refine ofRows_induction (P := fun w ↦ w.Consistent ∧ w.nextId = 1) ?_ ?_
      (fun extent ↦ ⟨ofExtent_consistent extent, rfl⟩) hrows
    · intro v v' p t hv hdraw
      refine ⟨hv.1.setTerrain hdraw, ?_⟩
      obtain ⟨i, -, rfl⟩ := setTerrain_eq_ok hdraw
      exact hv.2
    · intro v v' p f hv hdraw
      refine ⟨hv.1.placeFeature hdraw, ?_⟩
      obtain ⟨-, rfl⟩ := placeFeature_eq_ok hdraw
      exact hv.2

/-! ## 4. Whole histories -/

theorem Consistent.run {w : World} (h : w.Consistent) (cs : List Change)
    (hroom : w.nextId.toNat + w.spawnCount cs < 2 ^ 32) : (w.run cs).Consistent := by
  induction cs generalizing w with
  | nil => exact h
  | cons c cs ih =>
    unfold spawnCount at hroom
    -- what the first request has used up is gone from the room of the others
    have hstep := Change.consistent_apply (c := c) h (by omega)
    apply ih hstep.1
    rw [hstep.2]
    omega

theorem Furnished.run {w : World} (h : w.Furnished) (cs : List Change) : (w.run cs).Furnished := by
  induction cs generalizing w with
  | nil => exact h
  | cons c cs ih =>
    apply ih
    unfold Change.apply
    cases hc : c.attempt w with
    | none => exact h
    | some w' => exact Change.furnished_attempt h hc

/-- All tables of a world agree at every point of its history. -/
theorem run_consistent {w : World} (hw : w.IsNew) (cs : List Change)
    (hroom : w.spawnCount cs < 2 ^ 32 - 1) : (w.run cs).Consistent := by
  obtain ⟨h, hnext⟩ := hw.consistent
  apply h.run cs
  have hone : w.nextId.toNat = 1 := by
    rw [hnext]
    rfl
  omega

end World

/-- The layout `..#` over `*..`. -/
def yard : World :=
  { World.ofExtent ⟨3, 2⟩ with
    terrain := #[.floor, .floor, .wall, .floor, .floor, .floor]
    features := (∅ : CellMap Feature).insert ⟨0, 1⟩ .rock }

/-- The player comes and goes, a rat moves onto the cell that has been dug out, and a second rat
is refused, for it would stand in the wall. -/
def yardChanges : List Change :=
  [.spawnPlayer { name := "hero", position := ⟨0, 0⟩ },
    .spawnActor { name := "rat", position := ⟨1, 0⟩ },
    .spawnActor { name := "rat", position := ⟨2, 0⟩ },
    .mine ⟨0, 1⟩,
    .moveActor ⟨1⟩ ⟨0, 1⟩,
    .dropItem ⟨1, 1⟩ (.coins 5),
    .takeItem ⟨1, 1⟩ 0,
    .removeActor .player]

theorem yardChanges_consistent :
    yard.IsNew ∧ yard.spawnCount yardChanges < 2 ^ 32 - 1 ∧
      (yard.run yardChanges).Consistent ∧
      (yard.run yardChanges).occupants[(⟨0, 1⟩ : Position)]? = some ⟨1⟩ := by
  have hnew : yard.IsNew := Or.inr ⟨["..#", "*.."], by decide +kernel⟩
  have hcount : yard.spawnCount yardChanges = 1 := by decide +kernel
  have hroom : yard.spawnCount yardChanges < 2 ^ 32 - 1 := by
    rw [hcount]
    decide
  exact ⟨hnew, hroom, World.run_consistent hnew yardChanges hroom, by decide +kernel⟩

end Delve

import Mathlib.Data.List.Forall2
import Delve.Level.Scenario
import Delve.Proofs.World.Ground
import Delve.Proofs.World.Reach
/-!
# Who and what gets a place

A scenario is accepted or refused while it is being put into the world: each actor finds the ones
before it on their cells already. Whether all of it goes in can still be told from the world as it
was, for an actor only ever takes a cell away from those after it. So a scenario goes in exactly if
there is room for each of its actors and no two of them want the same cell. Each step of the loops
brings in one actor or drops one item and leaves the rest of the world alone, and what the whole
scenario does is the chain of these steps. The main statement is `populate_iff_fits`.
-/

namespace Delve

/-! ## 1. The actor that is listed -/

/-- By induction on the items: each takes one slot more. -/
theorem Inventory.foldlM_add? (items : List Item) (inv : Inventory) (h : inv.size ≤ inv.capacity) :
    items.foldlM Inventory.add? inv =
      if inv.size + items.length ≤ inv.capacity then some { inv with items := inv.items ++ items }
      else none := by
  induction items generalizing inv with
  | nil =>
    rw [List.length_nil, Nat.add_zero, if_pos h, List.append_nil]
    rfl
  | cons item items ih =>
    rw [List.foldlM_cons, Inventory.add?, Inventory.isFull]
    by_cases hfull : inv.capacity ≤ inv.size
    · rw [if_pos (decide_eq_true hfull), if_neg (by rw [List.length_cons]; omega)]
      rfl
    · have hsize : inv.size + 1 = (inv.items ++ [item]).length := by
        rw [List.length_append]
        rfl
      rw [if_neg (by simpa using hfull)]
      refine (ih { inv with items := inv.items ++ [item] } ?_).trans ?_
      · show (inv.items ++ [item]).length ≤ inv.capacity
        omega
      · show (if (inv.items ++ [item]).length + items.length ≤ inv.capacity then _ else none) = _
        rw [← hsize, List.length_cons, Nat.add_right_comm, Nat.add_assoc, List.append_assoc]
        rfl

namespace ActorSpec

/-- The actor of a listing: in full health and with full magic, its items in their order. -/
def actor (spec : ActorSpec) : Actor where
  name := spec.name
  position := spec.position
  stats := spec.stats
  hp := ⟨spec.hp, spec.hp⟩
  mp := ⟨spec.mp, spec.mp⟩
  inventory := ⟨spec.items, Inventory.defaultCapacity⟩
  money := spec.money

theorem build_eq (spec : ActorSpec) :
    spec.build =
      if spec.items.length ≤ Inventory.defaultCapacity then .ok spec.actor
      else .error (.overloaded spec.name) := by
  have hfill := Inventory.foldlM_add? spec.items (.empty Inventory.defaultCapacity) (Nat.zero_le _)
  rw [show (Inventory.empty Inventory.defaultCapacity).size = 0 from rfl, Nat.zero_add] at hfill
  rw [build, inventory?, hfill]
  by_cases hlight : spec.items.length ≤ Inventory.defaultCapacity
  · have hfit : spec.items.length ≤ (Inventory.empty Inventory.defaultCapacity).capacity := hlight
    have hfull (n : UInt32) : Meter.full n = ⟨n, n⟩ := by
      rw [Meter.full, Meter.make, Std.min_self]
    rw [if_pos hfit, if_pos hlight]
    simp only [hfull]
    rfl
  · have hheavy : ¬spec.items.length ≤ (Inventory.empty Inventory.defaultCapacity).capacity :=
      hlight
    rw [if_neg hheavy, if_neg hlight]

end ActorSpec

/-- The world after an actor has come in under the next handle. -/
def World.takeIn (w : World) (a : Actor) : World :=
  { w.settle ⟨w.nextId⟩ a with nextId := w.nextId + 1 }

/-- The world after the player has come in. -/
def World.takeInPlayer (w : World) (a : Actor) : World :=
  { w.settle .player a with playerId := some .player }

namespace ActorSpec

/-- There is room for an actor: its items fit into its inventory, and its cell lies in the world
and is free of obstacles and of others. -/
structure HasRoom (spec : ActorSpec) (w : World) : Prop where
  items_le : spec.items.length ≤ 8
  inBounds : w.inBounds spec.position = true
  clear : w.isObstacle spec.position = false
  vacant : w.occupantAt? spec.position = none

variable {spec : ActorSpec} {w w' : World} {id : ActorId}

theorem hasRoom_iff :
    spec.HasRoom w ↔ spec.items.length ≤ 8 ∧ w.canEnter spec.position = true := by
  rw [World.canEnter_iff_free]
  exact ⟨fun h ↦ ⟨h.items_le, h.inBounds, h.clear, h.vacant⟩,
    fun ⟨hlight, hinside, hclear, hvacant⟩ ↦ ⟨hlight, hinside, hclear, hvacant⟩⟩

/-- Whoever has come in takes its cell away from the ones after it, and nothing else. -/
theorem hasRoom_settle_iff {a : Actor} {playerId : Option ActorId} {nextId : UInt32} :
    spec.HasRoom { w.settle id a with playerId, nextId } ↔
      a.position ≠ spec.position ∧ spec.HasRoom w := by
  have hcell : (w.settle id a).occupantAt? spec.position =
      if a.position = spec.position then some id else w.occupantAt? spec.position :=
    getElem?_insert_eq_ite _ _ _ _
  constructor
  · intro h
    have hvacant : (w.settle id a).occupantAt? spec.position = none := h.vacant
    rw [hcell] at hvacant
    split at hvacant
    · cases hvacant
    · rename_i hne
      exact ⟨hne, h.items_le, h.inBounds, h.clear, hvacant⟩
  · rintro ⟨hne, h⟩
    rw [if_neg hne] at hcell
    exact ⟨h.items_le, h.inBounds, h.clear, hcell.trans h.vacant⟩

/-- There is room for each of some actors, and no two of them want the same cell. -/
def FitIn (specs : List ActorSpec) (w : World) : Prop :=
  (∀ spec ∈ specs, spec.HasRoom w) ∧ (specs.map (·.position)).Nodup

/-- The ones after the first have room beside it exactly if they have room without it and do not
want its cell. -/
theorem fitIn_cons_iff {specs : List ActorSpec} (id : ActorId) (playerId : Option ActorId)
    (nextId : UInt32) : FitIn (spec :: specs) w ↔
      spec.HasRoom w ∧ FitIn specs { w.settle id spec.actor with playerId, nextId } := by
  simp only [FitIn, hasRoom_settle_iff, List.forall_mem_cons, List.map_cons, List.nodup_cons]
  constructor
  · rintro ⟨⟨hroom, hrooms⟩, halone, hapart⟩
    refine ⟨hroom, fun other hother ↦ ⟨fun hcell ↦ halone ?_, hrooms other hother⟩, hapart⟩
    exact List.mem_map.mpr ⟨other, hother, hcell.symm⟩
  · rintro ⟨hroom, hrooms, hapart⟩
    refine ⟨⟨hroom, fun other hother ↦ (hrooms other hother).2⟩, fun hmem ↦ ?_, hapart⟩
    obtain ⟨other, hother, hcell⟩ := List.mem_map.mp hmem
    exact (hrooms other hother).1 hcell.symm

theorem build_of_hasRoom (h : spec.HasRoom w) : spec.build = .ok spec.actor := by
  rw [build_eq]
  exact if_pos h.items_le

theorem build_eq_ok {a : Actor} (h : spec.build = .ok a) :
    spec.items.length ≤ 8 ∧ a = spec.actor := by
  rw [build_eq] at h
  split at h
  · rename_i hlight
    cases h
    exact ⟨hlight, rfl⟩
  · cases h

theorem HasRoom.spawnActor_eq (h : spec.HasRoom w) :
    w.spawnActor spec.actor = .ok (⟨w.nextId⟩, w.takeIn spec.actor) := by
  obtain ⟨⟨id, v⟩, hspawn⟩ :=
    World.exists_spawnActor_iff (a := spec.actor).mpr (hasRoom_iff.mp h).2
  obtain ⟨-, rfl, rfl⟩ := World.spawnActor_eq_ok hspawn
  exact hspawn

theorem HasRoom.spawnPlayer_eq (h : spec.HasRoom w) (hnew : w.actor? .player = none) :
    w.spawnPlayer spec.actor = .ok (.player, w.takeInPlayer spec.actor) := by
  obtain ⟨⟨id, v⟩, hspawn⟩ :=
    World.exists_spawnPlayer_iff (a := spec.actor).mpr ⟨(hasRoom_iff.mp h).2, hnew⟩
  obtain ⟨-, rfl, -, rfl⟩ := World.spawnPlayer_eq_ok hspawn
  exact hspawn

theorem placeMonster_eq_ok_iff :
    spec.placeMonster w = .ok (id, w') ↔ spec.HasRoom w ∧ id = ⟨w.nextId⟩ ∧
      w' = w.takeIn spec.actor := by
  constructor
  · intro h
    obtain ⟨a, ha, h⟩ := bind_eq_ok.mp h
    obtain ⟨hlight, rfl⟩ := build_eq_ok ha
    split at h
    · rename_i placed hspawn
      cases h
      obtain ⟨hcell, hid, hw⟩ := World.spawnActor_eq_ok hspawn
      exact ⟨hasRoom_iff.mpr ⟨hlight, hcell⟩, hid, hw⟩
    · cases h
  · rintro ⟨hroom, rfl, rfl⟩
    refine bind_eq_ok.mpr ⟨spec.actor, build_of_hasRoom hroom, ?_⟩
    rw [hroom.spawnActor_eq]
    rfl

theorem placePlayer_eq_ok_iff :
    spec.placePlayer w = .ok w' ↔ (spec.HasRoom w ∧ w.actor? .player = none) ∧
      w' = w.takeInPlayer spec.actor := by
  constructor
  · intro h
    obtain ⟨a, ha, h⟩ := bind_eq_ok.mp h
    obtain ⟨hlight, rfl⟩ := build_eq_ok ha
    split at h
    · rename_i id v hspawn
      cases h
      obtain ⟨hcell, -, hnew, hw⟩ := World.spawnPlayer_eq_ok hspawn
      exact ⟨⟨hasRoom_iff.mpr ⟨hlight, hcell⟩, hnew⟩, hw⟩
    · cases h
  · rintro ⟨⟨hroom, hnew⟩, rfl⟩
    refine bind_eq_ok.mpr ⟨spec.actor, build_of_hasRoom hroom, ?_⟩
    rw [hroom.spawnPlayer_eq hnew]
    rfl

end ActorSpec

/-! ## 2. What is accepted -/

namespace Scenario

variable {s : Scenario} {w w' : World} {placed : List (ActorId × String)}

/-- The actors of a scenario, in the order in which they are put into the world. -/
def cast (s : Scenario) : List ActorSpec := s.player.toList ++ s.monsters.map (·.actor)

/-- Whether a scenario goes into a world, told from the world before anything is put there. -/
structure Fits (s : Scenario) (w : World) : Prop where
  newPlayer : s.player.isSome = true → w.actor? .player = none
  room : ∀ spec ∈ s.cast, spec.HasRoom w
  apart : (s.cast.map (·.position)).Nodup
  lying : ∀ spec ∈ s.items, w.inBounds spec.position = true

theorem placeMonsters_cons_eq_ok_iff {spec : MonsterSpec} {specs : List MonsterSpec} :
    placeMonsters (spec :: specs) w = (.ok placed, w') ↔ spec.actor.HasRoom w ∧
      ∃ rest, placeMonsters specs (w.takeIn spec.actor.actor) = (.ok rest, w') ∧
        placed = (⟨w.nextId⟩, spec.temper) :: rest := by
  rw [placeMonsters]
  constructor
  · intro h
    split at h
    · cases h
    · rename_i id v hfirst
      obtain ⟨hroom, rfl, rfl⟩ := ActorSpec.placeMonster_eq_ok_iff.mp hfirst
      obtain ⟨hall, hlast⟩ := Prod.mk.inj h
      obtain ⟨rest, hrest, hplaced⟩ := map_eq_ok.mp hall
      exact ⟨hroom, rest, Prod.ext hrest hlast, hplaced.symm⟩
  · rintro ⟨hroom, rest, hrest, rfl⟩
    rw [ActorSpec.placeMonster_eq_ok_iff.mpr ⟨hroom, rfl, rfl⟩]
    dsimp only
    rw [hrest]
    rfl

theorem exists_placeMonsters_iff (specs : List MonsterSpec) (w : World) :
    (∃ placed w', placeMonsters specs w = (.ok placed, w')) ↔
      ActorSpec.FitIn (specs.map (·.actor)) w := by
  induction specs generalizing w with
  | nil => exact ⟨fun _ ↦ ⟨nofun, List.nodup_nil⟩, fun _ ↦ ⟨[], w, rfl⟩⟩
  | cons spec specs ih =>
    simp only [placeMonsters_cons_eq_ok_iff]
    rw [List.map_cons, ActorSpec.fitIn_cons_iff ⟨w.nextId⟩ w.playerId (w.nextId + 1)]
    constructor
    · rintro ⟨placed, w', hroom, rest, hrest, -⟩
      exact ⟨hroom, (ih _).mp ⟨rest, w', hrest⟩⟩
    · rintro ⟨hroom, hrooms⟩
      obtain ⟨rest, w', hrest⟩ := (ih _).mpr hrooms
      exact ⟨_, w', hroom, rest, hrest, rfl⟩

theorem exists_placeItems_iff (specs : List ItemSpec) (w : World) :
    (∃ w', placeItems specs w = (.ok (), w')) ↔
      ∀ spec ∈ specs, w.inBounds spec.position = true := by
  induction specs generalizing w with
  | nil => exact ⟨fun _ ↦ nofun, fun _ ↦ ⟨w, rfl⟩⟩
  | cons spec specs ih =>
    rw [List.forall_mem_cons, placeItems]
    cases hdrop : w.dropItem spec.position spec.item with
    | error e =>
      have houtside : w.inBounds spec.position ≠ true := by
        intro hinside
        rw [World.dropItem, if_pos hinside] at hdrop
        cases hdrop
      exact ⟨nofun, fun h ↦ absurd h.1 houtside⟩
    | ok v =>
      obtain ⟨hinside, rfl⟩ := World.dropItem_eq_ok hdrop
      exact (ih _).trans ⟨fun hrest ↦ ⟨hinside, hrest⟩, And.right⟩

theorem sameGround_placeMonsters {specs : List MonsterSpec} {w w' : World}
    {placed : List (ActorId × String)}
    (h : placeMonsters specs w = (.ok placed, w')) : w.SameGround w' ∧ w'.piles = w.piles := by
  induction specs generalizing w placed with
  | nil =>
    cases h
    exact ⟨.refl _, rfl⟩
  | cons spec specs ih =>
    obtain ⟨-, rest, hrest, -⟩ := placeMonsters_cons_eq_ok_iff.mp h
    have hfirst : w.SameGround (w.takeIn spec.actor.actor) := ⟨rfl, rfl, rfl⟩
    obtain ⟨hground, hpiles⟩ := ih hrest
    exact ⟨hfirst.trans hground, hpiles⟩

theorem sameGround_placePlayer {player : Option ActorSpec}
    (h : placePlayer player w = .ok w') : w.SameGround w' ∧ w'.piles = w.piles := by
  cases player with
  | none =>
    cases h
    exact ⟨.refl w, rfl⟩
  | some spec =>
    obtain ⟨-, rfl⟩ := ActorSpec.placePlayer_eq_ok_iff.mp h
    exact ⟨⟨rfl, rfl, rfl⟩, rfl⟩

theorem populate_eq_ok_iff :
    s.populate w = (.ok placed, w') ↔ ∃ v v', placePlayer s.player w = .ok v ∧
      placeMonsters s.monsters v = (.ok placed, v') ∧ placeItems s.items v' = (.ok (), w') := by
  rw [populate]
  constructor
  · intro h
    split at h
    · cases h
    · rename_i v hplayer
      split at h
      · cases h
      · rename_i monsters v' hmonsters
        obtain ⟨hresult, hlast⟩ := Prod.mk.inj h
        obtain ⟨⟨⟩, hitems, rfl⟩ := map_eq_ok.mp hresult
        exact ⟨v, v', hplayer, hmonsters, Prod.ext hitems hlast⟩
  · rintro ⟨v, v', hplayer, hmonsters, hitems⟩
    rw [hplayer]
    dsimp only
    rw [hmonsters]
    dsimp only
    rw [hitems]
    rfl

theorem exists_placeActors_iff (s : Scenario) (w : World) :
    (∃ v placed v', placePlayer s.player w = .ok v ∧
        placeMonsters s.monsters v = (.ok placed, v')) ↔
      (s.player.isSome = true → w.actor? .player = none) ∧ ActorSpec.FitIn s.cast w := by
  rw [cast]
  cases s.player with
  | none =>
    rw [Option.toList_none, List.nil_append, ← exists_placeMonsters_iff]
    constructor
    · rintro ⟨v, placed, v', hv, hplaced⟩
      cases hv
      exact ⟨nofun, placed, v', hplaced⟩
    · rintro ⟨-, placed, v', hplaced⟩
      exact ⟨w, placed, v', rfl, hplaced⟩
  | some spec =>
    rw [Option.toList_some, List.singleton_append,
      ActorSpec.fitIn_cons_iff .player (some .player) w.nextId]
    constructor
    · rintro ⟨v, placed, v', hv, hplaced⟩
      obtain ⟨⟨hroom, hnew⟩, rfl⟩ := ActorSpec.placePlayer_eq_ok_iff.mp hv
      exact ⟨fun _ ↦ hnew, hroom, (exists_placeMonsters_iff _ _).mp ⟨placed, v', hplaced⟩⟩
    · rintro ⟨hnew, hroom, hrooms⟩
      obtain ⟨placed, v', hplaced⟩ := (exists_placeMonsters_iff _ _).mpr hrooms
      exact ⟨_, placed, v', ActorSpec.placePlayer_eq_ok_iff.mpr ⟨⟨hroom, hnew rfl⟩, rfl⟩, hplaced⟩

/-- Only what is listed for a cell outside the world can be refused after the actors. -/
theorem exists_populate_iff (s : Scenario) (w : World) :
    (∃ placed w', s.populate w = (.ok placed, w')) ↔ s.Fits w := by
  simp only [populate_eq_ok_iff]
  constructor
  · rintro ⟨placed, w', v, v', hplayer, hmonsters, hitems⟩
    obtain ⟨hnew, hrooms, hapart⟩ :=
      (exists_placeActors_iff s w).mp ⟨v, placed, v', hplayer, hmonsters⟩
    refine ⟨hnew, hrooms, hapart, fun spec hspec ↦ ?_⟩
    have hground := (sameGround_placePlayer hplayer).1.trans (sameGround_placeMonsters hmonsters).1
    rw [← hground.opens.inBounds_eq]
    exact (exists_placeItems_iff s.items v').mp ⟨w', hitems⟩ spec hspec
  · rintro ⟨hnew, hrooms, hapart, hlying⟩
    obtain ⟨v, placed, v', hplayer, hmonsters⟩ :=
      (exists_placeActors_iff s w).mpr ⟨hnew, hrooms, hapart⟩
    have hground := (sameGround_placePlayer hplayer).1.trans (sameGround_placeMonsters hmonsters).1
    obtain ⟨w', hitems⟩ := (exists_placeItems_iff s.items v').mpr fun spec hspec ↦
      (hground.opens.inBounds_eq _).trans (hlying spec hspec)
    exact ⟨placed, w', v, v', hplayer, hmonsters, hitems⟩

end Scenario

/-! ## 3. What the world is then -/

/-- Some actors have come in, each under its handle and onto its cell. Whoever was there before is
still there as it was. -/
structure World.Joined (specs : List ActorSpec) (ids : List ActorId) (w w' : World) : Prop where
  actors_new : List.Forall₂ (fun spec id ↦ w'.actor? id = some { spec.actor with id }) specs ids
  actors_kept : ∀ id a, w.actor? id = some a → w'.actor? id = some a
  actor_eq : ∀ id ∉ ids, w'.actor? id = w.actor? id
  occupant_eq : ∀ p ∉ specs.map (·.position), w'.occupantAt? p = w.occupantAt? p

namespace World

variable {w v w' : World} {spec : ActorSpec} {specs specs' : List ActorSpec}
  {id : ActorId} {ids ids' : List ActorId}

theorem Joined.refl (w : World) : w.Joined [] [] w :=
  ⟨.nil, fun _ _ h ↦ h, fun _ _ ↦ rfl, fun _ _ ↦ rfl⟩

theorem Joined.trans (h : w.Joined specs ids v) (h' : v.Joined specs' ids' w') :
    w.Joined (specs ++ specs') (ids ++ ids') w' where
  actors_new := List.rel_append
    (h.actors_new.imp fun _ _ hactor ↦ h'.actors_kept _ _ hactor) h'.actors_new
  actors_kept id a ha := h'.actors_kept id a (h.actors_kept id a ha)
  actor_eq id hid := by
    rw [List.mem_append, not_or] at hid
    exact (h'.actor_eq id hid.2).trans (h.actor_eq id hid.1)
  occupant_eq p hp := by
    rw [List.map_append, List.mem_append, not_or] at hp
    exact (h'.occupant_eq p hp.2).trans (h.occupant_eq p hp.1)

theorem joined_settle (hnew : w.actors[id]? = none) (spec : ActorSpec)
    (playerId : Option ActorId) (nextId : UInt32) :
    w.Joined [spec] [id] { w.settle id spec.actor with playerId, nextId } where
  actors_new := by
    refine .cons ?_ .nil
    show (w.actors.insert id { spec.actor with id })[id]? = _
    rw [getElem?_insert_eq_ite, if_pos rfl]
  actors_kept i a ha := by
    have hne : id ≠ i := by
      rintro rfl
      rw [actor?, hnew] at ha
      cases ha
    exact (getElem?_insert_of_ne _ hne _).trans ha
  actor_eq := (w.settle_eq_of_ne id spec.actor).2
  occupant_eq := (w.settle_eq_of_ne id spec.actor).1

theorem itemsAt_insert (w : World) (p q : Position) (pile : List Item) :
    itemsAt { w with piles := w.piles.insert p pile } q =
      if p = q then pile else w.itemsAt q := by
  rw [itemsAt, getElem?_insert_eq_ite]
  split
  · rfl
  · rfl

end World

namespace Scenario

variable {s : Scenario} {w v w' : World} {placed : List (ActorId × String)}

/-- By induction on the monsters: as long as the handles last, each comes in under the next one. -/
theorem joined_placeMonsters {specs : List MonsterSpec} (h : w.Consistent)
    (hroom : w.nextId.toNat + specs.length < 2 ^ 32)
    (hplaced : placeMonsters specs w = (.ok placed, w')) :
    w'.Consistent ∧ w.Joined (specs.map (·.actor)) (placed.map (·.1)) w' ∧
      placed.map (·.2) = specs.map (·.temper) ∧
        placed.map (·.1.number.toNat) = List.range' w.nextId.toNat specs.length := by
  induction specs generalizing w placed with
  | nil =>
    cases hplaced
    exact ⟨h, .refl _, rfl, rfl⟩
  | cons spec specs ih =>
    obtain ⟨hfree, rest, hrest, rfl⟩ := placeMonsters_cons_eq_ok_iff.mp hplaced
    rw [List.length_cons] at hroom
    have hone : w.nextId.toNat + 1 < 2 ^ 32 := by omega
    have hnext : (w.takeIn spec.actor.actor).nextId.toNat = w.nextId.toNat + 1 := by
      show (w.nextId + 1).toNat = w.nextId.toNat + 1
      rw [UInt32.toNat_add]
      exact Nat.mod_eq_of_lt hone
    obtain ⟨hworld, hjoined, htempers, hnumbers⟩ :=
      ih (h.spawnActor hone hfree.spawnActor_eq) (by omega) hrest
    have hfirst : w.Joined [spec.actor] [⟨w.nextId⟩] (w.takeIn spec.actor.actor) :=
      World.joined_settle h.fresh spec.actor w.playerId (w.nextId + 1)
    refine ⟨hworld, hfirst.trans hjoined, congrArg (spec.temper :: ·) htempers, ?_⟩
    rw [List.map_cons, hnumbers, hnext, List.length_cons, List.range'_succ]

theorem joined_placePlayer {player : Option ActorSpec} (h : w.Consistent)
    (hplaced : placePlayer player w = .ok w') :
    w'.Consistent ∧ w.Joined player.toList (player.map fun _ ↦ .player).toList w' ∧
      w'.nextId = w.nextId := by
  cases player with
  | none =>
    cases hplaced
    exact ⟨h, .refl _, rfl⟩
  | some spec =>
    obtain ⟨⟨hfree, hnew⟩, rfl⟩ := ActorSpec.placePlayer_eq_ok_iff.mp hplaced
    exact ⟨h.spawnPlayer (hfree.spawnPlayer_eq hnew),
      World.joined_settle hnew spec (some .player) w.nextId, rfl⟩

/-- By induction on the items: each goes on top of what lies on its cell by then. -/
theorem laid_placeItems {specs : List ItemSpec} (h : w.Consistent)
    (hlaid : placeItems specs w = (.ok (), w')) :
    w'.Consistent ∧ (∃ piles, w' = { w with piles }) ∧ ∀ p,
      w'.itemsAt p = w.itemsAt p ++ (specs.filter (·.position = p)).map (·.item) := by
  induction specs generalizing w with
  | nil =>
    cases hlaid
    exact ⟨h, ⟨_, rfl⟩, fun p ↦ (List.append_nil _).symm⟩
  | cons spec specs ih =>
    rw [placeItems] at hlaid
    split at hlaid
    · cases hlaid
    · rename_i v hdrop
      have hv := h.dropItem hdrop
      obtain ⟨-, rfl⟩ := World.dropItem_eq_ok hdrop
      obtain ⟨hworld, ⟨piles, hrest⟩, hpiles⟩ := ih hv hlaid
      refine ⟨hworld, ⟨piles, hrest⟩, fun p ↦ ?_⟩
      rw [hpiles p, World.itemsAt_insert, List.filter_cons]
      by_cases hp : spec.position = p
      · rw [if_pos hp, hp, if_pos (decide_eq_true rfl), List.map_cons, List.append_assoc]
        rfl
      · rw [if_neg hp, if_neg (by simpa using hp)]

/-- The handles of the actors of a scenario, where the monsters have got some. -/
def handles (s : Scenario) (placed : List (ActorId × String)) : List ActorId :=
  (s.player.map fun _ ↦ .player).toList ++ placed.map (·.1)

/-- What a scenario makes of a world. Its actors stand where they are listed, the monsters under
consecutive handles, and what is listed for the ground lies on top of what lay there. All the rest
of the world is as it was. -/
structure Populates (s : Scenario) (placed : List (ActorId × String)) (w w' : World) : Prop where
  numbers_eq : placed.map (·.1.number.toNat) = List.range' w.nextId.toNat s.monsters.length
  tempers_eq : placed.map (·.2) = s.monsters.map (·.temper)
  cast_placed : List.Forall₂ (fun spec id ↦ w'.actor? id = some { spec.actor with id } ∧
    w'.occupantAt? spec.position = some id) s.cast (s.handles placed)
  itemsAt_eq : ∀ p,
    w'.itemsAt p = w.itemsAt p ++ (s.items.filter (·.position = p)).map (·.item)
  actors_kept : ∀ id a, w.actor? id = some a →
    w'.actor? id = some a ∧ w'.occupantAt? a.position = some id
  actor_eq : ∀ id ∉ s.handles placed, w'.actor? id = w.actor? id
  occupant_eq : ∀ p ∉ s.cast.map (·.position), w'.occupantAt? p = w.occupantAt? p
  ground : w.SameGround w'
  consistent : w'.Consistent

theorem populates_of_eq_ok (h : w.Consistent)
    (hroom : w.nextId.toNat + s.monsters.length < 2 ^ 32)
    (hdone : s.populate w = (.ok placed, w')) : s.Populates placed w w' := by
  obtain ⟨v, v', hplayer, hmonsters, hitems⟩ := populate_eq_ok_iff.mp hdone
  obtain ⟨hv, hfirst, hnext⟩ := joined_placePlayer h hplayer
  rw [← hnext] at hroom
  obtain ⟨hv', hothers, htempers, hnumbers⟩ := joined_placeMonsters hv hroom hmonsters
  obtain ⟨hworld, ⟨piles, hw'⟩, hpiles⟩ := laid_placeItems hv' hitems
  have hjoined := hfirst.trans hothers
  have hground := (sameGround_placePlayer hplayer).1.trans (sameGround_placeMonsters hmonsters).1
  have hold : v'.piles = w.piles :=
    (sameGround_placeMonsters hmonsters).2.trans (sameGround_placePlayer hplayer).2
  -- the tables agree at the end, so whoever is known to be there stands on its cell
  have hstands (id : ActorId) (a : Actor) (ha : v'.actor? id = some a) :
      w'.actor? id = some a ∧ w'.occupantAt? a.position = some id := by
    have ha' : w'.actor? id = some a := by
      rw [hw']
      exact ha
    exact ⟨ha', hworld.occupants_eq ha'⟩
  refine ⟨by rw [hnumbers, hnext], htempers, ?_, fun p ↦ ?_, fun id a ha ↦ ?_, fun id hid ↦ ?_,
    fun p hp ↦ ?_, ?_, hworld⟩
  · exact hjoined.actors_new.imp fun spec id hactor ↦ hstands id _ hactor
  · rw [hpiles p, World.itemsAt, hold, World.itemsAt]
  · exact hstands id a (hjoined.actors_kept id a ha)
  · rw [hw']
    exact hjoined.actor_eq id hid
  · rw [hw']
    exact hjoined.occupant_eq p hp
  · rw [hw']
    exact ⟨hground.extent_eq, hground.terrain_eq, hground.features_eq⟩

/-- A scenario goes into a world exactly if, in the world as it is, there is room for each of its
actors, no two of them want the same cell, there is no player yet where it brings one, and its items
lie in the world. While the handles last, it leaves the world as it says then. -/
theorem populate_iff_fits (s : Scenario) (w : World) :
    ((∃ placed w', s.populate w = (.ok placed, w')) ↔ s.Fits w) ∧
      (w.Consistent → w.nextId.toNat + s.monsters.length < 2 ^ 32 →
        ∀ placed w', s.populate w = (.ok placed, w') → s.Populates placed w w') :=
  ⟨exists_populate_iff s w, fun h hroom _ _ ↦ populates_of_eq_ok h hroom⟩

end Scenario

/-- The yard with a rat, and with coins on a cell. -/
def strewnYard : World :=
  yard.run [.spawnActor { name := "rat", position := ⟨1, 0⟩ }, .dropItem ⟨1, 1⟩ (.coins 5)]

/-- A hero with a bat, and more coins on that cell. -/
def batScenario : Scenario where
  player := some { name := "hero", position := ⟨0, 0⟩, hp := 12, items := [.coins 2] }
  monsters := [{ actor := { name := "bat", position := ⟨1, 1⟩, hp := 3 }, temper := "wanderer" }]
  items := [{ position := ⟨1, 1⟩, item := .coins 3 }, { position := ⟨2, 1⟩, item := .coins 1 }]

/-- The bat comes in under the handle after the rat's, onto the cell of the coins, and what is
listed for that cell lies on top. Nobody else can be put onto the cell of the rat. -/
theorem batScenario_populates :
    strewnYard.Consistent ∧
      strewnYard.nextId.toNat + batScenario.monsters.length < 2 ^ 32 ∧
      (∃ w, batScenario.populate strewnYard = (.ok [(⟨2⟩, "wanderer")], w) ∧
        w.itemsAt ⟨1, 1⟩ = [.coins 5, .coins 3] ∧ w.itemsAt ⟨2, 1⟩ = [.coins 1] ∧
        w.actor? ⟨1⟩ = strewnYard.actor? ⟨1⟩ ∧ strewnYard.SameGround w) ∧
      ¬∃ placed w,
        ({ monsters := [⟨{ name := "bat", position := ⟨1, 0⟩, hp := 3 }, "wanderer"⟩] } :
          Scenario).populate strewnYard = (.ok placed, w) := by
  have hnew : yard.IsNew := Or.inr ⟨["..#", "*.."], by decide +kernel⟩
  have hyard : strewnYard.Consistent := hnew.consistent.1.run _ (by decide +kernel)
  have hroom : strewnYard.nextId.toNat + batScenario.monsters.length < 2 ^ 32 := by
    decide +kernel
  have hdone : batScenario.populate strewnYard =
      (.ok [(⟨2⟩, "wanderer")], (batScenario.populate strewnYard).2) :=
    Prod.ext (by decide +kernel) rfl
  have hall := (batScenario.populate_iff_fits strewnYard).2 hyard hroom _ _ hdone
  refine ⟨hyard, hroom, ⟨_, hdone, ?_, ?_, ?_, ?_⟩, ?_⟩
  · rw [hall.itemsAt_eq]
    decide +kernel
  · rw [hall.itemsAt_eq]
    decide +kernel
  · exact hall.actor_eq ⟨1⟩ (by decide)
  · exact hall.ground
  · rw [(Scenario.populate_iff_fits _ strewnYard).1]
    intro hfits
    have hvacant := (hfits.room _ List.mem_cons_self).vacant
    revert hvacant
    decide +kernel

end Delve

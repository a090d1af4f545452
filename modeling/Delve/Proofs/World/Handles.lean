import Delve.Proofs.World.Reach
/-!
# Handles

A newcomer gets the number of the counter, and the counter goes on by one with every newcomer and
never otherwise. So the handles that are given in the course of a history are numbered without a gap,
and a handle whose actor has left the world is never given again: it is below the counter for good,
and nobody is stored under it.
-/

namespace Delve

/-! ## 1. Handles that are given -/

/-- The handle that a request to let an actor in is answered with. -/
def Change.issued? (w : World) : Change → Option ActorId
  | spawnActor a => (w.spawnActor a).toOption.map (·.1)
  | _ => none

namespace World

/-- The handles that a list of requests is answered with, in their order. -/
def issued (w : World) : List Change → List ActorId
  | [] => []
  | c :: cs => (c.issued? w).toList ++ (c.apply w).issued cs

variable {w w' : World} {c : Change} {id i : ActorId} {a b : Actor}

theorem run_append (w : World) (cs ds : List Change) : w.run (cs ++ ds) = (w.run cs).run ds := by
  induction cs generalizing w with
  | nil => rfl
  | cons c cs ih => exact ih (c.apply w)

theorem spawnCount_append (w : World) (cs ds : List Change) :
    w.spawnCount (cs ++ ds) = w.spawnCount cs + (w.run cs).spawnCount ds := by
  induction cs generalizing w with
  | nil => exact (Nat.zero_add _).symm
  | cons c cs ih =>
    rw [List.cons_append, spawnCount, spawnCount, ih, Nat.add_assoc]
    rfl

/-- A request uses up the number of the counter or none. -/
theorem number_issued? (w : World) (c : Change) :
    (c.issued? w).toList.map (·.number.toNat) = List.range' w.nextId.toNat (c.spawns w) := by
  cases c with
  | spawnActor a =>
    cases h : w.spawnActor a with
    | error e =>
      simp [Change.issued?, Change.spawns, Change.attempt, h, Except.toOption.eq_def]
    | ok r =>
      obtain ⟨-, hid, -⟩ := spawnActor_eq_ok h
      simp [Change.issued?, Change.spawns, Change.attempt, Change.isSpawn, h, hid,
        Except.toOption.eq_def]
  | _ => rfl

/-- By induction on the requests: the handles are numbered from the counter on, without a gap. -/
theorem Consistent.number_issued (h : w.Consistent) (cs : List Change)
    (hroom : w.nextId.toNat + w.spawnCount cs < 2 ^ 32) :
    (w.issued cs).map (·.number.toNat) = List.range' w.nextId.toNat (w.spawnCount cs) := by
  induction cs generalizing w with
  | nil => rfl
  | cons c cs ih =>
    rw [spawnCount] at hroom
    obtain ⟨hnext, hcounter⟩ := Change.consistent_apply (c := c) h (by omega)
    rw [issued, List.map_append, number_issued?, ih hnext (by omega), hcounter, spawnCount,
      List.range'_append_1]

/-! ## 2. Handles that are retired -/

/-- The handle has been given to an actor that is not there any more. The player's handle is not
given by the counter. -/
structure Retired (w : World) (id : ActorId) : Prop where
  ne_player : id ≠ .player
  number_lt : id.number < w.nextId
  absent : w.actors[id]? = none

/-- Whoever is there after a request has been there before, unless it has come in with it. -/
theorem mem_or_new_of_attempt (hc : c.attempt w = some w') (hi : i ∈ w'.actors) :
    i ∈ w.actors ∨ i = ⟨w.nextId⟩ ∨ i = .player := by
  by_cases hreach : i ∈ (c.reach w).actors
  · -- the request is about the actor, which is there for it to go through
    cases c with
    | spawnActor a => exact Or.inr (Or.inl (List.mem_singleton.mp hreach))
    | spawnPlayer a => exact Or.inr (Or.inr (List.mem_singleton.mp hreach))
    | removeActor id =>
      obtain rfl := List.mem_singleton.mp hreach
      obtain ⟨⟨a, v⟩, hv, -⟩ := Option.map_eq_some_iff.mp hc
      exact Or.inl (mem_of_getElem?_eq_some (removeActor_eq_some hv).1)
    | moveActor id goal =>
      obtain rfl := List.mem_singleton.mp hreach
      obtain ⟨a, ha, -⟩ := moveActor_eq_ok (toOption_eq_some hc)
      exact Or.inl (mem_of_getElem?_eq_some ha)
    | edit id e =>
      obtain rfl := List.mem_singleton.mp hreach
      cases hc
      cases ha : w.actors[i]? with
      | none =>
        rw [modifyActor_of_none ha] at hi
        exact Or.inl hi
      | some a => exact Or.inl (mem_of_getElem?_eq_some ha)
    | setTerrain | placeFeature | removeFeature | mine | dropItem | takeItem =>
      exact absurd hreach List.not_mem_nil
  · have hsame := (Change.within_attempt hc).actor_eq i hreach
    rw [actor?, actor?] at hsame
    rw [Std.ExtTreeMap.mem_iff_isSome_getElem?] at hi ⊢
    exact Or.inl (hsame ▸ hi)

/-- An actor that leaves takes its handle out of use. -/
theorem Enrolled.retired_of_removeActor (h : w.Enrolled) (hid : id ≠ .player)
    (hw : w.removeActor? id = some (a, w')) : w'.Retired id := by
  obtain ⟨ha, rfl⟩ := removeActor_eq_some hw
  refine ⟨hid, h.number_lt id (mem_of_getElem?_eq_some ha) hid, ?_⟩
  show (w.actors.erase id)[id]? = none
  rw [getElem?_erase_eq_ite, if_pos rfl]

theorem Retired.apply (h : w.Retired id) (hworld : w.Consistent)
    (hroom : w.nextId.toNat + c.spawns w < 2 ^ 32) : (c.apply w).Retired id := by
  have hcounter := (Change.consistent_apply (c := c) hworld hroom).2
  have hbelow := UInt32.lt_iff_toNat_lt.mp h.number_lt
  refine ⟨h.ne_player, ?_, ?_⟩
  · rw [UInt32.lt_iff_toNat_lt]
    omega
  · unfold Change.apply
    cases hc : c.attempt w with
    | none => exact h.absent
    | some w' =>
      rw [Option.getD_some, ← Option.not_isSome_iff_eq_none,
        ← Std.ExtTreeMap.mem_iff_isSome_getElem?]
      intro hi
      rcases mem_or_new_of_attempt hc hi with hold | rfl | rfl
      · rw [Std.ExtTreeMap.mem_iff_isSome_getElem?, h.absent] at hold
        cases hold
      · exact UInt32.lt_irrefl _ h.number_lt
      · exact h.ne_player rfl

/-- By induction on the requests. -/
theorem Retired.run (h : w.Retired id) (hworld : w.Consistent) (cs : List Change)
    (hroom : w.nextId.toNat + w.spawnCount cs < 2 ^ 32) : (w.run cs).Retired id := by
  induction cs generalizing w with
  | nil => exact h
  | cons c cs ih =>
    rw [spawnCount] at hroom
    obtain ⟨hnext, hcounter⟩ := Change.consistent_apply (c := c) hworld (by omega)
    exact ih (h.apply hworld (by omega)) hnext (by omega)

theorem Consistent.nextId_run (h : w.Consistent) (cs : List Change)
    (hroom : w.nextId.toNat + w.spawnCount cs < 2 ^ 32) :
    (w.run cs).nextId.toNat = w.nextId.toNat + w.spawnCount cs := by
  induction cs generalizing w with
  | nil => rfl
  | cons c cs ih =>
    rw [spawnCount] at hroom ⊢
    obtain ⟨hnext, hcounter⟩ := Change.consistent_apply (c := c) h (by omega)
    rw [World.run, ih hnext (by omega), hcounter, Nat.add_assoc]

/-- The handle of an actor that has been removed is retired at every later point. -/
theorem Consistent.retired (h : w.Consistent) (before after : List Change) (hid : id ≠ .player)
    (hremoved : ((w.run before).removeActor? id).isSome = true)
    (hroom : w.nextId.toNat + w.spawnCount (before ++ .removeActor id :: after) < 2 ^ 32) :
    (w.run (before ++ .removeActor id :: after)).Retired id := by
  obtain ⟨⟨a, gone⟩, hgone⟩ := Option.isSome_iff_exists.mp hremoved
  have hdone : (Change.removeActor id).apply (w.run before) = gone := by
    rw [Change.apply, Change.attempt, hgone]
    rfl
  rw [spawnCount_append, spawnCount, hdone] at hroom
  have hbefore := h.run before (by omega)
  have hcounter := h.nextId_run before (by omega)
  have hafter := Change.consistent_apply (c := .removeActor id) hbefore (by omega)
  rw [hdone] at hafter
  have hgoneRetired : gone.Retired id := hbefore.toEnrolled.retired_of_removeActor hid hgone
  rw [run_append, World.run, hdone]
  exact hgoneRetired.run hafter.1 after (by omega)

/-- Nothing answers to a handle that is retired. -/
theorem Retired.unresolved (h : w.Retired id) (hworld : w.Seated) :
    w.actor? id = none ∧ w.removeActor? id = none ∧
      (∀ goal, w.moveActor id goal = .error (.unknownActor id)) ∧
        ∀ p, w.occupantAt? p ≠ some id := by
  have hnobody : w.actor? id = none := h.absent
  refine ⟨hnobody, ?_, fun goal ↦ ?_, fun p hp ↦ ?_⟩
  · rw [removeActor?, hnobody, Option.map_none]
  · rw [moveActor, hnobody]
  · obtain ⟨a, ha, -⟩ := (hworld.occupants_iff p id).mp hp
    rw [h.absent] at ha
    cases ha

/-! ## 3. Whole histories -/

/-- While the handles last, every handle that is given is above all that were given before, and none
of them is the player's. A handle whose actor has been removed, the player's apart, never resolves
again: whatever is asked for later on, nobody is known under it, nobody can be removed or moved by
it, and it stands on no cell. -/
theorem run_retires (hw : w.IsNew) (cs : List Change) (hroom : w.spawnCount cs < 2 ^ 32 - 1) :
    (∀ id ∈ w.issued cs, id ≠ .player) ∧
    (w.issued cs).Pairwise (fun earlier later ↦ earlier.number < later.number) ∧
    ∀ before id after later, cs = before ++ .removeActor id :: (after ++ later) →
      id ≠ .player → ((w.run before).removeActor? id).isSome = true →
        let now := w.run (before ++ .removeActor id :: after)
        now.actor? id = none ∧ now.removeActor? id = none ∧
          (∀ goal, now.moveActor id goal = .error (.unknownActor id)) ∧
            ∀ p, now.occupantAt? p ≠ some id := by
  obtain ⟨hworld, hnext⟩ := hw.consistent
  have hone : w.nextId.toNat = 1 := by
    rw [hnext]
    rfl
  have hnumbers := hworld.number_issued cs (by omega)
  rw [hone] at hnumbers
  refine ⟨fun id hid hplayer ↦ ?_, ?_, ?_⟩
  · have hnumber : id.number.toNat ∈ List.range' 1 (w.spawnCount cs) := by
      rw [← hnumbers]
      exact List.mem_map_of_mem hid
    rw [hplayer] at hnumber
    exact absurd (List.mem_range'_1.mp hnumber).1 (by decide)
  · have hascending := List.pairwise_lt_range' (s := 1) (n := w.spawnCount cs)
    rw [← hnumbers, List.pairwise_map] at hascending
    exact hascending.imp UInt32.lt_iff_toNat_lt.mpr
  · rintro before id after later rfl hid hremoved
    have hnow : before ++ .removeActor id :: (after ++ later) =
        (before ++ .removeActor id :: after) ++ later := by
      rw [List.append_assoc, List.cons_append]
    rw [hnow, spawnCount_append] at hroom
    have hretired := hworld.retired before after hid hremoved (by omega)
    exact hretired.unresolved (hworld.run _ (by omega)).toSeated

end World

/-- A rat comes in and is taken out, and a second one takes its cell. -/
def ratChanges : List Change :=
  [.spawnActor { name := "rat", position := ⟨1, 0⟩ },
    .spawnActor { name := "rat", position := ⟨1, 0⟩ },
    .removeActor ⟨1⟩,
    .spawnActor { name := "rat", position := ⟨1, 0⟩ },
    .moveActor ⟨2⟩ ⟨1, 1⟩]

/-- The rat that is refused uses up no handle, and the one that takes the cell gets a new one. -/
theorem ratChanges_retire :
    yard.IsNew ∧ yard.spawnCount ratChanges < 2 ^ 32 - 1 ∧
      yard.issued ratChanges = [⟨1⟩, ⟨2⟩] ∧
      (yard.issued ratChanges).Pairwise (fun earlier later ↦ earlier.number < later.number) ∧
      (yard.run ratChanges).actor? ⟨1⟩ = none ∧
      (yard.run ratChanges).moveActor ⟨1⟩ ⟨1, 0⟩ = .error (.unknownActor ⟨1⟩) ∧
      ((yard.run ratChanges).actor? ⟨2⟩).isSome = true := by
  have hnew : yard.IsNew := Or.inr ⟨["..#", "*.."], by decide +kernel⟩
  have hroom : yard.spawnCount ratChanges < 2 ^ 32 - 1 := by decide +kernel
  obtain ⟨-, hascending, hretired⟩ := World.run_retires hnew ratChanges hroom
  obtain ⟨hnobody, -, hunmoved, -⟩ := hretired (ratChanges.take 2) ⟨1⟩ (ratChanges.drop 3) []
    rfl (by decide) (by decide +kernel)
  exact ⟨hnew, hroom, by decide +kernel, hascending, hnobody, hunmoved _, by decide +kernel⟩

end Delve

import Delve.Proofs.Task.Frame
/-!
# Where a tick of a task can take an actor

A tick moves an actor to a neighbouring cell at most, and only to one without an obstacle. As the
ground only opens meanwhile, nobody ever comes to stand on an obstacle.
-/

namespace Delve

namespace World

variable {w w' : World} {id : ActorId} {a : Actor}

/-- Nobody stands on an obstacle. -/
def Clear (w : World) : Prop :=
  ∀ (id : ActorId) (a : Actor), w.actor? id = some a → w.isObstacle a.position = false

/-- A world after a tick: nobody is new, and whoever has moved has gone to a neighbouring cell that
was free of obstacles. -/
structure Strides (w w' : World) : Prop where
  opens : w.Opens w'
  actor : ∀ (i : ActorId) (a' : Actor), w'.actor? i = some a' → ∃ a, w.actor? i = some a ∧
    (a'.position = a.position ∨
      a.position.isNeighbor a'.position = true ∧ w.isObstacle a'.position = false)

theorem strides_of_actors_eq (hopens : w.Opens w') (hactors : w'.actors = w.actors) :
    w.Strides w' := by
  refine ⟨hopens, fun i a' ha' ↦ ⟨a', ?_, Or.inl rfl⟩⟩
  rwa [actor?, ← hactors]

theorem Strides.refl (w : World) : w.Strides w := strides_of_actors_eq (SameGround.refl w).opens rfl

theorem strides_relocate {goal : Position} (ha : w.actor? id = some a)
    (hnear : a.position.isNeighbor goal = true) (hfree : w.canEnter goal = true) :
    w.Strides (w.relocate id a goal) := by
  refine ⟨SameGround.opens ⟨rfl, rfl, rfl⟩, fun i a' ha' ↦ ?_⟩
  have ha' : (w.actors.insert id { a with position := goal })[i]? = some a' := ha'
  rcases getElem?_insert_eq_some ha' with ⟨rfl, rfl⟩ | hother
  · exact ⟨a, ha, Or.inr ⟨hnear, (canEnter_iff.mp hfree).1⟩⟩
  · exact ⟨a', hother, Or.inl rfl⟩

/-- Whatever happens to an actor on its cell does not count. -/
theorem Strides.modifyActor (h : w.Strides w') {change : Actor → Actor}
    (hposition : ∀ a, w'.actor? id = some a → (change a).position = a.position) :
    w.Strides (w'.modifyActor id change) := by
  refine ⟨h.opens.trans (sameGround_modifyActor w' id change).opens, fun i a' ha' ↦ ?_⟩
  rw [actor_modifyActor] at ha'
  split at ha'
  · rename_i hi
    subst hi
    obtain ⟨b, hb, rfl⟩ := Option.map_eq_some_iff.mp ha'
    rw [hposition b hb]
    exact h.actor id b hb
  · exact h.actor i a' ha'

theorem Clear.strides (hw : w.Clear) (h : w.Strides w') : w'.Clear := by
  intro i a' ha'
  obtain ⟨a, ha, hcell⟩ := h.actor i a' ha'
  apply h.opens.isObstacle_eq_false
  rcases hcell with hstay | ⟨-, hfree⟩
  · rw [hstay]
    exact hw i a ha
  · exact hfree

theorem Clear.vacate (hw : w.Clear) : (w.vacate id a).Clear := by
  intro i b hb
  have hb : (w.actors.erase id)[i]? = some b := hb
  exact hw i b (getElem?_of_erase hb)

end World

variable {s acted s' : Scene}

theorem Deed.strides (h : Deed s acted) : s.world.Strides acted.world := by
  cases h with
  | wait => exact .refl s.world
  | step actor near free => exact World.strides_relocate actor near free
  | @blow attacker defender chance =>
    obtain ⟨damage, heq⟩ := strike_context s attacker defender chance
    rw [heq]
    exact (World.Strides.refl s.world).modifyActor fun _ _ ↦ rfl
  | drink => exact (World.Strides.refl s.world).modifyActor fun _ _ ↦ position_quaff _ _
  | @pick a richer place item world actor taken received =>
    obtain ⟨-, rfl⟩ := World.takeItem_eq_some taken
    have hground : s.world.Strides (s.world.withPile a.position
        ((s.world.itemsAt a.position).eraseIdx place)) :=
      World.strides_of_actors_eq (World.SameGround.opens ⟨rfl, rfl, rfl⟩) rfl
    -- the actor is replaced, but by what it has become with the item
    refine hground.modifyActor fun b hb ↦ ?_
    have hb : s.actor? = some b := hb
    rw [actor] at hb
    cases hb
    exact position_of_receive received
  | dig rock => exact World.strides_of_actors_eq (World.opens_dug rock) rfl

theorem Task.Outcome.strides {t : Task} {status : Status} (h : Task.Outcome t s status s') :
    s.world.Strides s'.world := by
  cases h with
  | done _ deed => exact deed.strides.modifyActor fun _ _ ↦ rfl
  | refused | givenUp | waiting | noted | arrived => exact .refl s.world

end Delve

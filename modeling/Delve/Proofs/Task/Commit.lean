import Delve.Brain.Basic
import Delve.Proofs.Task.Outcome
/-!
# Tasks commit wholly or not at all

A task that fails or goes on waiting leaves the world and the dice as they were. A task that
succeeds has its turn paid for, once and after the deed, unless it has only noted a cell or
arrived at one.
-/

namespace Delve

/-! ## 1. Energy -/

/-- A change that leaves an actor its energy leaves everybody their energy. -/
theorem energy_modifyActor {w : World} {id : ActorId} {change : Actor → Actor}
    (h : ∀ a, w.actor? id = some a → (change a).energy = a.energy) (i : ActorId) :
    ((w.modifyActor id change).actor? i).map (·.energy) = (w.actor? i).map (·.energy) := by
  rw [World.actor_modifyActor]
  split
  · rename_i hi
    subst hi
    cases ha : w.actor? id with
    | none => rfl
    | some a =>
      rw [Option.map_some, Option.map_some, Option.map_some, h a ha]
  · rfl

theorem energy_receiveDamage (a : Actor) (amount : UInt32) :
    (a.receiveDamage amount).2.energy = a.energy := rfl

theorem energy_quaff (a : Actor) (potion : Item) : (a.quaff potion).energy = a.energy := by
  unfold Actor.quaff
  split <;> rfl

theorem energy_of_receive {a richer : Actor} {item : Item} (h : a.receive? item = some richer) :
    richer.energy = a.energy := by
  unfold Actor.receive? at h
  split at h
  · cases h
    rfl
  · obtain ⟨inventory, -, rfl⟩ := Option.map_eq_some_iff.mp h
    rfl

/-- A deed does not touch the energy of the actor that does it; the price is paid apart. -/
theorem Deed.energy_eq {s acted : Scene} (h : Deed s acted) :
    Brain.energy? acted s.focus = Brain.energy? s s.focus := by
  unfold Brain.energy?
  cases h with
  | wait => rfl
  | @step a goal dice ha =>
    have ha : s.world.actor? s.focus = some a := ha
    show ((s.world.actors.insert s.focus { a with position := goal })[s.focus]?).map (·.energy) =
      (s.world.actor? s.focus).map (·.energy)
    rw [getElem?_insert_eq_ite, if_pos rfl, ha]
    rfl
  | @blow a defender chance =>
    exact energy_modifyActor (fun b _ ↦ energy_receiveDamage b _) s.focus
  | @drink a slot potion inventory dice =>
    exact energy_modifyActor (fun b _ ↦ energy_quaff { b with inventory } potion) s.focus
  | @pick a richer place item world ha htaken hreceived =>
    -- the actor is replaced, but by what it has become with the item
    obtain ⟨-, rfl⟩ := World.takeItem_eq_some htaken
    refine energy_modifyActor (fun b hb ↦ ?_) s.focus
    have hb : s.actor? = some b := hb
    rw [ha] at hb
    cases hb
    exact energy_of_receive hreceived
  | dig => rfl

theorem Deed.focus_eq {s acted : Scene} (h : Deed s acted) : acted.focus = s.focus := by
  cases h <;> rfl

theorem Deed.rules_eq {s acted : Scene} (h : Deed s acted) : acted.rules = s.rules := by
  cases h <;> rfl

theorem Task.Outcome.rules_eq {t : Task} {s s' : Scene} {status : Status}
    (h : Task.Outcome t s status s') : s'.rules = s.rules := by
  cases h with
  | done _ deed => exact deed.rules_eq
  | refused | givenUp | waiting | noted | arrived => rfl

theorem energy_finishTurn (s : Scene) :
    Brain.energy? s.finishTurn s.focus =
      (Brain.energy? s s.focus).map (·.subClamp s.rules.turnReady) := by
  show ((s.world.modifyActor s.focus (·.finishTurn s.rules.turnReady)).actor? s.focus).map
    (·.energy) = ((s.world.actor? s.focus).map (·.energy)).map (·.subClamp s.rules.turnReady)
  rw [World.actor_modifyActor, if_pos rfl, Option.map_map, Option.map_map]
  rfl

/-! ## 2. Commitment -/

/-- One turn lies between the scenes: something has been done that cost the actor in focus no
energy, and then the actor has paid for the turn. -/
def Scene.PaysOnce (before after : Scene) : Prop :=
  ∃ acted : Scene, acted.focus = before.focus ∧ acted.rules = before.rules ∧
    Brain.energy? acted before.focus = Brain.energy? before before.focus ∧
    after = acted.finishTurn

theorem Deed.paysOnce {s acted : Scene} (h : Deed s acted) : s.PaysOnce acted.finishTurn :=
  ⟨acted, h.focus_eq, h.rules_eq, h.energy_eq, rfl⟩

theorem Scene.PaysOnce.energy_eq {s s' : Scene} (h : s.PaysOnce s') :
    Brain.energy? s' s.focus =
      (Brain.energy? s s.focus).map (·.subClamp s.rules.turnReady) := by
  obtain ⟨acted, hfocus, hrules, henergy, rfl⟩ := h
  rw [← henergy, ← hrules, ← hfocus]
  exact energy_finishTurn acted

/-- Whatever a task keeps from earlier turns, its turn comes to an end, and it commits wholly or
not at all. -/
theorem Task.tick_commits (t : Task) {s : Scene} {a : Actor} (hworld : s.world.Seated)
    (ha : s.actor? = some a) (hfair : s.rules.Fair) :
    ∃ r, t.tick s = .ok r ∧ r.status ≠ .undefined ∧
      (r.status = .failure ∨ r.status = .running ∨ t.IsFree s →
        r.context.world = s.world ∧ r.context.dice = s.dice) ∧
      (r.status = .success → ¬ t.IsFree s →
        s.PaysOnce r.context ∧
          Brain.energy? r.context s.focus = some (a.energy.subClamp s.rules.turnReady)) := by
  obtain ⟨⟨status, t', s'⟩, htick, houtcome⟩ := t.tick_outcome hworld hfair
  have henergy : Brain.energy? s s.focus = some a.energy := by
    have ha : s.world.actor? s.focus = some a := ha
    rw [Brain.energy?, ha, Option.map_some]
  refine ⟨_, htick, ?_⟩
  dsimp only at houtcome ⊢
  cases houtcome with
  | refused => exact ⟨by decide, fun _ ↦ ⟨rfl, rfl⟩, by rintro ⟨⟩⟩
  | givenUp => exact ⟨by decide, fun _ ↦ ⟨rfl, rfl⟩, by rintro ⟨⟩⟩
  | waiting => exact ⟨by decide, fun _ ↦ ⟨rfl, rfl⟩, by rintro ⟨⟩⟩
  | noted htask =>
    subst htask
    exact ⟨by decide, fun _ ↦ ⟨rfl, rfl⟩, fun _ hbusy ↦ absurd trivial hbusy⟩
  | arrived htask hfree =>
    exact ⟨by decide, fun _ ↦ ⟨rfl, rfl⟩, fun _ hbusy ↦ absurd hfree hbusy⟩
  | done hbusy hdeed =>
    refine ⟨by decide, ?_, ?_⟩
    · rintro (hfailure | hrunning | hfree)
      · cases hfailure
      · cases hrunning
      · exact absurd hfree hbusy
    · intro _ _
      have hpays := hdeed.paysOnce
      refine ⟨hpays, ?_⟩
      rw [hpays.energy_eq, henergy, Option.map_some]

/-- A rat beside the player. -/
def ambush : Scene where
  focus := ⟨1⟩
  world :=
    { (World.ofExtent ⟨2, 1⟩).settle .player { name := "hero", position := ⟨0, 0⟩ } with
      playerId := some .player }.settle ⟨1⟩ { name := "rat", position := ⟨1, 0⟩, energy := 150 }
  memory := .empty
  dice := { seed := 7 }
  rules := {}

theorem ambush_seated : ambush.world.Seated := by
  have hground := (World.ofExtent_consistent ⟨2, 1⟩).toSeated
  have hplayer := hground.settlePlayer (a := { name := "hero", position := ⟨0, 0⟩ })
    (by decide +kernel) (by decide +kernel)
  exact hplayer.settle (by decide +kernel) (by decide +kernel)

/-- The rat strikes and pays for the blow, whether it lands or not. -/
theorem ambush_commits :
    ambush.world.Seated ∧ ambush.actor?.map (·.energy) = some 150 ∧ ambush.rules.Fair ∧
      ∃ r, (Task.attack none).tick ambush = .ok r ∧ r.status = .success ∧
        Brain.energy? r.context ⟨1⟩ = some 50 := by
  have hactor : ambush.actor? = some ⟨⟨1⟩, "rat", ⟨1, 0⟩, {}, .full 10, .empty, 150,
      .empty Inventory.defaultCapacity, 0, 0⟩ := by
    decide +kernel
  have hfair : ambush.rules.Fair := ⟨by decide, by decide⟩
  obtain ⟨r, htick, -, -, hpaid⟩ :=
    Task.tick_commits (.attack none) ambush_seated hactor hfair
  have hsuccess : ((Task.attack none).tick ambush).map (·.status) = .ok .success := by
    decide +kernel
  rw [htick] at hsuccess
  have hstatus : r.status = .success := Except.ok.inj hsuccess
  refine ⟨ambush_seated, by rw [hactor]; rfl, hfair, r, htick, hstatus, ?_⟩
  rw [show (⟨1⟩ : ActorId) = ambush.focus from rfl, (hpaid hstatus id).2]
  rfl

end Delve

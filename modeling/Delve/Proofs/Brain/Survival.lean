import Delve.Proofs.Brain.Conduct
/-!
# Nobody dies of its own doing

Blows are dealt to others, and potions add to the health as far as its maximum allows. So an actor
that is alive lives through its own turns. Only where the maximum is 0, which no meter that is made
for somebody alive has, would a draught be the end of it.
-/

namespace Delve

/-- Alive, with room for health. -/
def Actor.Thrives (a : Actor) : Prop := a.isAlive = true ∧ 0 < a.hp.maximum

/-- The actor is there and thrives. -/
def Scene.Thrives (id : ActorId) (s : Scene) : Prop :=
  ∃ a, s.world.actor? id = some a ∧ a.Thrives

variable {a b : Actor} {s s' acted : Scene} {id : ActorId}

/-! ## 1. Deeds -/

theorem Actor.isAlive_iff : a.isAlive = true ↔ 0 < a.hp.current.toNat := by
  rw [isAlive, Meter.isEmpty, Bool.not_eq_true', beq_eq_false_iff_ne, ne_eq, ← UInt32.toNat_inj,
    UInt32.toNat_zero, Nat.pos_iff_ne_zero]

theorem Actor.Thrives.of_hp_eq (h : a.Thrives) (hhp : b.hp = a.hp) : b.Thrives := by
  rw [Thrives, isAlive_iff, hhp, ← isAlive_iff]
  exact h

theorem Actor.Thrives.quaff (h : a.Thrives) (potion : Item) : (a.quaff potion).Thrives := by
  unfold Actor.quaff
  split
  · refine ⟨?_, h.2⟩
    have halive := isAlive_iff.mp h.1
    have hroom : 0 < a.hp.maximum.toNat := UInt32.lt_iff_toNat_lt.mp h.2
    have hfilled := a.hp.toNat_restore potion.potency
    -- the health has grown, or it fills the room that there is
    refine isAlive_iff.mpr ?_
    show 0 < (a.hp.restore potion.potency).2.current.toNat
    omega
  all_goals exact h.of_hp_eq rfl

theorem Scene.Thrives.modifyActor (h : s.Thrives id) (i : ActorId) {change : Actor → Actor}
    (hchange : ∀ a, i = id → s.world.actor? id = some a → a.Thrives → (change a).Thrives) :
    { s with world := s.world.modifyActor i change }.Thrives id := by
  obtain ⟨a, ha, hthrives⟩ := h
  show ∃ b, (s.world.modifyActor i change).actor? id = some b ∧ b.Thrives
  rw [World.actor_modifyActor]
  split
  · rename_i hi
    rw [ha]
    exact ⟨change a, rfl, hchange a hi ha hthrives⟩
  · exact ⟨a, ha, hthrives⟩

theorem Scene.Thrives.finishTurn (h : s.Thrives id) : s.finishTurn.Thrives id :=
  h.modifyActor s.focus fun _ _ _ hthrives ↦ hthrives.of_hp_eq rfl

end Delve

import Delve.Proofs.Task.Stir
import Delve.Proofs.Tree.Invariant
/-!
# What a tick of a task does to the ground

Only the two tasks that mine change the ground, and only when they succeed: then one cell with rock
on it has been dug out. This takes no well-formed world and no fair rules.
-/

namespace Delve

variable {s s' : Scene} {t : Task} {r : Step Task Scene}

/-! ## 1. Drinking and picking up -/

/-- The tick has either dug out a cell with rock on it and succeeded, or left the ground alone and
failed. Nothing has changed hands in either case. -/
def Digs (s : Scene) (status : Status) (s' : Scene) : Prop :=
  (status = .success ∧ ∃ cell, s.world.isMineable cell = true ∧
      (s.world.dug cell).Stirs s'.world) ∨
    status = .failure ∧ s.world.Stirs s'.world

theorem digs_dig (cell : Position) (s : Scene) : Digs s (dig cell s).1 (dig cell s).2 := by
  by_cases hrock : s.world.isMineable cell = true
  · rw [dig_of_isMineable hrock]
    exact Or.inl ⟨rfl, cell, hrock, .finishTurn (.refl (s.world.dug cell))⟩
  · rw [dig, World.mine, if_neg hrock]
    exact Or.inr ⟨rfl, .refl s.world⟩

theorem digs_mineBlock (s : Scene) : Digs s (mineBlock s).1 (mineBlock s).2 := by
  unfold mineBlock
  split
  · exact Or.inr ⟨rfl, .refl s.world⟩
  · rename_i own _
    rcases s.choose_cases (own.orthogonalNeighbors.filter s.world.isMineable) with
      hnone | ⟨cell, -, hsome⟩
    · rw [hnone]
      exact Or.inr ⟨rfl, .refl s.world⟩
    · rw [hsome]
      exact digs_dig cell { s with dice := s.dice.rolled }

theorem digs_mineTunnel (s : Scene) : Digs s (mineTunnel s).1 (mineTunnel s).2 := by
  unfold mineTunnel
  split
  · exact Or.inr ⟨rfl, .refl s.world⟩
  · split
    · exact Or.inr ⟨rfl, .refl s.world⟩
    · split
      · exact Or.inr ⟨rfl, .refl s.world⟩
      · dsimp only
        split
        · exact digs_dig _ s
        · exact Or.inr ⟨rfl, .refl s.world⟩

/-! ## 3. Every task -/

/-- Whether a task mines. -/
def Task.isMining : Task → Bool
  | mineBlock | mineTunnel => true
  | idle | wander | retreat | chase _ | attack _ | remember | goTo _ | drink _ | pickUp _ => false

/-- Whether rock has been dug out in a tick. -/
def Tick.HasMined (t : Tick Task Scene) : Prop := t.task.isMining = true ∧ t.status = .success

instance (t : Tick Task Scene) : Decidable t.HasMined := inferInstanceAs (Decidable (_ ∧ _))

/-- What a tick does to the ground: one cell is dug out, or all stays as it was. -/
def Tick.Mines (t : Tick Task Scene) : Prop :=
  (t.HasMined ∧ ∃ cell, t.before.world.isMineable cell = true ∧
      (t.before.world.dug cell).SameGround t.after.world) ∨
    ¬ t.HasMined ∧ t.before.world.SameGround t.after.world

theorem Tick.Mines.opens {t : Tick Task Scene} (h : t.Mines) :
    t.before.world.Opens t.after.world := by
  rcases h with ⟨-, cell, hrock, hdug⟩ | ⟨-, hsame⟩
  · exact (World.opens_dug hrock).trans hdug.opens
  · exact hsame.opens

/-- Every tick that has mined has cost the world a rock, and no other tick has. -/
theorem Tick.Mines.rockCount_eq {t : Tick Task Scene} (h : t.Mines) :
    t.after.world.rockCount + (if t.HasMined then 1 else 0) = t.before.world.rockCount := by
  rcases h with ⟨hmined, cell, hrock, hdug⟩ | ⟨hnot, hsame⟩
  · rw [if_pos hmined, hdug.rockCount_eq, World.rockCount_dug hrock]
  · rw [if_neg hnot, hsame.rockCount_eq, Nat.add_zero]

end Delve

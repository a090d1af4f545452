import Delve.Proofs.Task.Hunt
/-!
# Retreating

Whoever retreats looks at the free cells around its own one after another and keeps the first that
is farther from the player than all before it. In a world the distances fit their words, so what is
kept in the end is the first of the farthest cells, or nothing where no cell is farther than the
actor's own. And a cell that is offered is one that can be stepped onto, so the step is never
refused. The main statement is `retreat_firstFarthest`.
-/

namespace Delve

/-! ## 1. The farthest cell -/

/-- The first of the cells that lie farthest from `threat`. -/
def Position.FirstFarthest (threat : Position) (cells : List Position) (goal : Position) : Prop :=
  ∃ before after, cells = before ++ goal :: after ∧
    (∀ q ∈ before, q.separation threat < goal.separation threat) ∧
      ∀ q ∈ after, q.separation threat ≤ goal.separation threat

namespace Position

variable {threat goal cell : Position} {cells : List Position}

theorem FirstFarthest.mem (h : threat.FirstFarthest cells goal) : goal ∈ cells := by
  obtain ⟨before, after, rfl, -, -⟩ := h
  exact List.mem_append_right before List.mem_cons_self

/-- A nearer cell in front does not count. -/
theorem FirstFarthest.cons (h : threat.FirstFarthest cells goal)
    (hcell : cell.separation threat < goal.separation threat) :
    threat.FirstFarthest (cell :: cells) goal := by
  obtain ⟨before, after, rfl, hbefore, hafter⟩ := h
  exact ⟨cell :: before, after, rfl, List.forall_mem_cons.mpr ⟨hcell, hbefore⟩, hafter⟩

/-- The distance is measured in words, which it fits. -/
def Measured (threat cell : Position) : Prop :=
  (cell.blockDistance threat).toNat = cell.separation threat

/-- What is kept after some cells: a distance, and the cell that has it. -/
def farther (threat : Position) (kept : UInt32 × Option Position) (cell : Position) :
    UInt32 × Option Position :=
  if kept.1 < cell.blockDistance threat then (cell.blockDistance threat, some cell) else kept

/-- By induction on the cells, from any distance that is kept: the first cell is kept if it is
farther, and then the others have to be farther than it. -/
theorem foldl_farther_cases (hcells : ∀ q ∈ cells, threat.Measured q)
    (kept : UInt32 × Option Position) :
    (∀ q ∈ cells, q.separation threat ≤ kept.1.toNat) ∧
        cells.foldl threat.farther kept = kept ∨
      ∃ goal, threat.FirstFarthest cells goal ∧ kept.1.toNat < goal.separation threat ∧
        cells.foldl threat.farther kept = (goal.blockDistance threat, some goal) := by
  induction cells generalizing kept with
  | nil => exact Or.inl ⟨nofun, rfl⟩
  | cons cell cells ih =>
    obtain ⟨hcell, hcells⟩ := List.forall_mem_cons.mp hcells
    have hcell : (cell.blockDistance threat).toNat = cell.separation threat := hcell
    rw [List.foldl_cons, farther]
    by_cases hfar : kept.1 < cell.blockDistance threat
    · rw [if_pos hfar]
      rw [UInt32.lt_iff_toNat_lt, hcell] at hfar
      refine Or.inr ?_
      rcases ih hcells (cell.blockDistance threat, some cell) with
        ⟨hnear, hlast⟩ | ⟨goal, hgoal, hlt, hlast⟩
      · rw [hcell] at hnear
        exact ⟨cell, ⟨[], cells, rfl, nofun, hnear⟩, hfar, hlast⟩
      · rw [hcell] at hlt
        exact ⟨goal, hgoal.cons hlt, hfar.trans hlt, hlast⟩
    · rw [if_neg hfar]
      rw [UInt32.lt_iff_toNat_lt, hcell, Nat.not_lt] at hfar
      rcases ih hcells kept with ⟨hnear, hlast⟩ | ⟨goal, hgoal, hlt, hlast⟩
      · exact Or.inl ⟨List.forall_mem_cons.mpr ⟨hfar, hnear⟩, hlast⟩
      · exact Or.inr ⟨goal, hgoal.cons (Nat.lt_of_le_of_lt hfar hlt), hlt, hlast⟩

end Position

theorem farthest?_cases {threat own : Position} {cells : List Position}
    (hown : threat.Measured own) (hcells : ∀ q ∈ cells, threat.Measured q) :
    (∀ q ∈ cells, q.separation threat ≤ own.separation threat) ∧
        farthest? threat (own.blockDistance threat) cells = none ∨
      ∃ goal, threat.FirstFarthest cells goal ∧
        own.separation threat < goal.separation threat ∧
        farthest? threat (own.blockDistance threat) cells = some goal := by
  have hown : (own.blockDistance threat).toNat = own.separation threat := hown
  have hfold : farthest? threat (own.blockDistance threat) cells =
      (cells.foldl threat.farther (own.blockDistance threat, none)).2 := rfl
  rw [hfold, ← hown]
  rcases Position.foldl_farther_cases hcells (own.blockDistance threat, none) with
    ⟨hnear, hlast⟩ | ⟨goal, hgoal, hlt, hlast⟩
  · exact Or.inl ⟨hnear, congrArg Prod.snd hlast⟩
  · exact Or.inr ⟨goal, hgoal, hlt, congrArg Prod.snd hlast⟩

/-- Across a world, distances fit their words. -/
theorem World.measured {w : World} {p q : Position} (hp : w.inBounds p = true)
    (hq : w.inBounds q = true) : p.Measured q := by
  have hp := (w.extent.contains_iff p).mp hp
  have hq := (w.extent.contains_iff q).mp hq
  have hwidth := w.extent.width.toInt32.toInt_lt
  have hheight := w.extent.height.toInt32.toInt_lt
  apply Position.toNat_blockDistance
  unfold Position.separation
  omega

/-! ## 2. The step away -/

variable {s : Scene} {own hero : Actor}

/-- Whoever retreats fails and changes nothing exactly if none of the free cells around its own is
farther from the player. Otherwise it steps onto the first of the farthest ones, which takes a turn,
and the player is where it was. -/
theorem retreat_firstFarthest (hworld : s.world.Consistent) (hown : s.actor? = some own)
    (hfocus : s.focus ≠ .player) (hhero : s.world.player? = some hero)
    (halive : hero.isAlive = true) :
    ∃ status s', Task.retreat.tick s = .ok ⟨status, .retreat, s'⟩ ∧
      (status = .failure ↔ ∀ q ∈ own.position.neighbors, s.world.canEnter q = true →
        q.separation hero.position ≤ own.position.separation hero.position) ∧
      (status = .failure → s' = s) ∧
      (status ≠ .failure → status = .success ∧ ∃ goal,
        hero.position.FirstFarthest (own.position.neighbors.filter s.world.canEnter) goal ∧
        own.position.separation hero.position < goal.separation hero.position ∧
        s' = s.withHunter (own.finishTurn s.rules.turnReady) goal ∧
        s'.position? = some goal ∧ s'.targetPosition? = some hero.position) := by
  obtain ⟨hplayer, hactor, hid⟩ := hworld.toEnrolled.actor_player hhero
  have hother : s.world.playerId ≠ some s.focus := by
    rw [hplayer]
    exact fun h ↦ hfocus (Option.some.inj h).symm
  have htarget : s.targetPosition? = some hero.position :=
    Scene.targetPosition_of_isAlive hhero halive (hid ▸ hfocus.symm)
  have hthere : s.world.inBounds hero.position = true := hworld.inBounds _ hero hactor
  have hmeasured : ∀ q ∈ s.world.walkableNeighbors own.position, hero.position.Measured q :=
    fun q hq ↦ World.measured hthere (World.inBounds_of_canEnter (List.mem_filter.mp hq).2)
  have htick : Task.retreat.tick s = .ok ⟨(retreat s).1, .retreat, (retreat s).2⟩ := rfl
  rw [htick, retreat_eq hown htarget]
  rcases farthest?_cases (World.measured hthere (hworld.inBounds _ own hown)) hmeasured with
    ⟨hnear, hnone⟩ | ⟨goal, hgoal, hfar, hsome⟩
  · rw [hnone]
    refine ⟨.failure, s, rfl, iff_of_true rfl fun q hq hfree ↦ ?_, fun _ ↦ rfl,
      fun h ↦ absurd rfl h⟩
    exact hnear q (List.mem_filter.mpr ⟨hq, hfree⟩)
  · obtain ⟨hstep, hfree⟩ := isNeighbor_of_mem_walkableNeighbors hworld.inBounds hown hgoal.mem
    have hwalk : s.walkTo (some goal) =
        (.success, s.withHunter (own.finishTurn s.rules.turnReady) goal) := by
      rw [← Scene.finishTurn_withHunter]
      exact Scene.walk_of_canEnter hown hstep hfree
    rw [hsome, hwalk]
    refine ⟨.success, _, rfl, iff_of_false nofun fun hnear ↦ ?_, nofun, fun _ ↦ ⟨rfl, goal, hgoal,
      hfar, rfl, Scene.position_withHunter s _ goal, ?_⟩⟩
    · exact absurd (hnear goal (List.mem_filter.mp hgoal.mem).1 hfree) (Nat.not_le.mpr hfar)
    · rw [Scene.targetPosition_withHunter hother, htarget]

/-- A rat beside a hero, with room behind it. -/
def clearing : Scene :=
  { Hunt.alley with
    world :=
      (Change.spawnActor { name := "rat", position := ⟨1, 1⟩ }).apply
        ((Change.spawnPlayer { name := "hero", position := ⟨0, 1⟩ }).apply (.ofExtent ⟨3, 3⟩)) }

theorem clearing_consistent : clearing.world.Consistent := by
  have hground := World.ofExtent_consistent ⟨3, 3⟩
  have hhero := Change.consistent_apply hground
    (c := .spawnPlayer { name := "hero", position := ⟨0, 1⟩ }) (by decide +kernel)
  exact (Change.consistent_apply hhero.1
    (c := .spawnActor { name := "rat", position := ⟨1, 1⟩ }) (by decide +kernel)).1

/-- Of the two farthest corners the rat takes the one that comes first. At the end of the alley
there is nowhere to go. -/
theorem clearing_retreat :
    clearing.world.Consistent ∧ Hunt.alley.world.Consistent ∧
      (∃ s', Task.retreat.tick clearing = .ok ⟨.success, .retreat, s'⟩ ∧
        s'.position? = some ⟨2, 0⟩ ∧ s'.targetPosition? = some ⟨0, 1⟩) ∧
      Task.retreat.tick Hunt.alley = .ok ⟨.failure, .retreat, Hunt.alley⟩ := by
  refine ⟨clearing_consistent, Hunt.alley_consistent, ?_, ?_⟩
  · have hrat : clearing.actor? = some { id := ⟨1⟩, name := "rat", position := ⟨1, 1⟩ } := by
      decide +kernel
    have hhero : clearing.world.player? = some { name := "hero", position := ⟨0, 1⟩ } := by
      decide +kernel
    obtain ⟨status, s', htick, -, -, haway⟩ :=
      retreat_firstFarthest clearing_consistent hrat (by decide) hhero (by decide)
    have hresult : (Task.retreat.tick clearing).map (fun r ↦ (r.status, r.context.position?)) =
        .ok (.success, some ⟨2, 0⟩) := by
      decide +kernel
    rw [htick] at hresult
    obtain ⟨rfl, hcell⟩ := Prod.mk.inj (Except.ok.inj hresult)
    obtain ⟨-, _, -, -, -, -, htarget⟩ := haway nofun
    exact ⟨s', htick, hcell, htarget⟩
  · have hrat : Hunt.alley.actor? = some { id := ⟨1⟩, name := "rat", position := ⟨0, 0⟩ } := by
      decide +kernel
    have hhero : Hunt.alley.world.player? = some { name := "hero", position := ⟨3, 0⟩ } := by
      decide +kernel
    obtain ⟨status, s', htick, hcornered, hsame, -⟩ :=
      retreat_firstFarthest Hunt.alley_consistent hrat (by decide) hhero (by decide)
    obtain rfl := hcornered.mpr (by decide +kernel)
    rw [htick, hsame rfl]

end Delve

import Delve.Proofs.Route.Following
import Delve.Proofs.Task.Outcome
import Delve.Proofs.World.History
/-!
# Hunting a player that keeps still

A chase looks for a route once and follows it from turn to turn, and every turn asks again whether
the route is still good. While nobody else stirs it always is: the player stays where the route
ends, the hunter is beside the next cell, and the cells on the way were free when the route was
found and are passed by nobody but the hunter. So the hunter comes up to the player cell by cell and
looks for no other route.
-/

namespace Delve

/-! ## 1. A hunter on another cell -/

namespace World

variable {w : World} {id : ActorId}

/-- Who is the player, and how it stands, does not depend on where anybody else is. -/
theorem player_relocate (h : w.playerId ≠ some id) (a : Actor) (p : Position) :
    (w.relocate id a p).player? = w.player? := by
  show w.playerId.bind (w.relocate id a p).actor? = w.playerId.bind w.actor?
  cases hid : w.playerId with
  | none => rfl
  | some player =>
    have hne : id ≠ player := by
      rintro rfl
      exact h hid
    exact getElem?_insert_of_ne w.actors hne _

theorem Enrolled.actor_player {hero : Actor} (h : w.Enrolled) (hhero : w.player? = some hero) :
    w.playerId = some .player ∧ w.actor? .player = some hero ∧ hero.id = .player := by
  obtain ⟨id, hid, hactor⟩ := Option.bind_eq_some_iff.mp hhero
  have hplayer : some id = some ActorId.player := by
    have hknown := h.playerId_eq
    rw [hid] at hknown
    split at hknown
    · exact hknown
    · cases hknown
  obtain rfl := Option.some.inj hplayer
  exact ⟨hid, hactor, h.id_eq .player hero hactor⟩

end World

namespace Scene

variable {s : Scene} {b : Actor} {p q : Position}

/-- The player is hunted by everybody else while it lives. -/
theorem targetPosition_of_isAlive {hero : Actor} (hhero : s.world.player? = some hero)
    (halive : hero.isAlive = true) (hother : hero.id ≠ s.focus) :
    s.targetPosition? = some hero.position := by
  rw [targetPosition?, target?, hhero, Option.filter_some, halive, bne_iff_ne.mpr hother]
  rfl

/-- The scene with the actor in focus, as it is now, on another cell. -/
def withHunter (s : Scene) (b : Actor) (p : Position) : Scene :=
  { s with world := s.world.relocate s.focus b p }

theorem position_withHunter (s : Scene) (b : Actor) (p : Position) :
    (s.withHunter b p).position? = some p := by
  rw [position?, actor?]
  exact congrArg (Option.map _) (s.world.actor_relocate s.focus b p)

theorem targetPosition_withHunter (h : s.world.playerId ≠ some s.focus) (b : Actor)
    (p : Position) : (s.withHunter b p).targetPosition? = s.targetPosition? := by
  show Option.map _ (Option.filter _ (s.world.relocate s.focus b p).player?) = _
  rw [World.player_relocate h]
  rfl

theorem finishTurn_withHunter (s : Scene) (b : Actor) (p : Position) :
    (s.withHunter b p).finishTurn = s.withHunter (b.finishTurn s.rules.turnReady) p := by
  have hactor := s.world.actor_relocate s.focus b p
  show { s with world := (s.world.relocate s.focus b p).modifyActor s.focus _ } = _
  rw [World.modifyActor_of_some hactor]
  show { s with world := { s.world.relocate s.focus b p with
    actors := (s.world.relocate s.focus b p).actors.insert s.focus _ } } = _
  rw [World.relocate, insert_insert]
  rfl

theorem stepTo_withHunter (hp : p = b.position ∨ s.world.occupants[p]? = none)
    (hnear : p.isNeighbor q = true) (hown : q ≠ b.position) (hq : s.world.canEnter q = true) :
    (s.withHunter b p).stepTo q = .ok (s.withHunter b q) := by
  show Except.map _ ((s.world.relocate s.focus b p).moveActor s.focus q) = _
  rw [World.moveActor_relocate hp hnear hown hq]
  rfl

end Scene

/-! ## 2. One turn -/

namespace Chase

variable {s : Scene} {b : Actor} {own target p next : Position} {rest : List Position}
  {searches : UInt32}

theorem tick_of_target (c : Chase) (hown : s.position? = some own)
    (htarget : s.targetPosition? = some target) :
    c.tick s = (c.aim s own target).follow s target := by
  rw [tick, hown, htarget]

/-- A route that is still good is kept. -/
theorem aim_of_isNeighbor (hnear : own.isNeighbor next = true) (s : Scene) :
    aim ⟨some ⟨target, next :: rest⟩, searches⟩ s own target =
      ⟨some ⟨target, next :: rest⟩, searches⟩ := by
  have hfresh : Trail.isFresh ⟨target, next :: rest⟩ own target = true := by
    simp only [Trail.isFresh, List.head?_cons, Option.any_some, hnear, beq_self_eq_true,
      Bool.and_true]
  exact if_pos hfresh

theorem aim_of_lost (hfound : (s.route own target).isEmpty = false) :
    aim ⟨none, searches⟩ s own target =
      ⟨some ⟨target, (s.route own target).waypoints.drop 1⟩, searches + 1⟩ := by
  show Chase.mk (if (s.route own target).isEmpty then none else _) _ = _
  rw [hfound]
  rfl

/-- A chase without a route that finds one goes on as if it had been under way on it. -/
theorem tick_of_lost (hown : s.position? = some own) (htarget : s.targetPosition? = some target)
    (hfound : (s.route own target).isEmpty = false)
    (hroute : (s.route own target).waypoints = own :: next :: rest)
    (hnear : own.isNeighbor next = true) :
    tick ⟨none, searches⟩ s = tick ⟨some ⟨target, next :: rest⟩, searches + 1⟩ s := by
  rw [tick_of_target _ hown htarget, tick_of_target _ hown htarget, aim_of_lost hfound,
    aim_of_isNeighbor hnear, hroute]
  rfl

theorem tick_withHunter (htarget : (s.withHunter b p).targetPosition? = some target)
    (hp : p = b.position ∨ s.world.occupants[p]? = none) (hnear : p.isNeighbor next = true)
    (hown : next ≠ b.position) (hnext : s.world.canEnter next = true) (hne : next ≠ target) :
    tick ⟨some ⟨target, next :: rest⟩, searches⟩ (s.withHunter b p) =
      (.success, ⟨some ⟨target, rest⟩, searches⟩,
        s.withHunter (b.finishTurn s.rules.turnReady) next) := by
  rw [tick_of_target _ (s.position_withHunter b p) htarget, aim_of_isNeighbor hnear, follow]
  dsimp only
  rw [if_neg hne, Scene.stepTo_withHunter hp hnear hown hnext]
  dsimp only
  rw [Scene.finishTurn_withHunter]

/-- Beside the player there is nothing left to walk. -/
theorem tick_beside (hown : s.position? = some own) (htarget : s.targetPosition? = some target)
    (hnear : own.isNeighbor target = true) :
    tick ⟨some ⟨target, target :: rest⟩, searches⟩ s = (.failure, ⟨none, searches⟩, s) := by
  rw [tick_of_target _ hown htarget, aim_of_isNeighbor hnear, follow]
  dsimp only
  rw [if_pos rfl]
  rfl

end Chase

/-! ## 3. Turn after turn -/

/-- A chase and what it works on, with how the last turn went once there has been one. -/
structure Hunt where
  chase : Chase
  scene : Scene
  status : Option Status
deriving DecidableEq

namespace Hunt

variable {s : Scene} {own hero b : Actor} {target p : Position} {way : List Position}

/-- The chase of an actor that has not looked for a route yet. -/
def start (s : Scene) : Hunt := ⟨{}, s, none⟩

/-- One more turn, with nothing else happening before it. -/
def turn (h : Hunt) : Hunt :=
  let (status, chase, scene) := h.chase.tick h.scene
  ⟨chase, scene, some status⟩

theorem turn_of_tick {h : Hunt} {status : Status} {chase : Chase} {scene : Scene}
    (htick : h.chase.tick h.scene = (status, chase, scene)) :
    h.turn = ⟨chase, scene, some status⟩ := by
  rw [turn, htick]

/-- The hunt for a player on `target` with the hunter on `p` and the cells `rest` before it. -/
def underWay (s : Scene) (target : Position) (b : Actor) (p : Position) (rest : List Position) :
    Hunt :=
  ⟨{ trail := some ⟨target, rest⟩, searches := 1 }, s.withHunter b p, some .success⟩

theorem turn_underWay {next : Position} {rest : List Position}
    (hother : s.world.playerId ≠ some s.focus) (htarget : s.targetPosition? = some target)
    (hp : p = b.position ∨ s.world.occupants[p]? = none) (hnear : p.isNeighbor next = true)
    (hown : next ≠ b.position) (hne : next ≠ target) (hnext : s.world.canEnter next = true) :
    turn (underWay s target b p (next :: rest)) =
      underWay s target (b.finishTurn s.rules.turnReady) next rest := by
  rw [← Scene.targetPosition_withHunter hother b p] at htarget
  exact turn_of_tick (Chase.tick_withHunter htarget hp hnear hown hnext hne)

theorem turn_beside (hother : s.world.playerId ≠ some s.focus)
    (htarget : s.targetPosition? = some target) (hnear : p.isNeighbor target = true) :
    turn (underWay s target b p [target]) =
      ⟨{ trail := none, searches := 1 }, s.withHunter b p, some .failure⟩ := by
  rw [← Scene.targetPosition_withHunter hother b p] at htarget
  exact turn_of_tick (Chase.tick_beside (s.position_withHunter b p) htarget hnear)

/-- By induction on the turns: the cells behind the hunter are as free as they were at the start,
so that the next cell is asked for in the world of the start. -/
theorem turns_underWay (hother : s.world.playerId ≠ some s.focus)
    (htarget : s.targetPosition? = some target)
    (hp : p = b.position ∨ s.world.occupants[p]? = none)
    (hchain : (p :: way).IsChain fun x y ↦ x.isNeighbor y = true)
    (hfree : ∀ c ∈ way, c ≠ b.position ∧ c ≠ target ∧ s.world.canEnter c = true)
    {k : Nat} (hk : k ≤ way.length) :
    ∃ q, (p :: way)[k]? = some q ∧ turn^[k] (underWay s target b p (way ++ [target])) =
      underWay s target ((·.finishTurn s.rules.turnReady)^[k] b) q (way.drop k ++ [target]) := by
  induction k generalizing p way b with
  | zero => exact ⟨p, rfl, rfl⟩
  | succ k ih =>
    cases way with
    | nil => exact absurd hk (Nat.not_succ_le_zero k)
    | cons c way =>
      obtain ⟨hnear, hrest⟩ := List.isChain_cons_cons.mp hchain
      obtain ⟨hown, hne, hc⟩ := hfree c List.mem_cons_self
      rw [Function.iterate_succ_apply, List.cons_append,
        turn_underWay hother htarget hp hnear hown hne hc, Function.iterate_succ_apply]
      exact ih (Or.inr (World.canEnter_iff.mp hc).2) hrest
        (fun d hd ↦ hfree d (List.mem_cons_of_mem c hd)) (Nat.le_of_succ_le_succ hk)

/-- The hunt after a number of turns, the first of which finds the hunter without a route. -/
def after (s : Scene) (turns : Nat) : Hunt := turn^[turns] (start s)

/-- The first turn looks for a route and goes on as if the hunter had been under way on it. -/
theorem after_eq_turns {next : Position} {rest : List Position} (hworld : s.world.Seated)
    (hown : s.actor? = some own) (htarget : s.targetPosition? = some target)
    (hroute : (s.route own.position target).waypoints = own.position :: next :: rest)
    (hnear : own.position.isNeighbor next = true) {k : Nat} (hk : 1 ≤ k) :
    after s k = turn^[k] (underWay s target own own.position (next :: rest)) := by
  obtain ⟨k, rfl⟩ := Nat.exists_eq_add_of_le' hk
  have hhere : s.withHunter own own.position = s := by
    rw [Scene.withHunter, hworld.relocate_self hown]
  have hfound : (s.route own.position target).isEmpty = false := by
    rw [Route.isEmpty, hroute]
    rfl
  have htick : Chase.tick {} s = Chase.tick ⟨some ⟨target, next :: rest⟩, 1⟩ s :=
    Chase.tick_of_lost (Scene.position_of_actor hown) htarget hfound hroute hnear
  rw [after, Function.iterate_succ_apply, Function.iterate_succ_apply, turn_of_tick htick,
    underWay, hhere]
  rfl

/-- As long as the hunter is not beside the player, it is on the cell of the route with the number
of the turn. -/
theorem after_eq_underWay (hworld : s.world.Seated) (hown : s.actor? = some own)
    (hother : s.world.playerId ≠ some s.focus) (htarget : s.targetPosition? = some target)
    (hroute : (s.route own.position target).waypoints = own.position :: (way ++ [target]))
    (hchain : (own.position :: way).IsChain fun x y ↦ x.isNeighbor y = true)
    (hfree : ∀ c ∈ way, c ≠ own.position ∧ c ≠ target ∧ s.world.canEnter c = true)
    {k : Nat} (hk : 1 ≤ k) (hway : k ≤ way.length) :
    ∃ q, (own.position :: way)[k]? = some q ∧ after s k =
      underWay s target ((·.finishTurn s.rules.turnReady)^[k] own) q (way.drop k ++ [target]) := by
  cases way with
  | nil => exact absurd hk (Nat.not_le.mpr (Nat.lt_succ_of_le hway))
  | cons next way =>
    have hnear := (List.isChain_cons_cons.mp hchain).1
    rw [after_eq_turns hworld hown htarget hroute hnear hk]
    exact turns_underWay hother htarget (Or.inl rfl) hchain hfree hway

/-- An actor that begins to chase a player who keeps still walks the route that it finds cell by
cell, one cell a turn, with the rest of the route kept, until it is beside the player. There the
chase fails, changes nothing and drops the route. There was one search. -/
theorem after_follows_route {n : Nat} {cells : List Position} (hworld : s.world.Consistent)
    (hown : s.actor? = some own) (hother : s.focus ≠ .player)
    (hhero : s.world.player? = some hero) (halive : hero.isAlive = true)
    (hcells : (s.route own.position hero.position).waypoints = cells)
    (hlength : cells.length = n + 1) (hn : 2 ≤ n) :
    (∀ k, 1 ≤ k → k < n → (after s k).status = some .success ∧
      ((after s k).scene.world.actor? s.focus).map (·.position) = cells[k]? ∧
      (after s k).chase =
        { trail := some ⟨hero.position, cells.drop (k + 1)⟩, searches := 1 }) ∧
    (after s n).status = some .failure ∧ (after s n).scene = (after s (n - 1)).scene ∧
      (after s n).chase = { trail := none, searches := 1 } := by
  obtain ⟨hplayer, hheroes, hid⟩ := hworld.toEnrolled.actor_player hhero
  have htarget : s.targetPosition? = some hero.position :=
    Scene.targetPosition_of_isAlive hhero halive (hid ▸ hother.symm)
  have hfocus : s.world.playerId ≠ some s.focus :=
    fun h ↦ hother (Option.some.inj (h.symm.trans hplayer))
  have hgoal : hero.position ≠ own.position :=
    fun h ↦ hother (hworld.id_unique hown hheroes h.symm)
  have hfound : (s.route own.position hero.position).isEmpty = false := by
    rw [Route.isEmpty, hcells]
    exact List.isEmpty_eq_false_iff_exists_mem.mpr ⟨_, List.getElem_mem (by omega : 0 < _)⟩
  obtain ⟨way, hway, hchain, hbeside, hfree, -⟩ := World.exists_way_of_route rfl hgoal hfound
  obtain rfl : cells = own.position :: (way ++ [hero.position]) := hcells.symm.trans hway
  have hn' : n = way.length + 1 := by simpa using hlength.symm
  have hclear : ∀ c ∈ way, c ≠ own.position ∧ c ≠ hero.position ∧ s.world.canEnter c = true := by
    intro c hc
    obtain ⟨hne, hcell⟩ := hfree c hc
    refine ⟨hne, ?_, hcell⟩
    rintro rfl
    have hnobody := (World.canEnter_iff.mp hcell).2
    rw [hworld.occupants_eq hheroes] at hnobody
    cases hnobody
  have hunderWay : ∀ k, 1 ≤ k → k ≤ way.length → _ := fun k hk hk' ↦
    after_eq_underWay hworld.toSeated hown hfocus htarget hcells hchain hclear hk hk'
  constructor
  · intro k hk hkn
    obtain ⟨q, hq, hafter⟩ := hunderWay k hk (by omega)
    rw [hafter]
    refine ⟨rfl, ?_, ?_⟩
    · have hactor := s.world.actor_relocate s.focus ((·.finishTurn s.rules.turnReady)^[k] own) q
      rw [← List.cons_append, List.getElem?_append_left (by rw [List.length_cons]; omega), hq]
      exact congrArg (Option.map _) hactor
    · rw [underWay, List.drop_succ_cons, List.drop_append_of_le_length (by omega)]
  · obtain ⟨q, hq, hafter⟩ := hunderWay way.length (by omega) (Nat.le_refl _)
    have hnear : q.isNeighbor hero.position = true := by
      have hlast : (own.position :: way).getLast? = some q := by
        rw [List.getLast?_eq_getElem?]
        exact hq
      rw [List.getLast?_cons, ← List.getLastD_eq_getLast?] at hlast
      rwa [Option.some.inj hlast] at hbeside
    have hlast : after s n = turn (after s (n - 1)) := by
      rw [hn', after, Function.iterate_succ_apply', Nat.add_sub_cancel, after]
    rw [hlast, hn', Nat.add_sub_cancel, hafter, List.drop_length, List.nil_append,
      turn_beside hfocus htarget hnear]
    exact ⟨rfl, rfl, rfl⟩

/-- A rat and a hero at the two ends of an alley. -/
def alley : Scene where
  focus := ⟨1⟩
  world :=
    (Change.spawnActor { name := "rat", position := ⟨0, 0⟩ }).apply
      ((Change.spawnPlayer { name := "hero", position := ⟨3, 0⟩ }).apply (.ofExtent ⟨4, 1⟩))
  memory := .empty
  dice := { seed := 7 }
  rules := {}

theorem alley_consistent : alley.world.Consistent := by
  have hground := World.ofExtent_consistent ⟨4, 1⟩
  have hhero := Change.consistent_apply hground
    (c := .spawnPlayer { name := "hero", position := ⟨3, 0⟩ }) (by decide +kernel)
  exact (Change.consistent_apply hhero.1
    (c := .spawnActor { name := "rat", position := ⟨0, 0⟩ }) (by decide +kernel)).1

/-- The rat comes up to the hero in two turns, and finds nothing to walk in the third. -/
theorem alley_follows_route :
    alley.world.Consistent ∧
      ((after alley 1).scene.world.actor? ⟨1⟩).map (·.position) = some ⟨1, 0⟩ ∧
      ((after alley 2).scene.world.actor? ⟨1⟩).map (·.position) = some ⟨2, 0⟩ ∧
      (after alley 2).chase.trail = some ⟨⟨3, 0⟩, [⟨3, 0⟩]⟩ ∧
      (after alley 3).status = some .failure ∧ (after alley 3).scene = (after alley 2).scene ∧
      (after alley 3).chase = { trail := none, searches := 1 } := by
  have hrat : alley.actor? = some { id := ⟨1⟩, name := "rat", position := ⟨0, 0⟩ } := by
    decide +kernel
  have hhero : alley.world.player? = some { name := "hero", position := ⟨3, 0⟩ } := by
    decide +kernel
  have hroute : (alley.route ⟨0, 0⟩ ⟨3, 0⟩).waypoints =
      [⟨0, 0⟩, ⟨1, 0⟩, ⟨2, 0⟩, ⟨3, 0⟩] := by
    cbv
  obtain ⟨hturns, hlast⟩ := after_follows_route alley_consistent hrat (by decide) hhero (by decide)
    hroute (n := 3) rfl (by decide)
  obtain ⟨-, hfirst, -⟩ := hturns 1 (by decide) (by decide)
  obtain ⟨-, hsecond, hchase⟩ := hturns 2 (by decide) (by decide)
  exact ⟨alley_consistent, hfirst, hsecond, congrArg Chase.trail hchase, hlast⟩

end Hunt

end Delve

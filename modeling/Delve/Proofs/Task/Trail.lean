import Delve.Proofs.Task.Frame
import Delve.Proofs.Task.Hunt
/-!
# A chase among others

Between two turns of a chase anything may happen: the player moves on or dies, walls rise, and the
hunter itself is moved by what else it does. The route is kept through all of this, and each turn
asks no more than whether it still ends at the player and begins beside the hunter. That is enough
for the route to stay a route. It is not enough for a hunter that searches by straight steps only to
take straight steps only: from the cell that it was moved to, the next cell of the old route may be
a neighbour across a corner.
-/

namespace Delve

/-! ## 1. Straight steps -/

theorem RouteQuery.Leads.isOrthogonalNeighbor {query : RouteQuery} {b c : Position}
    (h : query.Leads b c) (hstraight : query.options.diagonals = false) (hinner : c.IsInner) :
    b.isOrthogonalNeighbor c = true := by
  obtain ⟨d, hd, rfl, -⟩ := h
  rw [RouteOptions.steps, hstraight, if_neg Bool.false_ne_true] at hd
  exact Position.isOrthogonalNeighbor_offset_of_isInner hd hinner

/-- Hunters look for routes of straight steps only. -/
def Scene.WithoutDiagonals (s : Scene) : Prop := s.rules.chaseDiagonals = false

/-- What is asked of a search for a way from one cell to another. -/
def Scene.routeQuery (s : Scene) (start goal : Position) : RouteQuery :=
  s.world.routeQuery start goal s.routeOptions

theorem Scene.isInner_of_leads {s : Scene} {start goal p q : Position}
    (h : (s.routeQuery start goal).Leads p q) : q.IsInner := by
  obtain ⟨_, _, _, hq⟩ := h
  exact World.isInner_of_isPassable hq

/-- A route with a second cell is a walk that comes to no cell twice. -/
theorem Scene.walk_of_route {s : Scene} {own target next : Position} {rest : List Position}
    (hfound : (s.route own target).isEmpty = false)
    (hsteps : (s.route own target).waypoints.drop 1 = next :: rest) :
    (s.routeQuery own target).Walk (own :: next :: rest) target ∧
      (own :: next :: rest).Nodup := by
  obtain ⟨hwalk, hnodup, -⟩ := (s.routeQuery own target).route_waypoints hfound
  have hcells : (s.route own target).waypoints = own :: next :: rest := by
    rw [← hsteps, List.drop_one]
    exact List.eq_cons_of_mem_head? hwalk.head
  rw [← hcells]
  exact ⟨hwalk, hnodup⟩

/-! ## 2. One turn -/

namespace Trail

/-- The steps of a trail lead from neighbour to neighbour to where the player stood, and come to no
cell twice. -/
structure Sound (t : Trail) : Prop where
  chain : t.steps.IsChain fun p q ↦ p.isNeighbor q = true
  nodup : t.steps.Nodup
  last : t.steps.getLast? = some t.target

/-- The steps of a trail, beginning with the one from `p`, are straight. -/
def StraightFrom (t : Trail) (p : Position) : Prop :=
  (p :: t.steps).IsChain fun p q ↦ p.isOrthogonalNeighbor q = true

variable {target next p : Position} {rest : List Position} {t : Trail}

theorem Sound.ne_nil (h : t.Sound) : t.steps ≠ [] := by
  intro hnil
  have hlast := h.last
  rw [hnil] at hlast
  cases hlast

/-- What is left of a trail behind its first step. -/
theorem Sound.tail (h : Sound ⟨target, next :: rest⟩) (hne : next ≠ target) :
    Sound ⟨target, rest⟩ where
  chain := h.chain.tail
  nodup := (List.nodup_cons.mp h.nodup).2
  last := by
    have hlast : (next :: rest).getLast? = some target := h.last
    cases rest with
    | nil => exact absurd (Option.some.inj hlast) hne
    | cons c rest => rwa [List.getLast?_cons_cons] at hlast

theorem StraightFrom.tail (h : StraightFrom ⟨target, next :: rest⟩ p) :
    StraightFrom ⟨target, rest⟩ next :=
  (List.isChain_cons_cons.mp h).2

end Trail

namespace Chase

variable {c c' : Chase} {s s' : Scene} {own target : Position} {t : Trail} {status : Status}

/-- The chase has no route that it can go on with: none at all, one to where the player is not, or
one that does not begin beside the hunter. -/
def Astray (c : Chase) (own target : Position) : Prop :=
  c.trail = none ∨ (∃ t, c.trail = some t ∧ t.target ≠ target) ∨
    ∃ t next, c.trail = some t ∧ t.steps.head? = some next ∧ own.isNeighbor next = false

/-- The hunter is there, the player is there to be hunted, and there is no route to go on with. -/
def SearchesIn (c : Chase) (s : Scene) : Prop :=
  ∃ own hero, s.actor? = some own ∧ s.target? = some hero ∧ c.Astray own.position hero.position

/-- A route to go on with is one that is still good. -/
theorem astray_iff (hsteps : ∀ t, c.trail = some t → t.steps ≠ []) :
    c.Astray own target ↔ c.trail.any (·.isFresh own target) = false := by
  unfold Astray
  cases htrail : c.trail with
  | none => simp
  | some t =>
    obtain ⟨goal, steps⟩ := t
    cases steps with
    | nil => exact absurd rfl (hsteps _ htrail)
    | cons next rest => by_cases hgoal : goal = target <;> simp [Trail.isFresh, hgoal]

theorem searches_aim (c : Chase) (s : Scene) (own target : Position) :
    (c.aim s own target).searches =
      if c.trail.any (·.isFresh own target) then c.searches else c.searches + 1 := by
  unfold aim
  split <;> rfl

theorem searches_follow (c : Chase) (s : Scene) (target : Position) :
    (c.follow s target).2.1.searches = c.searches := by
  unfold follow
  split
  · split
    · rfl
    · split <;> rfl
  · rfl

/-- The route of a chase that has looked around is the old one, which is still good, or the one that
a search has found. -/
theorem aim_cases (c : Chase) (s : Scene) (own target : Position) :
    (∃ next rest, c.trail = some ⟨target, next :: rest⟩ ∧ c.aim s own target = c) ∨
      (c.aim s own target).trail = none ∨ (s.route own target).isEmpty = false ∧
        (c.aim s own target).trail = some ⟨target, (s.route own target).waypoints.drop 1⟩ := by
  by_cases hfresh : c.trail.any (·.isFresh own target) = true
  · left
    have hkept : c.aim s own target = c := if_pos hfresh
    obtain ⟨⟨goal, steps⟩, htrail, hgood⟩ := (Option.any_eq_true _ _).mp hfresh
    rw [Trail.isFresh, Bool.and_eq_true, beq_iff_eq] at hgood
    obtain ⟨rfl, hnear⟩ := hgood
    cases steps with
    | nil => cases hnear
    | cons next rest => exact ⟨next, rest, htrail, hkept⟩
  · right
    rw [aim, if_neg hfresh]
    dsimp only
    cases hempty : (s.route own target).isEmpty with
    | true => exact Or.inl rfl
    | false => exact Or.inr ⟨rfl, rfl⟩

/-- What a turn of a chase can come to. -/
inductive Turn (c : Chase) (s : Scene) : Status → Chase → Scene → Prop where
  | absent (gone : s.actor? = none) : Turn c s .failure c s
  | lost {searches : UInt32} : Turn c s .failure ⟨none, searches⟩ s
  | step {own hero : Actor} {next : Position} {rest : List Position} (actor : s.actor? = some own)
      (seen : s.target? = some hero)
      (aimed : (c.aim s own.position hero.position).trail = some ⟨hero.position, next :: rest⟩)
      (onward : next ≠ hero.position) (near : own.position.isNeighbor next = true) :
      Turn c s .success
        ⟨some ⟨hero.position, rest⟩, (c.aim s own.position hero.position).searches⟩
        (s.withHunter (own.finishTurn s.rules.turnReady) next)

theorem aim_target (htrail : (c.aim s own target).trail = some t) : t.target = target := by
  rcases aim_cases c s own target with ⟨next, rest, hold, hkept⟩ | hnone | ⟨-, hnew⟩
  · rw [hkept, hold] at htrail
    exact congrArg Trail.target (Option.some.inj htrail).symm
  · rw [hnone] at htrail
    cases htrail
  · rw [hnew] at htrail
    exact congrArg Trail.target (Option.some.inj htrail).symm

theorem turn_of_tick (htick : c.tick s = (status, c', s')) : c.Turn s status c' s' := by
  cases hown : s.actor? with
  | none =>
    rw [tick, Scene.position_of_absent hown] at htick
    cases htick
    exact .absent hown
  | some own =>
    cases hhero : s.target? with
    | none =>
      rw [tick, Scene.position_of_actor hown, Scene.targetPosition?, hhero] at htick
      cases htick
      exact .lost
    | some hero =>
      rw [tick_of_target c (Scene.position_of_actor hown) (congrArg (Option.map _) hhero), follow]
        at htick
      split at htick
      · rename_i goal next rest htrail
        obtain rfl : goal = hero.position := aim_target htrail
        split at htick
        · cases htick
          exact .lost
        · rename_i hne
          split at htick
          · rename_i hstep
            obtain ⟨a, ha, hnear, -, rfl⟩ := Scene.stepTo_eq_ok hstep
            obtain rfl : own = a := Option.some.inj (hown.symm.trans ha)
            have hpaid := s.finishTurn_withHunter own next
            rw [Scene.withHunter] at hpaid
            rw [hpaid] at htick
            cases htick
            exact .step hown hhero htrail hne hnear
          · cases htick
            exact .lost
      · cases htick
        exact .lost

/-! ## 3. Any number of turns -/

/-- A chase after any number of turns, each of which takes place in some scene with the property
`P`, and any number of resets. What else has happened between two turns is left open. The cell
`foot` is where the last turn has left the hunter. -/
inductive Course (P : Scene → Prop) : Chase → Option Position → Prop where
  | start : Course P {} none
  | turn {c c' : Chase} {foot : Option Position} {s s' : Scene} {status : Status}
      (before : Course P c foot) (here : P s) (ticks : c.tick s = (status, c', s')) :
      Course P c' (s'.position?.or foot)
  | reset {c : Chase} {foot : Option Position} (before : Course P c foot) : Course P c.lose foot

variable {P : Scene → Prop} {foot : Option Position}

/-- By induction on the course: a law of trails holds of every trail if it holds of those that a
search finds and of what is left of a trail behind its first step. -/
theorem Course.trail_induction {Q : Position → Trail → Prop}
    (found : ∀ s own target next rest, P s →
      (s.routeQuery own target).Walk (own :: next :: rest) target →
      (own :: next :: rest).Nodup → Q own ⟨target, next :: rest⟩)
    (behind : ∀ p target next rest, Q p ⟨target, next :: rest⟩ → next ≠ target →
      Q next ⟨target, rest⟩)
    (h : Course P c foot) (ht : c.trail = some t) : ∃ p, foot = some p ∧ Q p t := by
  induction h generalizing t with
  | start => cases ht
  | reset => cases ht
  | @turn c c' foot s s' status _ hs htick ih =>
    cases turn_of_tick htick with
    | absent hgone =>
      obtain ⟨p, rfl, hp⟩ := ih ht
      rw [Scene.position_of_absent hgone]
      exact ⟨p, rfl, hp⟩
    | lost => cases ht
    | @step own hero next rest hactor hseen haimed hne hnear =>
      obtain rfl := Option.some.inj ht
      refine ⟨next, by rw [Scene.position_withHunter]; rfl, ?_⟩
      rcases aim_cases c s own.position hero.position with
        ⟨_, _, hold, hkept⟩ | hnone | ⟨hfound, hnew⟩
      · -- the trail was there before, wherever the hunter has been in between
        rw [hkept] at haimed
        obtain ⟨p, -, hp⟩ := ih haimed
        exact behind p _ _ _ hp hne
      · rw [hnone] at haimed
        cases haimed
      · have hsteps := congrArg Trail.steps (Option.some.inj (hnew.symm.trans haimed))
        obtain ⟨hwalk, hnodup⟩ := Scene.walk_of_route hfound hsteps
        exact behind _ _ _ _ (found s _ _ _ _ hs hwalk hnodup) hne

theorem Course.sound (h : Course P c foot) (ht : c.trail = some t) : t.Sound := by
  have hlaw : ∃ p, foot = some p ∧ t.Sound := by
    refine h.trail_induction (Q := fun _ t ↦ t.Sound) ?_ ?_ ht
    · intro s own target next rest _ hwalk hnodup
      refine ⟨?_, (List.nodup_cons.mp hnodup).2, ?_⟩
      · exact hwalk.leads.tail.imp fun p q hpq ↦ hpq.isNeighbor (Scene.isInner_of_leads hpq)
      · have hlast := hwalk.last
        rwa [List.getLast?_cons_cons] at hlast
    · exact fun _ _ _ _ hsound hne ↦ hsound.tail hne
  obtain ⟨_, -, hsound⟩ := hlaw
  exact hsound

/-- Where every search takes straight steps only, the cells of a trail and the one before them are in
line, though the hunter need not be on that one any more. -/
theorem Course.straight (h : Course Scene.WithoutDiagonals c foot)
    (ht : c.trail = some t) : ∃ p, foot = some p ∧ t.StraightFrom p := by
  refine h.trail_induction (Q := fun p t ↦ t.StraightFrom p) ?_ ?_ ht
  · intro s own target next rest hs hwalk _
    exact hwalk.leads.imp fun p q hpq ↦ hpq.isOrthogonalNeighbor hs (Scene.isInner_of_leads hpq)
  · exact fun _ _ _ _ hstraight _ ↦ hstraight.tail

/-! ## 4. What a turn leaves behind -/

theorem tick_searches (hsteps : ∀ t, c.trail = some t → t.steps ≠ []) (s : Scene) :
    (c.SearchesIn s → (c.tick s).2.1.searches = c.searches + 1) ∧
      (¬ c.SearchesIn s → (c.tick s).2.1.searches = c.searches) := by
  unfold SearchesIn
  cases hown : s.actor? with
  | none =>
    rw [tick, Scene.position_of_absent hown]
    simp
  | some own =>
    cases hhero : s.target? with
    | none =>
      rw [tick, Scene.position_of_actor hown, Scene.targetPosition?, hhero]
      simp [lose]
    | some hero =>
      have hcount : (c.tick s).2.1.searches =
          if c.trail.any (·.isFresh own.position hero.position) then c.searches
          else c.searches + 1 := by
        rw [tick_of_target c (Scene.position_of_actor hown) (congrArg (Option.map _) hhero),
          searches_follow, searches_aim]
      simp [hcount, astray_iff hsteps]

/-- Whoever is hunted stands where it stood when the hunter steps. -/
theorem player_withHunter {hero : Actor} (hplayer : s.world.KnowsPlayer)
    (hseen : s.target? = some hero) (b : Actor) (p : Position) :
    (s.withHunter b p).world.player? = some hero := by
  obtain ⟨hid, hother⟩ := player_of_target hplayer hseen
  have hfocus : s.world.playerId ≠ some s.focus := by
    rw [hid]
    exact fun h ↦ hother (Option.some.inj h)
  rw [Scene.withHunter, World.player_relocate hfocus]
  exact (Option.filter_eq_some_iff.mp hseen).1

/-- Whatever has happened to a chase, a route that it keeps is one: its steps lead from neighbour to
neighbour, never to a cell twice, and end where the player was when the route was found. A turn of
an actor that is there succeeds with a route to where the player is, or fails and keeps none. One
more search is made in exactly those turns in which there is somebody to hunt and no route to go on
with. -/
theorem course_trail (h : Course P c foot) :
    (∀ t, c.trail = some t → t.steps ≠ [] ∧
      t.steps.IsChain (fun p q ↦ p.isNeighbor q = true) ∧ t.steps.Nodup ∧
        t.steps.getLast? = some t.target) ∧
      ∀ s, ∃ status c' s', c.tick s = (status, c', s') ∧
        (∀ own, s.actor? = some own →
          (status = .success ∧ ∃ hero, s.world.player? = some hero ∧
            c'.trail.map (·.target) = some hero.position ∧
              (s.world.KnowsPlayer → s'.world.player? = some hero)) ∨
          status = .failure ∧ c'.trail = none) ∧
        (c.SearchesIn s → c'.searches = c.searches + 1) ∧
        (¬ c.SearchesIn s → c'.searches = c.searches) := by
  refine ⟨fun t ht ↦ ?_, fun s ↦ ?_⟩
  · have hsound := h.sound ht
    exact ⟨hsound.ne_nil, hsound.chain, hsound.nodup, hsound.last⟩
  · rcases htick : c.tick s with ⟨status, c', s'⟩
    refine ⟨status, c', s', rfl, fun own hown ↦ ?_, ?_⟩
    · cases turn_of_tick htick with
      | absent hgone =>
        rw [hown] at hgone
        cases hgone
      | lost => exact Or.inr ⟨rfl, rfl⟩
      | @step _ hero _ _ _ hseen =>
        refine Or.inl ⟨rfl, hero, (Option.filter_eq_some_iff.mp hseen).1, rfl, fun hplayer ↦ ?_⟩
        exact player_withHunter hplayer hseen _ _
    · have hcount := tick_searches (fun t ht ↦ (h.sound ht).ne_nil) s
      rwa [htick] at hcount

/-- A step that a chase takes while all searches are by straight steps is a straight one, or it is
the next step of a trail whose line the hunter has been taken away from in between. -/
theorem course_step (h : Course Scene.WithoutDiagonals c foot)
    (hs : s.WithoutDiagonals) (hown : s.position? = some own)
    (hstep : c.tick s = (.success, c', s')) :
    ∃ next, s'.position? = some next ∧ own.isNeighbor next = true ∧
      (own.isOrthogonalNeighbor next = true ∨
        ∃ p t, foot = some p ∧ p ≠ own ∧ p.isOrthogonalNeighbor next = true ∧
          c.trail = some t ∧ t.steps.head? = some next) := by
  cases turn_of_tick hstep with
  | @step a hero next rest hactor hseen haimed hne hnear =>
    obtain rfl : a.position = own :=
      Option.some.inj ((Scene.position_of_actor hactor).symm.trans hown)
    refine ⟨next, s.position_withHunter _ next, hnear, ?_⟩
    rcases aim_cases c s a.position hero.position with
      ⟨_, _, hold, hkept⟩ | hnone | ⟨hfound, hnew⟩
    · rw [hkept] at haimed
      obtain ⟨p, hfoot, hstraight⟩ := h.straight haimed
      have hline : p.isOrthogonalNeighbor next = true := (List.isChain_cons_cons.mp hstraight).1
      by_cases hp : p = a.position
      · exact Or.inl (hp ▸ hline)
      · exact Or.inr ⟨p, _, hfoot, hp, hline, haimed, rfl⟩
    · rw [hnone] at haimed
      cases haimed
    · have hsteps := congrArg Trail.steps (Option.some.inj (hnew.symm.trans haimed))
      obtain ⟨hwalk, -⟩ := Scene.walk_of_route hfound hsteps
      have hleads := (List.isChain_cons_cons.mp hwalk.leads).1
      exact Or.inl (hleads.isOrthogonalNeighbor hs (Scene.isInner_of_leads hleads))

end Chase

/-- A rat and a hero at the two ends of a passage with a nook, under rules that let hunters search by
straight steps only: `#.##` over `....`. -/
def nook : Scene where
  focus := ⟨1⟩
  world :=
    { ({ World.ofExtent ⟨4, 2⟩ with
          terrain := #[.wall, .floor, .wall, .wall, .floor, .floor, .floor, .floor] }.settle .player
        { name := "hero", position := ⟨3, 1⟩ }) with
      playerId := some .player }.settle ⟨1⟩ { name := "rat", position := ⟨0, 1⟩ }
  memory := .empty
  dice := { seed := 0 }
  rules := { chaseDiagonals := false }

/-- The chase after the first turn in the nook, in which the rat comes to the second cell. -/
def sighted : Chase := ⟨some ⟨⟨3, 1⟩, [⟨2, 1⟩, ⟨3, 1⟩]⟩, 1⟩

/-- The nook after that turn, and after a turn in which the rat has wandered off. -/
def strayed : Scene :=
  (wander (nook.withHunter { id := ⟨1⟩, name := "rat", position := ⟨0, 1⟩ } ⟨1, 1⟩)).2

theorem strayed_position : strayed.position? = some ⟨1, 0⟩ := by decide +kernel

theorem sighted_tick : (sighted.tick strayed).1 = .success ∧
    (sighted.tick strayed).2.2.position? = some ⟨2, 1⟩ := by
  decide +kernel

theorem nook_tick : Chase.tick {} nook =
    (.success, sighted,
      nook.withHunter { id := ⟨1⟩, name := "rat", position := ⟨0, 1⟩ } ⟨1, 1⟩) := by
  have hroute : (nook.route ⟨0, 1⟩ ⟨3, 1⟩).waypoints =
      [⟨0, 1⟩, ⟨1, 1⟩, ⟨2, 1⟩, ⟨3, 1⟩] := by
    cbv
  have hown : nook.position? = some ⟨0, 1⟩ := by decide +kernel
  have hhero : nook.targetPosition? = some ⟨3, 1⟩ := by decide +kernel
  have hfound : (nook.route ⟨0, 1⟩ ⟨3, 1⟩).isEmpty = false := by
    rw [Route.isEmpty, hroute]
    rfl
  rw [Chase.tick_of_lost hown hhero hfound hroute (by decide)]
  decide +kernel

theorem nook_course : Chase.Course Scene.WithoutDiagonals sighted (some ⟨1, 1⟩) := by
  have hrules : nook.WithoutDiagonals := rfl
  have hcourse := Chase.Course.start.turn hrules nook_tick
  rwa [Scene.position_withHunter] at hcourse

theorem nook_knowsPlayer : nook.world.KnowsPlayer :=
  (World.knowsPlayer_settle_player _ { name := "hero", position := ⟨3, 1⟩ }).settle

/-- Back where it came from, the rat looks for a route once more. -/
theorem nook_trail :
    Chase.Course Scene.WithoutDiagonals sighted (some ⟨1, 1⟩) ∧
      [(⟨2, 1⟩ : Position), ⟨3, 1⟩].IsChain (fun p q ↦ p.isNeighbor q = true) ∧
      ∃ c' s', sighted.tick nook = (.success, c', s') ∧
        c'.trail.map (·.target) = some ⟨3, 1⟩ ∧
        s'.world.player?.map (·.position) = some ⟨3, 1⟩ ∧ c'.searches = 2 := by
  obtain ⟨hkept, hturn⟩ := Chase.course_trail nook_course
  obtain ⟨-, hchain, -, -⟩ := hkept _ rfl
  obtain ⟨status, c', s', htick, houtcome, hsearches, -⟩ := hturn nook
  have hrat : nook.actor? = some { id := ⟨1⟩, name := "rat", position := ⟨0, 1⟩ } := by
    decide +kernel
  have hhero : nook.target? = some { name := "hero", position := ⟨3, 1⟩ } := by decide +kernel
  have hastray : sighted.SearchesIn nook :=
    ⟨_, _, hrat, hhero, Or.inr (Or.inr ⟨_, ⟨2, 1⟩, rfl, rfl, by decide⟩)⟩
  have hstatus : (sighted.tick nook).1 = .success := by cbv
  rw [htick] at hstatus
  rcases houtcome _ hrat with ⟨rfl, hero, hplayer, htarget, hstays⟩ | ⟨rfl, -⟩
  · obtain rfl := Option.some.inj
      (hplayer.symm.trans (Option.filter_eq_some_iff.mp hhero).1)
    refine ⟨nook_course, hchain, c', s', htick, htarget, ?_, hsearches hastray⟩
    rw [hstays nook_knowsPlayer]
    rfl
  · cases hstatus

/-- Seen from the nook, the next cell of the passage lies across a corner, and was in line with the
cell that the rat has wandered off from. -/
theorem nook_step :
    Chase.Course Scene.WithoutDiagonals sighted (some ⟨1, 1⟩) ∧ strayed.WithoutDiagonals ∧
      strayed.position? = some ⟨1, 0⟩ ∧
      ∃ c' s', sighted.tick strayed = (.success, c', s') ∧ s'.position? = some ⟨2, 1⟩ ∧
        (⟨1, 0⟩ : Position).isNeighbor ⟨2, 1⟩ = true ∧
        ∃ p : Position, p ≠ ⟨1, 0⟩ ∧ p.isOrthogonalNeighbor ⟨2, 1⟩ = true := by
  have hrules : strayed.WithoutDiagonals := rfl
  obtain ⟨hstatus, hto⟩ := sighted_tick
  rcases htick : sighted.tick strayed with ⟨status, c', s'⟩
  rw [htick] at hstatus hto
  obtain rfl : status = .success := hstatus
  obtain ⟨next, hnext, hnear, hline⟩ :=
    Chase.course_step nook_course hrules strayed_position htick
  obtain rfl : next = ⟨2, 1⟩ := Option.some.inj (hnext.symm.trans hto)
  refine ⟨nook_course, hrules, strayed_position, c', s', rfl, hto, hnear, ?_⟩
  rcases hline with hstraight | ⟨p, t, -, hp, hline, -⟩
  · exact absurd hstraight (by decide)
  · exact ⟨p, hp, hline⟩

/-- Hunters that look for routes of straight steps only do not take straight steps only: a hunter
that something else has moved goes on across a corner. -/
theorem nook_crosses_corner :
    ¬ ∀ (c c' : Chase) (foot : Option Position) (s s' : Scene) (own next : Position),
      Chase.Course Scene.WithoutDiagonals c foot → s.WithoutDiagonals →
        s.position? = some own → c.tick s = (.success, c', s') → s'.position? = some next →
          own.isOrthogonalNeighbor next = true := by
  intro h
  obtain ⟨hstatus, hto⟩ := sighted_tick
  rcases htick : sighted.tick strayed with ⟨status, c', s'⟩
  rw [htick] at hstatus hto
  obtain rfl : status = .success := hstatus
  have hstraight := h _ _ _ strayed _ _ _ nook_course rfl strayed_position htick hto
  exact absurd hstraight (by decide)

end Delve

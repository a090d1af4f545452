import Mathlib.Data.List.Forall2
import Delve.Proofs.Tree.History
import Delve.Tree.Rehearsal
/-!
# Activations of tasks

A task is active from its first tick after a reset to the next reset. Every task of a tree is given
a diary of the calls that are made on it. Keeping diaries changes nothing, a reset leaves them
empty, and what stands in them afterwards is one preparation with a tick right behind it, and then
ticks, or nothing at all.
-/

namespace Delve

variable {τ υ π γ ε : Type}

/-! ## 1. The leaves of a tree, one by one -/

namespace Node

mutual

/-- The tasks of a subtree from the left, each with the mark that says whether it was visited. -/
def leaves : Node τ π → List (Bool × τ)
  | sequence _ cs | selector _ cs => leavesOf cs
  | condition _ _ none | failure _ => []
  | condition _ _ (some c) | ignoreFailure _ c | repeater _ _ _ c => leaves c
  | task v t => [(v, t)]

def leavesOf : List (Node τ π) → List (Bool × τ)
  | [] => []
  | c :: cs => leaves c ++ leavesOf cs

end

theorem leavesOf_eq_flatMap (cs : List (Node τ π)) : leavesOf cs = cs.flatMap leaves := by
  induction cs with
  | nil => rfl
  | cons c cs ih => rw [leavesOf, ih, List.flatMap_cons]

theorem Built.leaves_fresh {S : τ → Prop} {K : π → Prop} {n : Node τ π} (h : n.Built S K) :
    ∀ l ∈ n.leaves, l.1 = false := by
  induction h with
  | seq _ ih | sel _ ih =>
    intro l hl
    replace hl : l ∈ leavesOf _ := hl
    rw [leavesOf_eq_flatMap, List.mem_flatMap] at hl
    obtain ⟨c, hc, hl⟩ := hl
    exact ih c hc l hl
  | @condition _ child _ _ ih =>
    cases child with
    | none => simp [leaves]
    | some c =>
      rw [leaves]
      exact ih c rfl
  | fail => simp [Node.fail, leaves]
  | lenient _ ih =>
    rw [Node.lenient, leaves]
    exact ih
  | repeated _ ih =>
    rw [Node.repeated, leaves]
    exact ih
  | leaf => simp [Node.leaf, leaves]

mutual

theorem leaves_mapTask (f : τ → υ) :
    ∀ n : Node τ π, (n.mapTask f).leaves = n.leaves.map fun l ↦ (l.1, f l.2)
  | sequence _ cs => by rw [mapTask, leaves, leaves, leavesOf_mapTasks f cs]
  | selector _ cs => by rw [mapTask, leaves, leaves, leavesOf_mapTasks f cs]
  | condition _ _ none => rfl
  | condition _ _ (some c) => by rw [mapTask, leaves, leaves, leaves_mapTask f c]
  | failure _ => rfl
  | ignoreFailure _ c => by rw [mapTask, leaves, leaves, leaves_mapTask f c]
  | repeater _ _ _ c => by rw [mapTask, leaves, leaves, leaves_mapTask f c]
  | task _ t => rfl

theorem leavesOf_mapTasks (f : τ → υ) :
    ∀ cs : List (Node τ π), leavesOf (mapTasks f cs) = (leavesOf cs).map fun l ↦ (l.1, f l.2)
  | [] => rfl
  | c :: cs => by
    rw [mapTasks, leavesOf, leavesOf, leaves_mapTask f c, leavesOf_mapTasks f cs, List.map_append]

end

end Node

theorem Repertoire.visits_self (R : Repertoire τ π γ ε) (ls : List (Bool × τ)) :
    List.Forall₂ R.Visits ls ls :=
  List.forall₂_same.mpr fun l _ ↦ .skipped l

namespace Node

variable {R : Repertoire τ π γ ε}

theorem leavesOf_visits {cs ds : List (Node τ π)} (hlen : cs.length = ds.length)
    (h : ∀ (i : Nat) (hc : i < cs.length) (hd : i < ds.length),
      List.Forall₂ R.Visits cs[i].leaves ds[i].leaves) :
    List.Forall₂ R.Visits (leavesOf cs) (leavesOf ds) := by
  have hleaves : List.Forall₂ (fun c d ↦ List.Forall₂ R.Visits c.leaves d.leaves) cs ds :=
    List.forall₂_iff_get.mpr ⟨hlen, h⟩
  rw [leavesOf_eq_flatMap, leavesOf_eq_flatMap]
  exact List.rel_flatMap hleaves fun _ _ hchild ↦ hchild

/-- An evaluation comes to every leaf once at the most. By induction on what has become of the
node. -/
theorem Evolves.leaves_visits {n n' : Node τ π} (hn : n.Evolves R n') :
    List.Forall₂ R.Visits n.leaves n'.leaves := by
  induction hn with
  | skipped => exact R.visits_self _
  | sequence hlen _ ih | selector hlen _ ih =>
    rw [leaves, leaves]
    exact leavesOf_visits hlen ih
  | @unset _ child | @asked _ _ child => cases child <;> exact R.visits_self _
  | granted _ _ ih | ignoreFailure _ ih | repeater _ ih =>
    rw [leaves, leaves]
    exact ih
  | failure => exact .nil
  | task hvisit => exact .cons hvisit .nil

mutual

/-- A reset comes to every leaf. -/
theorem leaves_reset :
    ∀ n : Node τ π, (n.reset R).leaves = n.leaves.map fun l ↦ (false, R.rewind l.2)
  | sequence _ cs => by rw [reset, leaves, leaves, leavesOf_resetAll cs]
  | selector _ cs => by rw [reset, leaves, leaves, leavesOf_resetAll cs]
  | condition _ _ none => rfl
  | condition _ _ (some c) => by rw [reset, leaves, leaves, leaves_reset c]
  | failure _ => rfl
  | ignoreFailure _ c => by rw [reset, leaves, leaves, leaves_reset c]
  | repeater _ _ _ c => by rw [reset, leaves, leaves, leaves_reset c]
  | task _ t => rfl

theorem leavesOf_resetAll : ∀ cs : List (Node τ π),
    leavesOf (resetAll R cs) = (leavesOf cs).map fun l ↦ (false, R.rewind l.2)
  | [] => rfl
  | c :: cs => by
    rw [resetAll, leavesOf, leavesOf, leaves_reset c, leavesOf_resetAll cs, List.map_append]

end

end Node

namespace Tree

def leaves (t : Tree τ π) : List (Bool × τ) := t.body.elim [] Node.leaves

theorem leaves_mapTask (f : τ → υ) (t : Tree τ π) :
    (t.mapTask f).leaves = t.leaves.map fun l ↦ (l.1, f l.2) := by
  obtain ⟨body⟩ := t
  cases body with
  | none => rfl
  | some n => exact n.leaves_mapTask f

theorem Built.leaves_fresh {S : τ → Prop} {K : π → Prop} {t : Tree τ π} (h : t.Built S K) :
    ∀ l ∈ t.leaves, l.1 = false := by
  obtain ⟨body⟩ := t
  cases body with
  | none => simp [leaves]
  | some n => exact (h n rfl).leaves_fresh

variable {R : Repertoire τ π γ ε}

theorem run_visits {t : Tree τ π} {g : γ} {r : Step (Tree τ π) γ} (hr : t.run R g = .ok r) :
    List.Forall₂ R.Visits t.leaves r.state.leaves := by
  rcases run_evolves hr with ⟨-, hsame⟩ | ⟨n, n', rfl, hstate, hn⟩
  · rw [hsame]
    exact R.visits_self _
  · rw [hstate]
    exact hn.leaves_visits

theorem leaves_reset (t : Tree τ π) :
    (t.reset R).leaves = t.leaves.map fun l ↦ (false, R.rewind l.2) := by
  obtain ⟨body⟩ := t
  cases body with
  | none => rfl
  | some n => exact n.leaves_reset

end Tree

/-! ## 2. Diaries -/

/-- A call of a task, with what it was made in and what that had become when it returned. -/
inductive Call (γ : Type) where
  | setup (before after : γ)
  | tick (before : γ) (status : Status) (after : γ)

def Call.isTick : Call γ → Bool
  | setup _ _ => false
  | tick _ _ _ => true

/-- The repertoire over tasks that keep a diary of the calls since they were rewound. -/
def Repertoire.diarying (R : Repertoire τ π γ ε) : Repertoire (τ × List (Call γ)) π γ ε where
  setup t g :=
    let (task, after) := R.setup t.1 g
    ((task, t.2 ++ [.setup g after]), after)
  tick t g := do
    let r ← R.tick t.1 g
    .ok ⟨r.status, (r.state, t.2 ++ [.tick g r.status r.context]), r.context⟩
  rewind t := (R.rewind t.1, [])
  test := R.test
  name t := R.name t.1

/-- Seen without their diaries, tasks do what they do. -/
theorem Repertoire.renders_diarying (R : Repertoire τ π γ ε) :
    R.Renders R.diarying Prod.fst where
  setup _ _ := rfl
  tick t g := by
    show R.tick t.1 g = Except.map _ ((R.tick t.1 g).bind _)
    cases R.tick t.1 g <;> rfl
  rewind _ := rfl
  test _ _ := rfl

namespace Tree

/-- The tree with an empty diary for each of its tasks. -/
def withDiaries (t : Tree τ π) : Tree (τ × List (Call γ)) π := t.mapTask (·, [])

def diaries (t : Tree (τ × List (Call γ)) π) : List (List (Call γ)) := t.leaves.map fun l ↦ l.2.2

end Tree

/-- The calls of one activation: one preparation, a tick in what it has led to, then ticks. A task
that is not active has not been called. -/
inductive Orderly : List (Call γ) → Prop
  | idle : Orderly []
  | active (before between : γ) (status : Status) (after : γ) {ticks : List (Call γ)} :
    (∀ c ∈ ticks, c.isTick = true) →
      Orderly (.setup before between :: .tick between status after :: ticks)

/-- What one evaluation adds to a diary. -/
inductive Entry : List (Call γ) → List (Call γ) → Prop
  | nothing (d : List (Call γ)) : Entry d d
  | activation (before between : γ) (status : Status) (after : γ) :
    Entry [] [.setup before between, .tick between status after]
  | tick {d : List (Call γ)} (hd : d ≠ []) (before : γ) (status : Status) (after : γ) :
    Entry d (d ++ [.tick before status after])

theorem Orderly.entry {d d' : List (Call γ)} (h : Orderly d) (hentry : Entry d d') :
    Orderly d' := by
  cases hentry with
  | nothing => exact h
  | activation before between status after => exact .active before between status after (by simp)
  | tick hd before status after =>
    cases h with
    | idle => exact absurd rfl hd
    | active before between status after hticks =>
      refine .active before between status after fun c hc ↦ ?_
      rcases List.mem_append.mp hc with hc | hc
      · exact hticks c hc
      · obtain rfl := List.mem_singleton.mp hc
        rfl

/-! ## 3. What stands in the diaries -/

/-- A leaf with an orderly diary, in which something is written just if the leaf is marked. -/
structure Kept (l : Bool × τ × List (Call γ)) : Prop where
  marked : l.1 = true ↔ l.2.2 ≠ []
  orderly : Orderly l.2.2

variable {R : Repertoire τ π γ ε}

theorem Repertoire.Visits.entry {l l' : Bool × τ × List (Call γ)} (h : R.diarying.Visits l l')
    (hkept : Kept l) : Entry l.2.2 l'.2.2 ∧ Kept l' := by
  obtain ⟨hmarked, horderly⟩ := hkept
  cases h with
  | skipped => exact ⟨.nothing _, hmarked, horderly⟩
  | @first t g r hr =>
    obtain ⟨q, hq, heq⟩ := bind_eq_ok.mp hr
    cases heq
    -- a leaf without a mark has nothing in its diary, so the two calls are all there is
    have hempty : t.2 = [] := by simpa using hmarked
    have hentry : Entry t.2 (t.2 ++ [.setup g (R.setup t.1 g).2] ++
        [.tick (R.setup t.1 g).2 q.status q.context]) := by
      rw [hempty]
      exact .activation g _ _ _
    exact ⟨hentry, by simp, horderly.entry hentry⟩
  | @again t g r hr =>
    obtain ⟨q, hq, heq⟩ := bind_eq_ok.mp hr
    cases heq
    have hwritten : t.2 ≠ [] := by simpa using hmarked
    have hentry := Entry.tick hwritten g q.status q.context
    exact ⟨hentry, by simp, horderly.entry hentry⟩

theorem entries_of_visits {ls ls' : List (Bool × τ × List (Call γ))}
    (h : List.Forall₂ R.diarying.Visits ls ls') (hkept : ∀ l ∈ ls, Kept l) :
    List.Forall₂ Entry (ls.map (·.2.2)) (ls'.map (·.2.2)) ∧ ∀ l ∈ ls', Kept l := by
  induction h with
  | nil => exact ⟨.nil, by simp⟩
  | cons h _ ih =>
    obtain ⟨hl, hls⟩ := List.forall_mem_cons.mp hkept
    obtain ⟨hentry, hl'⟩ := h.entry hl
    obtain ⟨hentries, hls'⟩ := ih hls
    exact ⟨.cons hentry hentries, List.forall_mem_cons.mpr ⟨hl', hls'⟩⟩

namespace Tree

variable {t : Tree τ π} {d d' : Tree (τ × List (Call γ)) π}

theorem kept_withDiaries {S : τ → Prop} {K : π → Prop} (h : t.Built S K) :
    ∀ l ∈ (t.withDiaries : Tree (τ × List (Call γ)) π).leaves, Kept l := by
  intro l hl
  rw [withDiaries, leaves_mapTask] at hl
  obtain ⟨a, ha, rfl⟩ := List.mem_map.mp hl
  have hfresh : a.1 = false := h.leaves_fresh a ha
  exact ⟨by simp [hfresh], .idle⟩

theorem kept_reset (d : Tree (τ × List (Call γ)) π) : ∀ l ∈ (d.reset R.diarying).leaves, Kept l := by
  intro l hl
  rw [leaves_reset] at hl
  obtain ⟨l, -, rfl⟩ := List.mem_map.mp hl
  exact ⟨by simp [Repertoire.diarying], .idle⟩

theorem diaries_reset (d : Tree (τ × List (Call γ)) π) :
    ∀ diary ∈ (d.reset R.diarying).diaries, diary = [] := by
  intro diary hdiary
  rw [diaries, leaves_reset, List.map_map] at hdiary
  obtain ⟨l, -, rfl⟩ := List.mem_map.mp hdiary
  rfl

theorem undergo_kept {es : List (Event γ)} (hkept : ∀ l ∈ d.leaves, Kept l)
    (hes : d.undergo R.diarying es = .ok d') : ∀ l ∈ d'.leaves, Kept l := by
  induction es generalizing d with
  | nil =>
    cases hes
    exact hkept
  | cons e es ih =>
    cases e with
    | run g =>
      obtain ⟨r, hr, hes⟩ := bind_eq_ok.mp hes
      exact ih (entries_of_visits (run_visits hr) hkept).2 hes
    | reset => exact ih d.kept_reset hes

/-- Every task is prepared just once in an activation, right before its first tick. This is said of
the diaries that tasks keep in any history: they change nothing, what is in them is orderly, no
reset leaves anything in them, and whatever one evaluation adds comes as a whole. -/
theorem undergo_activates (R : Repertoire τ π γ ε) {t : Tree τ π}
    (ht : t.Built (fun _ ↦ True) fun _ ↦ True) (es : List (Event γ)) :
    (t.withDiaries.undergo R.diarying es).map (mapTask Prod.fst) = t.undergo R es ∧
      ∀ d, t.withDiaries.undergo R.diarying es = .ok d →
        (∀ diary ∈ d.diaries, Orderly diary) ∧
        (∀ diary ∈ (d.reset R.diarying).diaries, diary = []) ∧
        ∀ g r, d.run R.diarying g = .ok r → List.Forall₂ Entry d.diaries r.state.diaries := by
  constructor
  · have hplain : (t.withDiaries : Tree (τ × List (Call γ)) π).mapTask Prod.fst = t :=
      mapTask_mapTask (fun _ ↦ rfl) t
    rw [← undergo_mapTask R.renders_diarying, hplain]
  · intro d hd
    have hkept := undergo_kept (kept_withDiaries ht) hd
    refine ⟨?_, d.diaries_reset, fun g r hr ↦ (entries_of_visits (run_visits hr) hkept).1⟩
    intro diary hdiary
    obtain ⟨l, hl, rfl⟩ := List.mem_map.mp hdiary
    exact (hkept l hl).orderly

/-- The second of two scripts is only reached in the second run, and prepared there. -/
theorem rehearsed_activates :
    let play : Tree Rehearsal.Role Rehearsal.Cue :=
      ⟨some (.seq [.leaf (.probe { id := "opening", first := .failure, later := [.success] }),
        .leaf (.probe { id := "ending", first := .running })])⟩
    let stage : Rehearsal.Stage := { value := 0 }
    ∃ d, play.withDiaries.undergo Rehearsal.repertoire.diarying [.run stage, .run stage] = .ok d ∧
      d.diaries.map (List.map Call.isTick) = [[false, true, true], [false, true]] ∧
      ∀ diary ∈ d.diaries, Orderly diary := by
  intro play stage
  have hplay : play.Built (fun _ ↦ True) fun _ ↦ True := by
    rintro _ ⟨⟩
    refine .seq fun c hc ↦ ?_
    rcases List.mem_pair.mp hc with rfl | rfl <;> exact .leaf trivial
  obtain ⟨d, hd⟩ : ∃ d, play.withDiaries.undergo Rehearsal.repertoire.diarying
      [.run stage, .run stage] = .ok d := ⟨_, rfl⟩
  have hcalls : (play.withDiaries.undergo Rehearsal.repertoire.diarying
      [.run stage, .run stage]).map (fun d ↦ d.diaries.map (List.map Call.isTick)) =
        .ok [[false, true, true], [false, true]] := rfl
  rw [hd] at hcalls
  exact ⟨d, hd, Except.ok.inj hcalls, ((undergo_activates _ hplay _).2 d hd).1⟩

end Tree

end Delve

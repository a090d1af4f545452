import Delve.Proofs.Tree.Preorder
/-!
# Marks and counts

A node keeps a mark that says whether it was run since the last reset, and a repeater a count of its
runs. All of them are set by the nodes one by one, and yet they fit together, since they follow how
often the nodes were run: no node more often than its parent, no child more often than a sibling
before it, and the first child as often as its parent unless that is a condition. So the marked
nodes are the upper left part of the tree. The main statement is `undergo_leftClosed`.
-/

namespace Delve

variable {τ π γ ε : Type}

/-! ## 1. Runs by the notes -/

/-- How often the node at `spot` was run, by the notes. -/
def runCount (notes : List (Note γ)) (spot : Address) : Nat :=
  (notes.map Note.station).count (.node spot)

theorem runCount_append (notes later : List (Note γ)) (spot : Address) :
    runCount (notes ++ later) spot = runCount notes spot + runCount later spot := by
  rw [runCount, List.map_append, List.count_append, runCount, runCount]

theorem runCount_cons_entered (spot : Address) (g : γ) (notes : List (Note γ)) :
    runCount (.entered spot g :: notes) spot = runCount notes spot + 1 := by
  rw [runCount, List.map_cons, Note.station, List.count_cons_self, runCount]

theorem runCount_eq_zero {notes : List (Note γ)} {spot : Address}
    (h : ∀ g, .entered spot g ∉ notes) : runCount notes spot = 0 := by
  apply List.count_eq_zero.mpr
  intro hmem
  obtain ⟨x, hx, hstation⟩ := List.mem_map.mp hmem
  cases x with
  | entered there g =>
    obtain rfl : there = spot := Station.node.inj hstation
    exact h g hx
  | asked | ticked => cases hstation

/-- Where nothing is noted below a node, nothing is noted of it either. -/
theorem runCount_eq_zero_of_not_below {notes : List (Note γ)} {spot there : Address}
    (h : ∀ x ∈ notes, ¬ spot <+: x.spot) (hthere : spot <+: there) : runCount notes there = 0 :=
  runCount_eq_zero fun _ hg ↦ h _ hg hthere

namespace Visit

variable {R : Repertoire τ π γ ε} {spot there : Address} {v w : Visit R} {vs : List (Visit R)}
  {own notes : List (Note γ)}

/-- What is noted of a subtree is noted of the visit to it. -/
theorem Within.runCount_eq (h : w.Within spot notes) (hthere : spot <+: there) :
    runCount notes there = runCount w.notes there := by
  obtain ⟨-, before, after, rfl, hbefore, hafter⟩ := h
  rw [runCount_append, runCount_append, runCount_eq_zero_of_not_below hbefore hthere,
    runCount_eq_zero_of_not_below hafter hthere]
  omega

theorem Recorded.runCount_self (h : Recorded spot v) : runCount v.notes spot = 1 := by
  obtain ⟨vs, own, hv⟩ := h.consists
  rw [hv.notes_eq, runCount_cons_entered, runCount_eq_zero]
  exact fun g hg ↦ hv.ne_entered g _ hg rfl

/-- The first few children are run once each, and the others are not. -/
theorem Consists.runCount_child (h : Consists spot v vs own) (i : Nat) :
    runCount v.notes (spot ++ [i]) = if i < vs.length then 1 else 0 := by
  split
  · rename_i hi
    have hchild := List.getElem?_eq_getElem hi
    rw [(h.within hchild).runCount_eq List.prefix_rfl, (h.recorded i _ hchild).runCount_self]
  · rename_i hi
    exact runCount_eq_zero_of_not_below (h.not_below (Nat.le_of_not_lt hi)) List.prefix_rfl

end Visit

/-! ## 2. The marks of a node -/

namespace Node

def isCondition : Node τ π → Bool
  | condition _ _ _ => true
  | _ => false

/-- The mark and the count of a node that was run `own` times since the last reset, and what holds
of the number of times `below i` that its `i`-th child was run. -/
structure Marks (n : Node τ π) (own : Nat) (below : Nat → Nat) : Prop where
  visited_iff : n.visited = true ↔ 0 < own
  count_eq : ∀ v limit count child, n = .repeater v (.times limit) count child →
    count.toNat = min own (UInt32.size - 1)
  below_le : ∀ i, below i ≤ own
  below_antitone : ∀ i j, i ≤ j → below j ≤ below i
  -- a condition that is not met leaves its child out
  first_eq : n.isCondition = false → n.children ≠ [] → below 0 = own

theorem Built.marks {S : τ → Prop} {K : π → Prop} {n : Node τ π} (h : n.Built S K) :
    n.Marks 0 fun _ ↦ 0 where
  visited_iff := by
    have hfresh : n.visited = false := by cases h <;> rfl
    simp [hfresh]
  count_eq v limit count child hn := by
    subst hn
    cases h
    rfl
  below_le _ := Nat.le_refl 0
  below_antitone _ _ _ := Nat.le_refl 0
  first_eq _ _ := rfl

end Node

namespace Visit

variable {R : Repertoire τ π γ ε} {spot : Address} {n : Node τ π} {g : γ} {vs : List (Visit R)}
  {notes : List (Note γ)} {r : Step (Node τ π) γ}

theorem Rule.visited (h : Rule R spot n g vs notes r) : r.state.visited = true := by
  cases h <;> rfl

theorem Rule.isCondition_eq (h : Rule R spot n g vs notes r) :
    r.state.isCondition = n.isCondition := by
  cases h <;> rfl

theorem Rule.length_children (h : Rule R spot n g vs notes r) :
    r.state.children.length = n.children.length := by
  obtain ⟨hnodes, hleft⟩ := h.children
  have hle := hnodes.length_le
  rw [List.length_map] at hle
  rw [hleft, left, List.length_append, List.length_map, List.length_drop]
  omega

/-- A repeater was one before, and has counted one run more. -/
theorem Rule.count_eq (h : Rule R spot n g vs notes r) {v : Bool} {limit : Repeat}
    {count : UInt32} {child : Node τ π} (hr : r.state = .repeater v limit count child) :
    ∃ v' count' child', n = .repeater v' limit count' child' ∧ count = limit.advance count' := by
  cases h with
  | @repeater w _ count' u =>
    cases hr
    exact ⟨w, count', u.node, rfl, rfl⟩
  | _ => cases hr

theorem Turns.ne_nil {on s : Status} {cs : List (Node τ π)} {g g' : γ}
    (h : Turns on cs g vs s g') (hcs : cs ≠ []) : vs ≠ [] := by
  cases h with
  | nil => exact absurd rfl hcs
  | stop | next => exact List.cons_ne_nil _ _

/-- Only a condition can be run without its child. -/
theorem Rule.visits_ne_nil (h : Rule R spot n g vs notes r) (hn : n.isCondition = false)
    (hchildren : n.children ≠ []) : vs ≠ [] := by
  cases h with
  | sequence _ hturns | selector hturns => exact hturns.ne_nil hchildren
  | vain | failure | task => exact absurd rfl hchildren
  | unset | refused | childless | granted => cases hn
  | ignoreFailure | repeater => exact List.cons_ne_nil _ _

end Visit

/-- One more run of a node. -/
theorem Node.Marks.visit {R : Repertoire τ π γ ε} {spot : Address} {n : Node τ π} {g : γ}
    {vs : List (Visit R)} {notes : List (Note γ)} {r : Step (Node τ π) γ} {own : Nat}
    {below : Nat → Nat} (h : n.Marks own below) (hrule : Visit.Rule R spot n g vs notes r) :
    r.state.Marks (own + 1) fun i ↦ below i + if i < vs.length then 1 else 0 where
  visited_iff := by
    rw [hrule.visited]
    exact iff_of_true rfl (Nat.succ_pos own)
  count_eq v limit count child hr := by
    obtain ⟨v', count', child', hn, rfl⟩ := hrule.count_eq hr
    have hcount := h.count_eq v' limit count' child' hn
    -- a count that is held at the largest word stays there
    show (count'.addClamp 1).toNat = _
    rw [UInt32.toNat_addClamp, hcount]
    show min (min own (UInt32.size - 1) + 1) (UInt32.size - 1) = _
    omega
  below_le i := by
    have hle := h.below_le i
    split <;> omega
  below_antitone i j hij := by
    have hle := h.below_antitone i j hij
    -- the visited children are the first few, so the later one gains only where the earlier does
    split <;> split <;> omega
  first_eq hr hchildren := by
    have hn : n.isCondition = false := hrule.isCondition_eq ▸ hr
    have hsome : n.children ≠ [] := by
      rw [← List.length_pos_iff] at hchildren ⊢
      rwa [← hrule.length_children]
    have hvisits := List.length_pos_iff.mpr (hrule.visits_ne_nil hn hsome)
    rw [h.first_eq hn hsome, if_pos hvisits]

/-! ## 3. The marks of a tree -/

namespace Tree

variable {R : Repertoire τ π γ ε} {t : Tree τ π} {log : List (Note γ)}

/-- All marks and counts of a tree are as the notes since the last reset say. -/
def Marked (t : Tree τ π) (log : List (Note γ)) : Prop :=
  ∀ spot n, t.at? spot = some n →
    n.Marks (runCount log spot) fun i ↦ runCount log (spot ++ [i])

theorem Built.marked {S : τ → Prop} {K : π → Prop} (h : t.Built S K) :
    t.Marked ([] : List (Note γ)) := by
  intro spot n hn
  obtain ⟨body, hbody, hn⟩ := Option.bind_eq_some_iff.mp hn
  have hbuilt := Node.at?_of_children (P := Node.Built S K) (fun _ h ↦ h.children) (h body hbody) hn
  exact hbuilt.marks

theorem reset_built (R : Repertoire τ π γ ε) (t : Tree τ π) :
    (t.reset R).Built (fun _ ↦ True) fun _ ↦ True := by
  intro n hn
  obtain ⟨body, -, rfl⟩ := Option.map_eq_some_iff.mp hn
  exact (body.over_of_forall (fun _ ↦ trivial) fun _ ↦ trivial).reset_built fun _ _ ↦ trivial

/-- What a visit to the body makes of the marks of all nodes. -/
theorem Marked.visit {v : Visit R} (ht : Marked ⟨some v.node⟩ log) (hv : v.Recorded []) :
    Marked ⟨some v.after.state⟩ (log ++ v.notes) := by
  intro spot n hn
  simp only [runCount_append]
  rcases hv.at? spot with ⟨w, hnode, hafter, hw⟩ | ⟨hsame, hnone⟩
  -- the node was visited: its marks and the notes of it both go one run further
  · obtain rfl : w.after.state = n := Option.some.inj (hafter.symm.trans hn)
    obtain ⟨vs, own, hvs⟩ := hw.recorded.consists
    have hself : runCount v.notes spot = 1 :=
      (hw.runCount_eq List.prefix_rfl).trans hw.recorded.runCount_self
    have hchild : ∀ i, runCount v.notes (spot ++ [i]) = if i < vs.length then 1 else 0 := fun i ↦
      (hw.runCount_eq (List.prefix_append spot [i])).trans (hvs.runCount_child i)
    simp only [hself, hchild]
    exact (ht spot w.node hnode).visit hvs.rule
  -- it was not, and nothing is noted of it or of its children
  · have hself : runCount v.notes spot = 0 := runCount_eq_zero_of_not_below hnone List.prefix_rfl
    have hchild : ∀ i, runCount v.notes (spot ++ [i]) = 0 := fun i ↦
      runCount_eq_zero_of_not_below hnone (List.prefix_append spot [i])
    simp only [hself, hchild, Nat.add_zero]
    exact ht spot n (hsame.symm.trans hn)

theorem Marked.run (ht : t.Marked log) {g : γ}
    {r : Step (Tree (Address × τ) (Sign π)) (γ × List (Note γ))}
    (hr : t.signposted.run R.noting (g, []) = .ok r) :
    r.unsigned.state.Marked (log ++ r.context.2) := by
  rcases exists_record hr with ⟨-, hstate, hnotes⟩ | ⟨v, rfl, -, hstate, hnotes, hrec⟩
  · rw [hstate, hnotes, List.append_nil]
    exact ht
  · rw [hstate, hnotes]
    exact ht.visit hrec

/-! ## 4. Histories -/

/-- What becomes of a tree in a history, with the notes of all its runs since the last reset. -/
def chronicle (R : Repertoire τ π γ ε) :
    Tree τ π → List (Note γ) → List (Event γ) → Except ε (Tree τ π × List (Note γ))
  | t, log, [] => .ok (t, log)
  | t, log, .run g :: es => do
    let r ← t.signposted.run R.noting (g, [])
    chronicle R r.unsigned.state (log ++ r.context.2) es
  -- the count of a repeater begins anew, and so do the notes
  | t, _, .reset :: es => chronicle R (t.reset R) [] es

/-- Taking notes changes nothing. -/
theorem map_chronicle (R : Repertoire τ π γ ε) (t : Tree τ π) (log : List (Note γ))
    (es : List (Event γ)) : (t.chronicle R log es).map Prod.fst = t.undergo R es := by
  induction es generalizing t log with
  | nil => rfl
  | cons e es ih =>
    cases e with
    | run g =>
      rw [chronicle, undergo, ← run_signposted R t g]
      cases t.signposted.run R.noting (g, []) with
      | error e => rfl
      | ok r => exact ih r.unsigned.state (log ++ r.context.2)
    | reset => exact ih (t.reset R) []

theorem Marked.chronicle (ht : t.Marked log) (es : List (Event γ)) :
    (t.chronicle R log es).ComesTo (fun s ↦ s.1.Marked s.2) R.StopsAt := by
  induction es generalizing t log with
  | nil => exact ht
  | cons e es ih =>
    cases e with
    | run g =>
      refine Except.ComesTo.bind (run_signposted_comesTo fun r hr ↦ ht.run hr) ?_
      exact fun r hr ↦ ih hr
    | reset => exact ih (t.reset_built R).marked

/-- The marked nodes of a tree are left-closed, and its repeaters count, where `runs` tells how often
the node at an address was run since the last reset. -/
structure LeftClosed (t : Tree τ π) (runs : Address → Nat) : Prop where
  visited : ∀ spot n, t.at? spot = some n → (n.visited = true ↔ 0 < runs spot)
  parent : ∀ (spot : Address) (n : Node τ π) (i : Nat) (c : Node τ π), t.at? spot = some n →
    n.children[i]? = some c → c.visited = true → n.visited = true
  siblings : ∀ (spot : Address) (n : Node τ π) (i j : Nat) (c d : Node τ π),
    t.at? spot = some n → i < j → n.children[i]? = some c → n.children[j]? = some d →
      d.visited = true → c.visited = true
  first : ∀ (spot : Address) (n c : Node τ π), t.at? spot = some n → n.isCondition = false →
    n.children[0]? = some c → (n.visited = true ↔ c.visited = true)
  count : ∀ spot v limit count child, t.at? spot = some (.repeater v (.times limit) count child) →
    count.toNat = min (runs spot) (UInt32.size - 1) ∧ (0 < count ↔ v = true)

theorem at?_concat {n : Node τ π} {spot : Address} (h : t.at? spot = some n) (i : Nat) :
    t.at? (spot ++ [i]) = n.children[i]? := by
  obtain ⟨body, hbody, hn⟩ := Option.bind_eq_some_iff.mp h
  rw [at?, hbody, Option.bind_some]
  exact Node.at?_concat hn i

/-- Marks are compared by comparing the numbers of runs. -/
theorem Marked.leftClosed (h : t.Marked log) : t.LeftClosed (runCount log) := by
  have hvisited : ∀ spot n, t.at? spot = some n → (n.visited = true ↔ 0 < runCount log spot) :=
    fun spot n hn ↦ (h spot n hn).visited_iff
  have hchild : ∀ spot n i c, t.at? spot = some n → n.children[i]? = some c →
      (c.visited = true ↔ 0 < runCount log (spot ++ [i])) :=
    fun spot n i c hn hc ↦ hvisited _ c ((at?_concat hn i).trans hc)
  refine ⟨hvisited, ?_, ?_, ?_, ?_⟩
  · intro spot n i c hn hc
    have hle := (h spot n hn).below_le i
    rw [hvisited spot n hn, hchild spot n i c hn hc]
    omega
  · intro spot n i j c d hn hij hc hd
    have hle := (h spot n hn).below_antitone i j (Nat.le_of_lt hij)
    rw [hchild spot n i c hn hc, hchild spot n j d hn hd]
    omega
  · intro spot n c hn hgate hc
    have hsome : n.children ≠ [] := List.ne_nil_of_mem (List.mem_of_getElem? hc)
    have heq := (h spot n hn).first_eq hgate hsome
    rw [hvisited spot n hn, hchild spot n 0 c hn hc, heq]
  · intro spot v limit count child hn
    have hcount := (h spot _ hn).count_eq v limit count child rfl
    have hmark : v = true ↔ 0 < runCount log spot := (h spot _ hn).visited_iff
    have hsize : 1 < UInt32.size := by decide
    have hzero : (0 : UInt32).toNat = 0 := rfl
    rw [hmark, UInt32.lt_iff_toNat_lt, hzero]
    omega

/-- A tree as it is built is run and reset as often as one likes, and notes are taken, which changes
nothing. Unless a leaf stops at a fault, a node is marked at the end if and only if it was run since
the last reset. With a node its parent is marked, with a child all siblings before it, and with a
node that is no condition its first child. A repeater with a limit has the number of its runs for
its count, as far as a word can hold it, so the count is zero just if the repeater is not marked. -/
theorem undergo_leftClosed (R : Repertoire τ π γ ε) {t : Tree τ π}
    (ht : t.Built (fun _ ↦ True) fun _ ↦ True) (es : List (Event γ)) :
    (t.chronicle R [] es).map Prod.fst = t.undergo R es ∧
      (t.chronicle R [] es).ComesTo (fun s ↦ s.1.LeftClosed (runCount s.2)) R.StopsAt :=
  ⟨map_chronicle R t [] es, (Marked.chronicle ht.marked es).mono (fun _ hs ↦ hs.leftClosed)
    fun _ he ↦ he⟩

/-- The repeater is run once before the reset and once after it. It has not come to its end, so the
rest of the sequence is not visited. -/
theorem rehearsed_leftClosed :
    let play : Tree Rehearsal.Role Rehearsal.Cue :=
      ⟨some (.seq [.repeated (.times 1) (.leaf .plain), .lenient .fail])⟩
    let stage : Rehearsal.Stage := { value := 0 }
    play.Built (fun _ ↦ True) (fun _ ↦ True) ∧
      ∃ d log, play.chronicle Rehearsal.repertoire [] [.run stage, .reset, .run stage] =
          .ok (d, log) ∧
        (d.at? [0]).map Node.visited = some true ∧ (d.at? [1]).map Node.visited = some false ∧
        runCount log [0] = 1 ∧ d.LeftClosed (runCount log) := by
  intro play stage
  have hplay : play.Built (fun _ ↦ True) fun _ ↦ True := by
    rintro _ ⟨⟩
    refine .seq fun c hc ↦ ?_
    rcases List.mem_pair.mp hc with rfl | rfl
    · exact .repeated (.leaf trivial)
    · exact .lenient .fail
  have hclosed := (undergo_leftClosed Rehearsal.repertoire hplay
    [.run stage, .reset, .run stage]).2
  exact ⟨hplay, _, _, rfl, rfl, rfl, rfl, hclosed⟩

end Tree

end Delve

import Delve.Proofs.Tree.Invariant
import Delve.Proofs.Tree.Signpost
/-!
# Records of evaluations

What is noted on the way through a tree can be laid out as a record: the evaluation of a node
consists of visits to the first few of its children, one after the other, and a rule of its kind
says how its outcome comes of theirs. Every evaluation that comes to an end is recorded in its
notes, so what holds of all evaluations can be shown by induction on the record.
-/

namespace Delve

variable {τ π γ ε : Type}

/-! ## 1. Visits -/

/-- An evaluation of a node that has come to an end, with the notes that were taken of it. -/
structure Visit (R : Repertoire τ π γ ε) where
  node : Node τ π
  before : γ
  after : Step (Node τ π) γ
  run_eq : node.run R before = .ok after
  notes : List (Note γ)

namespace Visit

variable {R : Repertoire τ π γ ε} {cs : List (Node τ π)} {g g' : γ} {vs : List (Visit R)}
  {on s : Status}

/-- What visits to the first children leave of all the children. -/
def left (vs : List (Visit R)) (cs : List (Node τ π)) : List (Node τ π) :=
  vs.map (·.after.state) ++ cs.drop vs.length

/-- Visits to the children from the left until one does not come to `on`, each of them in what the
one before it has led to. -/
inductive Turns (on : Status) : List (Node τ π) → γ → List (Visit R) → Status → γ → Prop
  | nil (g : γ) : Turns on [] g [] on g
  | stop (v : Visit R) (cs : List (Node τ π)) : v.after.status ≠ on →
    Turns on (v.node :: cs) v.before [v] v.after.status v.after.context
  | next (v : Visit R) {cs : List (Node τ π)} {vs : List (Visit R)} {s : Status} {g : γ} :
    v.after.status = on → Turns on cs v.after.context vs s g →
      Turns on (v.node :: cs) v.before (v :: vs) s g

/-- How the outcome of a node at `spot` comes of visits to its children, with what is noted of the
node itself after it is entered. -/
inductive Rule (R : Repertoire τ π γ ε) (spot : Address) :
    Node τ π → γ → List (Visit R) → List (Note γ) → Step (Node τ π) γ → Prop
  | sequence {w : Bool} {cs : List (Node τ π)} {g g' : γ} {vs : List (Visit R)} {s : Status} :
    cs ≠ [] → Turns .success cs g vs s g' →
      Rule R spot (.sequence w cs) g vs [] ⟨s, .sequence true (left vs cs), g'⟩
  | vain {w : Bool} {g : γ} :
    Rule R spot (.sequence w []) g [] [] ⟨.failure, .sequence true [], g⟩
  | selector {w : Bool} {cs : List (Node τ π)} {g g' : γ} {vs : List (Visit R)} {s : Status} :
    Turns .failure cs g vs s g' →
      Rule R spot (.selector w cs) g vs [] ⟨s, .selector true (left vs cs), g'⟩
  | unset {w : Bool} {child : Option (Node τ π)} {g : γ} :
    Rule R spot (.condition w none child) g [] [] ⟨.undefined, .condition true none child, g⟩
  | refused {w : Bool} {p : π} {child : Option (Node τ π)} {g : γ} {q : Step π γ} :
    R.test p g = .ok q → q.status ≠ .success →
      Rule R spot (.condition w (some p) child) g [] [.asked spot q.status]
        ⟨q.status, .condition true (some q.state) child, q.context⟩
  | childless {w : Bool} {p : π} {g : γ} {q : Step π γ} :
    R.test p g = .ok q → q.status = .success →
      Rule R spot (.condition w (some p) none) g [] [.asked spot q.status]
        ⟨.undefined, .condition true (some q.state) none, q.context⟩
  | granted {w : Bool} {p : π} {g : γ} {q : Step π γ} (v : Visit R) :
    R.test p g = .ok q → q.status = .success → v.before = q.context →
      Rule R spot (.condition w (some p) (some v.node)) g [v] [.asked spot q.status]
        ⟨v.after.status, .condition true (some q.state) (some v.after.state), v.after.context⟩
  | failure {w : Bool} {g : γ} :
    Rule R spot (.failure w) g [] [] ⟨.failure, .failure true, g⟩
  | ignoreFailure {w : Bool} (v : Visit R) :
    Rule R spot (.ignoreFailure w v.node) v.before [v] []
      ⟨if v.after.status = .failure then .success else v.after.status,
        .ignoreFailure true v.after.state, v.after.context⟩
  | repeater {w : Bool} {limit : Repeat} {count : UInt32} (v : Visit R) :
    Rule R spot (.repeater w limit count v.node) v.before [v] []
      ⟨limit.status (limit.advance count), .repeater true limit (limit.advance count) v.after.state,
        v.after.context⟩
  | task {w : Bool} {t : τ} {g : γ} {ready : τ × γ} {q : Step τ γ} :
    ready = (if w then (t, g) else R.setup t g) → R.tick ready.1 ready.2 = .ok q →
      Rule R spot (.task w t) g [] [.ticked spot q.status] ⟨q.status, .task true q.state, q.context⟩

/-- The notes of the visit, which was made at `spot`, are those of a record. -/
inductive Recorded {R : Repertoire τ π γ ε} : Address → Visit R → Prop
  | intro {spot : Address} {v : Visit R} {vs : List (Visit R)} {own : List (Note γ)} :
    Rule R spot v.node v.before vs own v.after →
    (∀ (i : Nat) (w : Visit R), vs[i]? = some w → Recorded (spot ++ [i]) w) →
    v.notes = .entered spot v.before :: (own ++ vs.flatMap notes) → Recorded spot v

/-! ## 2. What the rules have in common -/

theorem Turns.nodes_initial (h : Turns on cs g vs s g') : vs.map node <+: cs := by
  induction h with
  | nil => exact List.prefix_rfl
  | stop v cs _ => exact (List.prefix_cons_inj _).mpr List.nil_prefix
  | next _ _ _ ih => exact (List.prefix_cons_inj _).mpr ih

/-- Visits come to `on` until one does not. Either this is the last one, whose status is the
outcome, or all the children have come to `on`. -/
theorem Turns.ending (h : Turns on cs g vs s g') :
    (s = on ∧ vs.length = cs.length ∧ ∀ v ∈ vs, v.after.status = on) ∨
      ∃ before v, vs = before ++ [v] ∧ (∀ w ∈ before, w.after.status = on) ∧
        v.after.status = s ∧ s ≠ on := by
  induction h with
  | nil => exact Or.inl ⟨rfl, rfl, by simp⟩
  | stop v cs hoff => exact Or.inr ⟨[], v, rfl, by simp, rfl, hoff⟩
  | @next v cs vs s _ hon _ ih =>
    rcases ih with ⟨hs, hlen, hall⟩ | ⟨before, last, rfl, hall, hlast, hs⟩
    · exact Or.inl ⟨hs, congrArg (· + 1) hlen, List.forall_mem_cons.mpr ⟨hon, hall⟩⟩
    · exact Or.inr ⟨v :: before, last, rfl, List.forall_mem_cons.mpr ⟨hon, hall⟩, hlast, hs⟩

theorem getElem?_left {i : Nat} {w : Visit R} (hw : vs[i]? = some w) :
    (left vs cs)[i]? = some w.after.state := by
  obtain ⟨hi, -⟩ := List.getElem?_eq_some_iff.mp hw
  have hi : i < (vs.map (·.after.state)).length := by rwa [List.length_map]
  rw [left, List.getElem?_append_left hi, List.getElem?_map, hw, Option.map_some]

theorem getElem?_left_of_le {i : Nat} (hi : vs.length ≤ i) : (left vs cs)[i]? = cs[i]? := by
  have hi' : (vs.map (·.after.state)).length ≤ i := by rwa [List.length_map]
  rw [left, List.getElem?_append_right hi', List.getElem?_drop, List.length_map,
    Nat.add_sub_of_le hi]

variable {spot : Address} {n : Node τ π} {own : List (Note γ)} {r : Step (Node τ π) γ}

/-- The children are visited from the first one on, and the others stay as they are. -/
theorem Rule.children (h : Rule R spot n g vs own r) :
    vs.map node <+: n.children ∧ r.state.children = left vs n.children := by
  cases h with
  | sequence _ hturns | selector hturns => exact ⟨hturns.nodes_initial, rfl⟩
  | vain | failure | task => exact ⟨List.prefix_rfl, rfl⟩
  | unset | refused => exact And.intro List.nil_prefix rfl
  | childless => exact ⟨List.prefix_rfl, rfl⟩
  | granted | ignoreFailure | repeater => exact ⟨List.prefix_rfl, rfl⟩

theorem Rule.getElem?_children (h : Rule R spot n g vs own r) {i : Nat} {w : Visit R}
    (hw : vs[i]? = some w) :
    n.children[i]? = some w.node ∧ r.state.children[i]? = some w.after.state := by
  obtain ⟨⟨rest, hnodes⟩, hleft⟩ := h.children
  obtain ⟨hi, -⟩ := List.getElem?_eq_some_iff.mp hw
  have hi : i < (vs.map node).length := by rwa [List.length_map]
  constructor
  · rw [← hnodes, List.getElem?_append_left hi, List.getElem?_map, hw, Option.map_some]
  · rw [hleft, getElem?_left hw]

/-- What a node notes of itself is not that it was entered. -/
theorem Rule.own_spot (h : Rule R spot n g vs own r) :
    ∀ x ∈ own, x.spot = spot ∧ ∀ there g, x ≠ .entered there g := by
  cases h with
  | refused | childless | granted | task => simp [Note.spot]
  | _ => simp

/-- Everything that is noted of a visit is about the node or a node below it. -/
theorem Recorded.below_spot {v : Visit R} (h : Recorded spot v) :
    ∀ x ∈ v.notes, spot <+: x.spot := by
  induction h with
  | @intro spot v vs own hrule _ hnotes ih =>
    intro x hx
    rw [hnotes, List.mem_cons, List.mem_append, List.mem_flatMap] at hx
    rcases hx with rfl | hx | ⟨w, hw, hx⟩
    · exact List.prefix_rfl
    · exact (hrule.own_spot x hx).1 ▸ List.prefix_rfl
    · obtain ⟨i, hi⟩ := List.mem_iff_getElem?.mp hw
      exact (List.prefix_append spot [i]).trans (ih i w hi x hx)

end Visit

/-! ## 3. Every evaluation is recorded -/

namespace Node

open Visit

variable {R : Repertoire τ π γ ε}

/-- The same outcome but for signposts and notes, and the notes come to a record. -/
structure Noted (R : Repertoire τ π γ ε) (spot : Address) (n : Node τ π) (g : γ)
    (log : List (Note γ)) (r : Step (Node (Address × τ) (Sign π)) (γ × List (Note γ)))
    (q : Step (Node τ π) γ) : Prop where
  status_eq : r.status = q.status
  plain_eq : r.state.plain = q.state
  context_eq : r.context.1 = q.context
  recorded : ∀ run_eq : n.run R g = .ok q,
    ∃ notes, r.context.2 = log ++ notes ∧ Recorded spot ⟨n, g, q, run_eq, notes⟩

/-- The same for a node behind its signpost, which has been entered already. -/
structure Ruled (R : Repertoire τ π γ ε) (spot : Address) (n : Node τ π) (g : γ)
    (log : List (Note γ)) (r : Step (Node (Address × τ) (Sign π)) (γ × List (Note γ)))
    (q : Step (Node τ π) γ) : Prop where
  status_eq : r.status = q.status
  plain_eq : r.state.plain = q.state
  context_eq : r.context.1 = q.context
  rule : ∃ own vs, r.context.2 = log ++ (own ++ vs.flatMap Visit.notes) ∧ Rule R spot n g vs own q ∧
    ∀ (i : Nat) (w : Visit R), vs[i]? = some w → Recorded (spot ++ [i]) w

/-- The same for the children at `spot` from the `i`-th on. -/
structure Turned (R : Repertoire τ π γ ε) (on : Status) (spot : Address) (i : Nat)
    (cs : List (Node τ π)) (g : γ) (log : List (Note γ))
    (r : Step (List (Node (Address × τ) (Sign π))) (γ × List (Note γ)))
    (q : Step (List (Node τ π)) γ) : Prop where
  status_eq : r.status = q.status
  plain_eq : plainAll r.state = q.state
  context_eq : r.context.1 = q.context
  turns : ∃ vs : List (Visit R), r.context.2 = log ++ vs.flatMap Visit.notes ∧
    Turns on cs g vs q.status q.context ∧ q.state = left vs cs ∧
    ∀ (j : Nat) (w : Visit R), vs[j]? = some w → Recorded (spot ++ [i + j]) w

theorem noted_signpost {spot : Address} {n : Node τ π} {g : γ} {log : List (Note γ)}
    {m : Node (Address × τ) (Sign π)}
    (h : (m.run R.noting (g, log ++ [.entered spot g])).Agree
      (Ruled R spot n g (log ++ [.entered spot g])) (n.run R g)) :
    ((signpost spot m).run R.noting (g, log)).Agree (Noted R spot n g log) (n.run R g) := by
  rw [run_signpost]
  rcases h.elim with ⟨r, q, hr, hq, hruled⟩ | ⟨e, hr, hq⟩
  · rw [hr, hq]
    obtain ⟨own, vs, hlog, hrule, hrec⟩ := hruled.rule
    refine ⟨hruled.status_eq, hruled.plain_eq, hruled.context_eq, fun run_eq ↦ ?_⟩
    refine ⟨.entered spot g :: (own ++ vs.flatMap Visit.notes), ?_, .intro hrule hrec rfl⟩
    show r.context.2 = _
    rw [hlog, List.append_assoc, List.singleton_append]
  · rw [hr, hq]
    rfl

/-- A sequence or a selector with children, `make` with signposts and `make'` without them. -/
theorem noted_of_turned {on : Status} {spot : Address} {w : Bool} {c : Node τ π}
    {cs : List (Node τ π)} {g : γ} {log : List (Note γ)}
    {make : Bool → List (Node (Address × τ) (Sign π)) → Node (Address × τ) (Sign π)}
    {make' : Bool → List (Node τ π) → Node τ π} (hmake : Composes R.noting on make)
    (hmake' : Composes R on make') (hplain : ∀ v ns, (make v ns).plain = make' v (plainAll ns))
    (hrule : ∀ {vs : List (Visit R)} {s : Status} {g' : γ}, Turns on (c :: cs) g vs s g' →
      Rule R spot (make' w (c :: cs)) g vs [] ⟨s, make' true (left vs (c :: cs)), g'⟩)
    (h : (runWhile R.noting on (signpostedFrom spot 0 (c :: cs))
      (g, log ++ [.entered spot g])).Agree
      (Turned R on spot 0 (c :: cs) g (log ++ [.entered spot g])) (runWhile R on (c :: cs) g)) :
    ((signpost spot (make w (signpostedFrom spot 0 (c :: cs)))).run R.noting (g, log)).Agree
      (Noted R spot (make' w (c :: cs)) g log) ((make' w (c :: cs)).run R g) := by
  refine noted_signpost ?_
  rw [signpostedFrom, hmake.run_cons, ← signpostedFrom, hmake'.run_cons]
  refine h.map fun r q hrq ↦ ?_
  obtain ⟨vs, hlog, hturns, hleft, hrec⟩ := hrq.turns
  refine ⟨hrq.status_eq, ?_, hrq.context_eq, [], vs, hlog, ?_, ?_⟩
  · rw [Step.mapState, hplain, hrq.plain_eq]
    rfl
  · rw [Step.mapState, hleft]
    exact hrule hturns
  · simpa only [Nat.zero_add] using hrec

/-- A predicate answers as it does without a signpost, and its answer is noted. -/
theorem noting_ask (R : Repertoire τ π γ ε) (spot : Address) (p : π) (g : γ)
    (log : List (Note γ)) :
    R.noting.test (.ask spot p) (g, log) = (R.test p g).map fun r ↦
      ⟨r.status, .ask spot r.state, r.context, log ++ [.asked spot r.status]⟩ := by
  show (R.test p g).bind _ = _
  cases R.test p g <;> rfl

/-- A single visit, to the first child. -/
theorem exists_visit {spot : Address} {c : Node τ π} {g : γ} {log : List (Note γ)}
    {r : Step (Node (Address × τ) (Sign π)) (γ × List (Note γ))} {q : Step (Node τ π) γ}
    (h : Noted R (spot ++ [0]) c g log r q) (run_eq : c.run R g = .ok q) :
    ∃ v : Visit R, v.node = c ∧ v.before = g ∧ v.after = q ∧ r.context.2 = log ++ v.notes ∧
      ∀ (i : Nat) (w : Visit R), [v][i]? = some w → Recorded (spot ++ [i]) w := by
  obtain ⟨notes, hlog, hrec⟩ := h.recorded run_eq
  refine ⟨⟨c, g, q, run_eq, notes⟩, rfl, rfl, rfl, hlog, fun i w hw ↦ ?_⟩
  cases i with
  | zero =>
    cases hw
    exact hrec
  | succ i => cases hw

mutual

/-- By induction on the node: the same child is next with and without signposts, for the statuses
are the same. -/
theorem run_signposted : ∀ (n : Node τ π) (spot : Address) (g : γ) (log : List (Note γ)),
    ((n.signposted spot).run R.noting (g, log)).Agree (Noted R spot n g log) (n.run R g)
  | sequence w [], spot, g, log => by
    rw [signposted]
    refine noted_signpost ?_
    exact ⟨rfl, rfl, rfl, [], [], by simp, .vain, by simp⟩
  | sequence w (c :: cs), spot, g, log => by
    rw [signposted]
    exact noted_of_turned (sequence_composes R.noting) (sequence_composes R)
      (fun _ _ ↦ by rw [plain]) (.sequence (List.cons_ne_nil c cs))
      (runWhile_signposted .success (c :: cs) spot 0 g _)
  | selector _ [], spot, g, log => by
    rw [signposted]
    refine noted_signpost ?_
    exact ⟨rfl, rfl, rfl, [], [], by simp, .selector (.nil g), by simp⟩
  | selector w (c :: cs), spot, g, log => by
    rw [signposted]
    exact noted_of_turned (selector_composes R.noting) (selector_composes R)
      (fun _ _ ↦ by rw [plain]) .selector (runWhile_signposted .failure (c :: cs) spot 0 g _)
  | condition _ none none, spot, g, log => by
    rw [signposted]
    refine noted_signpost ?_
    exact ⟨rfl, rfl, rfl, [], [], by simp, .unset, by simp⟩
  | condition w none (some c), spot, g, log => by
    rw [signposted]
    refine noted_signpost ?_
    rw [Option.map_none, run, run]
    refine ⟨rfl, ?_, rfl, [], [], by simp, .unset, by simp⟩
    rw [plain, plain_signposted]
  | condition _ (some p) none, spot, g, log => by
    rw [signposted]
    refine noted_signpost ?_
    rw [Option.map_some, run, run, noting_ask]
    cases hq : R.test p g with
    | error e => rfl
    | ok q =>
      by_cases hon : q.status = .success
      · refine ⟨rfl, rfl, rfl, [.asked spot q.status], [], by simp, ?_, by simp⟩
        rw [if_pos hon]
        exact .childless hq hon
      · refine ⟨rfl, rfl, rfl, [.asked spot q.status], [], by simp, ?_, by simp⟩
        rw [if_neg hon]
        exact .refused hq hon
  | condition w (some p) (some c), spot, g, log => by
    rw [signposted]
    refine noted_signpost ?_
    rw [Option.map_some, run, run, noting_ask]
    cases hq : R.test p g with
    | error e => rfl
    | ok q =>
      simp only [Except.map, bind, Except.bind]
      by_cases hon : q.status = .success
      · rw [if_pos hon, if_pos hon]
        refine (run_signposted c (spot ++ [0]) q.context _).and_eq.bind fun r q' hrq ↦ ?_
        obtain ⟨hnoted, run_eq⟩ := hrq
        obtain ⟨v, hnode, hbefore, hafter, hlog, hrec⟩ := exists_visit hnoted run_eq
        refine ⟨hnoted.status_eq, ?_, hnoted.context_eq, [.asked spot q.status], [v], ?_, ?_, hrec⟩
        · rw [plain, hnoted.plain_eq]
        · rw [hlog, List.flatMap_singleton, List.append_assoc]
        · rw [← hnode, ← hafter]
          exact .granted v hq hon hbefore
      · rw [if_neg hon, if_neg hon]
        refine ⟨rfl, ?_, rfl, [.asked spot q.status], [], by simp, .refused hq hon, by simp⟩
        rw [plain, plain_signposted]
  | failure _, spot, g, log => by
    rw [signposted]
    refine noted_signpost ?_
    exact ⟨rfl, rfl, rfl, [], [], by simp, .failure, by simp⟩
  | ignoreFailure _ c, spot, g, log => by
    rw [signposted]
    refine noted_signpost ?_
    rw [run, run]
    refine (run_signposted c (spot ++ [0]) g _).and_eq.bind fun r q hrq ↦ ?_
    obtain ⟨hnoted, run_eq⟩ := hrq
    obtain ⟨v, hnode, hbefore, hafter, hlog, hrec⟩ := exists_visit hnoted run_eq
    refine ⟨?_, ?_, hnoted.context_eq, [], [v], ?_, ?_, hrec⟩
    · rw [hnoted.status_eq]
    · rw [plain, hnoted.plain_eq]
    · rw [hlog, List.flatMap_singleton, List.nil_append]
    · rw [← hnode, ← hbefore, ← hafter]
      exact .ignoreFailure v
  | repeater _ limit count c, spot, g, log => by
    rw [signposted]
    refine noted_signpost ?_
    rw [run, run]
    refine (run_signposted c (spot ++ [0]) g _).and_eq.bind fun r q hrq ↦ ?_
    obtain ⟨hnoted, run_eq⟩ := hrq
    obtain ⟨v, hnode, hbefore, hafter, hlog, hrec⟩ := exists_visit hnoted run_eq
    refine ⟨rfl, ?_, hnoted.context_eq, [], [v], ?_, ?_, hrec⟩
    · rw [plain, hnoted.plain_eq]
    · rw [hlog, List.flatMap_singleton, List.nil_append]
    · rw [← hnode, ← hbefore, ← hafter]
      exact .repeater v
  | task w t, spot, g, log => by
    rw [signposted]
    refine noted_signpost ?_
    rw [run, run]
    cases w with
    | true =>
      show ((R.tick t g).bind _ >>= _).Agree _ ((R.tick t g).bind _)
      cases hq : R.tick t g with
      | error e => rfl
      | ok q => exact ⟨rfl, rfl, rfl, [.ticked spot q.status], [], rfl, .task rfl hq, by simp⟩
    | false =>
      show ((R.tick (R.setup t g).1 (R.setup t g).2).bind _ >>= _).Agree _
        ((R.tick (R.setup t g).1 (R.setup t g).2).bind _)
      cases hq : R.tick (R.setup t g).1 (R.setup t g).2 with
      | error e => rfl
      | ok q => exact ⟨rfl, rfl, rfl, [.ticked spot q.status], [], rfl, .task rfl hq, by simp⟩

theorem runWhile_signposted (on : Status) : ∀ (cs : List (Node τ π)) (spot : Address) (i : Nat)
    (g : γ) (log : List (Note γ)),
    (runWhile R.noting on (signpostedFrom spot i cs) (g, log)).Agree (Turned R on spot i cs g log)
      (runWhile R on cs g)
  | [], spot, i, g, log => by
    exact ⟨rfl, rfl, rfl, [], by simp, .nil g, rfl, by simp⟩
  | c :: cs, spot, i, g, log => by
    rw [signpostedFrom, runWhile, runWhile]
    refine (run_signposted c (spot ++ [i]) g log).and_eq.bind fun r q hrq ↦ ?_
    obtain ⟨hnoted, run_eq⟩ := hrq
    obtain ⟨notes, hlog, hrec⟩ := hnoted.recorded run_eq
    let v : Visit R := ⟨c, g, q, run_eq, notes⟩
    rw [hnoted.status_eq]
    by_cases hon : q.status = on
    · rw [if_pos hon, if_pos hon]
      have hlater := runWhile_signposted on cs spot (i + 1) q.context (log ++ notes)
      have hcontext : r.context = (q.context, log ++ notes) := Prod.ext hnoted.context_eq hlog
      rw [hcontext]
      refine hlater.bind fun r' q' hrq' ↦ ?_
      obtain ⟨vs, hlog', hturns, hleft, hrec'⟩ := hrq'.turns
      refine ⟨hrq'.status_eq, ?_, hrq'.context_eq, v :: vs, ?_, .next v hon hturns, ?_, ?_⟩
      · rw [plainAll, hnoted.plain_eq, hrq'.plain_eq]
      · rw [hlog', List.flatMap_cons, List.append_assoc]
      · rw [hleft]
        rfl
      · intro j w hw
        cases j with
        | zero =>
          cases hw
          exact hrec
        | succ j =>
          have hat := hrec' j w hw
          rwa [Nat.add_assoc, Nat.add_comm 1 j] at hat
    · rw [if_neg hon, if_neg hon]
      refine ⟨rfl, ?_, hnoted.context_eq, [v], ?_, .stop v cs hon, rfl, ?_⟩
      · rw [plainAll, hnoted.plain_eq, plainAll_signpostedFrom]
      · rw [hlog, List.flatMap_singleton]
      · intro j w hw
        cases j with
        | zero =>
          cases hw
          exact hrec
        | succ j => cases hw

end

end Node

/-! ## 4. Whole trees -/

namespace Tree

variable {R : Repertoire τ π γ ε}

/-- Without the signposts and the notes it is the evaluation of the tree itself. -/
theorem run_signposted (R : Repertoire τ π γ ε) (t : Tree τ π) (g : γ) :
    (t.signposted.run R.noting (g, [])).map Step.unsigned = t.run R g := by
  obtain ⟨body⟩ := t
  cases body with
  | none => rfl
  | some n =>
    show ((⟨some (n.signposted [])⟩ : Tree _ _).run R.noting (g, [])).map _ = _
    rw [run_some, run_some]
    rcases (n.run_signposted [] g []).elim with ⟨r, q, hr, hq, hnoted⟩ | ⟨e, hr, hq⟩
    · rw [hr, hq]
      show Except.ok (Step.mk r.status (Tree.mk (some r.state.plain)) r.context.1) = _
      rw [hnoted.status_eq, hnoted.plain_eq, hnoted.context_eq]
      rfl
    · rw [hr, hq]
      rfl

/-- Of the empty tree nothing is noted, and the notes of every other one are those of a record. -/
theorem exists_record {t : Tree τ π} {g : γ}
    {r : Step (Tree (Address × τ) (Sign π)) (γ × List (Note γ))}
    (hr : t.signposted.run R.noting (g, []) = .ok r) :
    (t.body = none ∧ r.unsigned = ⟨.failure, t, g⟩ ∧ r.context.2 = []) ∨
      ∃ v : Visit R, t = ⟨some v.node⟩ ∧ v.before = g ∧
        r.unsigned = ⟨v.after.status, ⟨some v.after.state⟩, v.after.context⟩ ∧
        r.context.2 = v.notes ∧ v.Recorded [] := by
  obtain ⟨body⟩ := t
  cases body with
  | none =>
    cases hr
    exact Or.inl ⟨rfl, rfl, rfl⟩
  | some n =>
    have hr : (⟨some (n.signposted [])⟩ : Tree _ _).run R.noting (g, []) = .ok r := hr
    rw [run_some] at hr
    rcases (n.run_signposted [] g []).and_eq.elim with
      ⟨s, q, hs, -, hnoted, run_eq⟩ | ⟨e, hs, -⟩
    · rw [hs] at hr
      cases hr
      obtain ⟨notes, hnotes, hrec⟩ := hnoted.recorded run_eq
      refine Or.inr ⟨⟨n, g, q, run_eq, notes⟩, rfl, rfl, ?_, hnotes, hrec⟩
      show Step.mk s.status (Tree.mk (some s.state.plain)) s.context.1 = _
      rw [hnoted.status_eq, hnoted.plain_eq, hnoted.context_eq]
    · rw [hs] at hr
      cases hr

end Tree

/-! ## 5. Faults -/

/-- The faults that leaves of `R` stop at. -/
def Repertoire.StopsAt (R : Repertoire τ π γ ε) (e : ε) : Prop :=
  (∃ t g, R.tick t g = .error e) ∨ ∃ p g, R.test p g = .error e

theorem Repertoire.maintains_stopsAt (R : Repertoire τ π γ ε) :
    R.Maintains (fun _ ↦ True) R.StopsAt where
  setup _ _ _ := trivial
  tick t g _ := by
    cases h : R.tick t g with
    | ok r => trivial
    | error e => exact Or.inl ⟨t, g, h⟩
  test p g _ := by
    cases h : R.test p g with
    | ok r => trivial
    | error e => exact Or.inr ⟨p, g, h⟩

/-- Taking notes is no reason to stop. -/
theorem Tree.run_signposted_comesTo {R : Repertoire τ π γ ε} {t : Tree τ π} {g : γ}
    {P : Step (Tree (Address × τ) (Sign π)) (γ × List (Note γ)) → Prop}
    (h : ∀ r, t.signposted.run R.noting (g, []) = .ok r → P r) :
    (t.signposted.run R.noting (g, [])).ComesTo P R.StopsAt := by
  cases hr : t.signposted.run R.noting (g, []) with
  | ok r => exact h r hr
  | error e =>
    have hplain := run_signposted R t g
    rw [hr] at hplain
    have hstop := t.run_maintains R.maintains_stopsAt (g := g) trivial
    rw [← hplain] at hstop
    exact hstop

end Delve

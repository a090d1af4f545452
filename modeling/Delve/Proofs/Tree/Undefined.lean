import Delve.Proofs.Tree.Visit
import Delve.Tree.Rehearsal
/-!
# Undefined outcomes

Nothing but a leaf, or a condition that lacks something, brings up an undefined outcome. Whatever
it comes to hands it on at once, so it is the last thing of an evaluation unless a repeater stands
above it.
-/

namespace Delve

variable {τ π γ ε : Type}

/-! ## 1. Where it comes from -/

/-- The node itself has brought up the undefined outcome, by what is noted of it. -/
inductive Node.Invents : Node τ π → Note γ → Prop
  | unset {b : Bool} {child : Option (Node τ π)} {spot : Address} {g : γ} :
    Invents (condition b none child) (.entered spot g)
  | childless {b : Bool} {p : π} {spot : Address} :
    Invents (condition b (some p) none) (.asked spot .success)
  | predicate {b : Bool} {p : π} {child : Option (Node τ π)} {spot : Address} :
    Invents (condition b (some p) child) (.asked spot .undefined)
  | task {b : Bool} {x : τ} {spot : Address} : Invents (task b x) (.ticked spot .undefined)

theorem Repeat.status_ne_undefined (limit : Repeat) (count : UInt32) :
    limit.status count ≠ .undefined := by
  cases limit with
  | times n =>
    rw [Repeat.status]
    split <;> exact nofun
  | forever => exact nofun

namespace Visit

variable {R : Repertoire τ π γ ε} {spot : Address} {v : Visit R} {n : Node τ π} {g : γ}
  {vs : List (Visit R)} {own : List (Note γ)} {r : Step (Node τ π) γ}

theorem Turns.exists_undefined {on s : Status} {cs : List (Node τ π)} {g' : γ}
    (h : Turns on cs g vs s g') (hon : on ≠ .undefined) (hs : s = .undefined) :
    ∃ before last, vs = before ++ [last] ∧ last.after.status = .undefined := by
  rcases h.ending with ⟨rfl, -, -⟩ | ⟨before, last, hvs, -, hlast, -⟩
  · exact absurd hs hon
  · exact ⟨before, last, hvs, hlast.trans hs⟩

/-- An undefined outcome is the node's own or that of the child that was visited last. -/
theorem Rule.exists_undefined (h : Rule R spot n g vs own r) (hr : r.status = .undefined) :
    vs = [] ∨ ∃ before last, vs = before ++ [last] ∧ last.after.status = .undefined := by
  cases h with
  | sequence _ hturns => exact Or.inr (hturns.exists_undefined nofun hr)
  | selector hturns => exact Or.inr (hturns.exists_undefined nofun hr)
  | vain | unset | refused | childless | failure | task => exact Or.inl rfl
  | granted u => exact Or.inr ⟨[], u, rfl, hr⟩
  | ignoreFailure u =>
    -- only a failure is turned into something else
    refine Or.inr ⟨[], u, rfl, ?_⟩
    replace hr : (if u.after.status = .failure then Status.success else u.after.status) =
        .undefined := hr
    split at hr
    · cases hr
    · exact hr
  | repeater => exact absurd hr (Repeat.status_ne_undefined _ _)

/-- A node that no child has told about it has an undefined outcome of its own. -/
theorem Rule.invents (h : Rule R spot n g [] own r) (hr : r.status = .undefined) :
    ∃ before x, .entered spot g :: own = before ++ [x] ∧ x.spot = spot ∧ n.Invents x := by
  cases h with
  | sequence hcs hturns =>
    cases hturns
    exact absurd rfl hcs
  | selector hturns =>
    cases hturns
    cases hr
  | vain | failure => cases hr
  | unset => exact ⟨[], _, rfl, rfl, .unset⟩
  | @refused _ _ _ _ q =>
    have hundef : q.status = .undefined := hr
    refine ⟨[_], _, rfl, rfl, ?_⟩
    rw [hundef]
    exact .predicate
  | childless _ hq =>
    refine ⟨[_], _, rfl, rfl, ?_⟩
    rw [hq]
    exact .childless
  | @task _ _ _ _ q =>
    have hundef : q.status = .undefined := hr
    refine ⟨[_], _, rfl, rfl, ?_⟩
    rw [hundef]
    exact .task

theorem Rule.status_of_invents {x : Note γ} (h : Rule R spot n g vs own r) (hn : n.Invents x)
    (hx : x = .entered spot g ∨ x ∈ own) : r.status = .undefined := by
  cases hn with
  | unset =>
    cases h
    rfl
  | childless =>
    have hx := hx.resolve_left nofun
    cases h with
    | refused _ hoff =>
      have hon := (Note.asked.inj (List.mem_singleton.mp hx)).2
      exact absurd hon.symm hoff
    | childless => rfl
  | predicate =>
    have hx := hx.resolve_left nofun
    cases h with
    | @refused _ _ _ _ q =>
      exact (Note.asked.inj (List.mem_singleton.mp hx)).2.symm
    | childless _ hon | granted _ _ hon =>
      have hundef := (Note.asked.inj (List.mem_singleton.mp hx)).2
      exact nomatch hundef.trans hon
  | task =>
    have hx := hx.resolve_left nofun
    cases h with
    | task => exact (Note.ticked.inj (List.mem_singleton.mp hx)).2.symm

/-- The last visit of all has no visits below it, and it has an undefined outcome if the whole
evaluation has one. By induction on the record, from child to child. -/
theorem Recorded.exists_undefined (h : Recorded spot v) (hv : v.after.status = .undefined) :
    ∃ (rel : Address) (w : Visit R) (own before : List (Note γ)), v.node.at? rel = some w.node ∧
      Consists (spot ++ rel) w [] own ∧ w.after.status = .undefined ∧
      v.notes = before ++ w.notes := by
  induction h with
  | @intro spot v vs own hrule hrec hnotes ih =>
    rcases hrule.exists_undefined hv with rfl | ⟨init, last, rfl, hlast⟩
    · refine ⟨[], v, own, [], Node.at?_nil v.node, ?_, hv, rfl⟩
      rw [List.append_nil]
      exact ⟨hrule, hrec, hnotes⟩
    · have hat : (init ++ [last])[init.length]? = some last := List.getElem?_concat_length
      obtain ⟨rel, w, own', before, hnode, hw, hundef, hbefore⟩ := ih _ _ hat hlast
      refine ⟨init.length :: rel, w, own',
        .entered spot v.before :: (own ++ init.flatMap notes) ++ before, ?_, ?_, hundef, ?_⟩
      · rw [Node.at?, (hrule.getElem?_children hat).1]
        exact hnode
      · rwa [List.append_cons]
      · rw [hnotes, List.flatMap_append, List.flatMap_singleton, hbefore]
        simp only [List.cons_append, List.append_assoc]

/-! ## 2. Where it goes -/

theorem Turns.last_of_undefined {on s : Status} {cs : List (Node τ π)} {g' : γ} {u : Visit R}
    (h : Turns on cs g vs s g') (hon : on ≠ .undefined) (hu : u ∈ vs)
    (hundef : u.after.status = .undefined) :
    s = .undefined ∧ ∃ before, vs = before ++ [u] := by
  have hoff : u.after.status ≠ on := hundef ▸ hon.symm
  rcases h.ending with ⟨-, -, hall⟩ | ⟨before, last, rfl, hbefore, rfl, -⟩
  · exact absurd (hall u hu) hoff
  · rcases List.mem_append.mp hu with hu | hu
    · exact absurd (hbefore u hu) hoff
    · obtain rfl := List.mem_singleton.mp hu
      exact ⟨hundef, before, rfl⟩

/-- A child with an undefined outcome is the last one, and all nodes but repeaters hand its outcome
on. -/
theorem Rule.last_of_undefined {u : Visit R} (h : Rule R spot n g vs own r)
    (hn : ∀ b limit count child, n ≠ .repeater b limit count child) (hu : u ∈ vs)
    (hundef : u.after.status = .undefined) :
    r.status = .undefined ∧ ∃ before, vs = before ++ [u] := by
  cases h with
  | sequence _ hturns | selector hturns => exact hturns.last_of_undefined nofun hu hundef
  | vain | unset | refused | childless | failure | task => cases hu
  | granted v =>
    obtain rfl := List.mem_singleton.mp hu
    exact ⟨hundef, [], rfl⟩
  | ignoreFailure v =>
    obtain rfl := List.mem_singleton.mp hu
    refine ⟨?_, [], rfl⟩
    rw [hundef]
    rfl
  | @repeater b limit count v => exact absurd rfl (hn b limit count v.node)

/-- If no repeater stands above a node with an undefined outcome, all that is noted after it was
entered is noted below it, and the outcome is that of the whole evaluation. By induction on the way
down to the node. -/
theorem Recorded.handed_on {m : Node τ π} {q : Step (Node τ π) γ} (h : Recorded spot v)
    (rel : Address) (hm : v.node.at? rel = some m) (hg : .entered (spot ++ rel) g ∈ v.notes)
    (hq : m.run R g = .ok q) (hundef : q.status = .undefined)
    (hrel : ∀ above, above <+: rel → above ≠ rel →
      ∀ b limit count child, v.node.at? above ≠ some (.repeater b limit count child)) :
    v.after.status = .undefined ∧ ∃ before later,
      v.notes = before ++ .entered (spot ++ rel) g :: later ∧
        ∀ x ∈ later, spot ++ rel <+: x.spot := by
  induction rel generalizing spot v with
  | nil =>
    rw [List.append_nil] at hg ⊢
    obtain rfl := h.eq_of_entered hg
    obtain rfl : v.node = m := Option.some.inj ((Node.at?_nil v.node).symm.trans hm)
    obtain rfl : v.after = q := Except.ok.inj (v.run_eq.symm.trans hq)
    obtain ⟨vs, own, hv⟩ := h.consists
    refine ⟨hundef, [], own ++ vs.flatMap notes, hv.notes_eq, fun x hx ↦ h.below_spot x ?_⟩
    rw [hv.notes_eq]
    exact List.mem_cons_of_mem _ hx
  | cons i rel ih =>
    obtain ⟨vs, own, hv⟩ := h.consists
    rw [List.append_cons] at hg ⊢
    -- the child that leads there was visited, or else nothing would be noted below it
    have hi : i < vs.length := by
      by_contra hi
      exact hv.not_below (Nat.le_of_not_lt hi) _ hg (List.prefix_append _ rel)
    have hat := List.getElem?_eq_getElem hi
    have hchild := (hv.rule.getElem?_children hat).1
    have hbelow : ∀ there, v.node.at? (i :: there) = vs[i].node.at? there := fun there ↦ by
      rw [Node.at?, hchild, Option.bind_some]
    have hgchild := (hv.within hat).mem_of_below hg (List.prefix_append _ rel)
    obtain ⟨hstatus, before, later, hsplit, hlater⟩ :=
      ih (hv.recorded i _ hat) (hbelow rel ▸ hm) hgchild fun above hfirst hne ↦ by
        rw [← hbelow above]
        exact hrel _ ((List.prefix_cons_inj i).mpr hfirst) (by simpa using hne)
    have htop : ∀ b limit count child, v.node ≠ .repeater b limit count child := by
      intro b limit count child hnode
      exact hrel [] List.nil_prefix (List.cons_ne_nil i rel).symm b limit count child
        (by rw [Node.at?_nil, hnode])
    obtain ⟨hroot, init, hinit⟩ :=
      hv.rule.last_of_undefined htop (List.getElem_mem hi) hstatus
    refine ⟨hroot, .entered spot v.before :: (own ++ init.flatMap notes) ++ before, later, ?_,
      hlater⟩
    have hflat : vs.flatMap notes = init.flatMap notes ++ vs[i].notes := by
      conv_lhs => rw [hinit, List.flatMap_append, List.flatMap_singleton]
    rw [hv.notes_eq, hflat, hsplit]
    simp only [List.cons_append, List.append_assoc]

end Visit

/-! ## 3. Trees without it -/

namespace Repertoire

/-- What an answer can make of a predicate. -/
def Sways (R : Repertoire τ π γ ε) (p p' : π) : Prop := ∃ g r, R.test p g = .ok r ∧ r.state = p'

/-- Whatever becomes of the task, it is never undefined what comes of it. -/
def DefiniteTask (R : Repertoire τ π γ ε) (t : τ) : Prop :=
  ∀ t', Relation.ReflTransGen R.Alters t t' → ∀ g r, R.tick t' g = .ok r → r.status ≠ .undefined

def DefinitePredicate (R : Repertoire τ π γ ε) (p : π) : Prop :=
  ∀ p', Relation.ReflTransGen R.Sways p p' → ∀ g r, R.test p' g = .ok r → r.status ≠ .undefined

variable {R : Repertoire τ π γ ε}

theorem DefiniteTask.of_alters {t t' : τ} (h : R.DefiniteTask t) (hstep : R.Alters t t') :
    R.DefiniteTask t' :=
  fun t'' ht'' ↦ h t'' (.head hstep ht'')

theorem definite_preserved : R.Preserves R.DefiniteTask R.DefinitePredicate where
  setup t g h := h.of_alters (.setup t g)
  tick _ _ _ h hr := h.of_alters (.tick hr)
  rewind t h := h.of_alters (.rewind t)
  test _ g r h hr := fun p'' hp'' ↦ h p'' (.head ⟨g, r, hr, rfl⟩ hp'')

end Repertoire

namespace Node

/-- Every condition of the subtree has a predicate and a child. -/
inductive Furnished : Node τ π → Prop
  | sequence {b : Bool} {cs : List (Node τ π)} : (∀ c ∈ cs, Furnished c) → Furnished (sequence b cs)
  | selector {b : Bool} {cs : List (Node τ π)} : (∀ c ∈ cs, Furnished c) → Furnished (selector b cs)
  | condition {b : Bool} {p : π} {child : Node τ π} :
    Furnished child → Furnished (condition b (some p) (some child))
  | failure {b : Bool} : Furnished (failure b)
  | ignoreFailure {b : Bool} {child : Node τ π} :
    Furnished child → Furnished (ignoreFailure b child)
  | repeater {b : Bool} {limit : Repeat} {count : UInt32} {child : Node τ π} :
    Furnished child → Furnished (repeater b limit count child)
  | task {b : Bool} {x : τ} : Furnished (task b x)

variable {R : Repertoire τ π γ ε} {n n' m : Node τ π} {S : τ → Prop} {K : π → Prop}

/-- By induction on what has become of the node. -/
theorem Evolves.furnished (hn : n.Evolves R n') (h : n.Furnished) : n'.Furnished := by
  induction hn with
  | skipped => exact h
  | sequence hlen _ ih =>
    cases h with | sequence hcs =>
    exact .sequence (forall_mem_of_getElem hlen ih hcs)
  | selector hlen _ ih =>
    cases h with | selector hcs =>
    exact .selector (forall_mem_of_getElem hlen ih hcs)
  | unset => cases h
  | asked =>
    cases h with | condition hc =>
    exact .condition hc
  | granted _ _ ih =>
    cases h with | condition hc =>
    exact .condition (ih hc)
  | failure => exact .failure
  | ignoreFailure _ ih =>
    cases h with | ignoreFailure hc =>
    exact .ignoreFailure (ih hc)
  | repeater _ ih =>
    cases h with | repeater hc =>
    exact .repeater (ih hc)
  | task => exact .task

theorem Furnished.reset (h : n.Furnished) : (n.reset R).Furnished := by
  induction h with
  | sequence _ ih =>
    rw [Node.reset, resetAll_eq_map]
    exact .sequence (List.forall_mem_map.mpr ih)
  | selector _ ih =>
    rw [Node.reset, resetAll_eq_map]
    exact .selector (List.forall_mem_map.mpr ih)
  | condition _ ih =>
    rw [Node.reset]
    exact .condition ih
  | failure => exact .failure
  | ignoreFailure _ ih =>
    rw [Node.reset]
    exact .ignoreFailure ih
  | repeater _ ih =>
    rw [Node.reset]
    exact .repeater ih
  | task => exact .task

theorem Furnished.children (h : n.Furnished) : ∀ c ∈ n.children, c.Furnished := by
  cases h <;> simp_all [Node.children]

end Node

/-- With definite leaves and nothing amiss, a node that no child has told about it has no undefined
outcome. -/
theorem Visit.Rule.status_ne_undefined {R : Repertoire τ π γ ε} {spot : Address} {n : Node τ π}
    {g : γ} {own : List (Note γ)} {r : Step (Node τ π) γ} (h : Rule R spot n g [] own r)
    (hn : n.Furnished) (hover : n.Over R.DefiniteTask R.DefinitePredicate) :
    r.status ≠ .undefined := by
  cases h with
  | sequence hcs hturns =>
    cases hturns
    exact absurd rfl hcs
  | selector hturns =>
    cases hturns
    exact nofun
  | vain | failure => exact nofun
  | unset | childless => cases hn
  | @refused _ p _ _ q hq =>
    cases hover with | condition hp _ =>
    exact hp p rfl p .refl g q hq
  | @task b x _ ready q hready hq =>
    cases hover with | task hx =>
    -- a task that has not been visited is ticked as its preparation has left it
    have hsteps : Relation.ReflTransGen R.Alters x ready.1 := by
      rw [hready]
      split
      · exact .refl
      · exact .single (.setup x g)
    exact hx _ hsteps _ q hq

namespace Tree

variable {R : Repertoire τ π γ ε} {t t' : Tree τ π}

def Furnished (t : Tree τ π) : Prop := ∀ n ∈ t.body, n.Furnished

/-- A tree in which nothing is missing and nothing is undefined. -/
structure Definite (R : Repertoire τ π γ ε) (t : Tree τ π) : Prop where
  furnished : t.Furnished
  leaves : t.Over R.DefiniteTask R.DefinitePredicate

theorem Definite.undergo {es : List (Event γ)} (h : t.Definite R)
    (hes : t.undergo R es = .ok t') : t'.Definite R where
  furnished :=
    undergo_keeps_body (fun _ _ hn ↦ hn.furnished) (fun _ hn ↦ hn.reset) h.furnished hes
  leaves := undergo_keeps_body (fun _ _ hn ↦ hn.over Repertoire.definite_preserved)
    (fun _ ↦ Node.reset_over Repertoire.definite_preserved) h.leaves hes

theorem status_ne_undefined_of_recorded {v : Visit R} (h : v.Recorded [])
    (hv : Definite R ⟨some v.node⟩) : v.after.status ≠ .undefined := by
  intro hundef
  obtain ⟨rel, w, own, -, hnode, hw, hwundef, -⟩ := h.exists_undefined hundef
  have hfurnished := Node.at?_of_children (fun _ ↦ Node.Furnished.children)
    (hv.furnished v.node rfl) hnode
  have hover := Node.at?_of_children (fun _ ↦ Node.Over.children) (hv.leaves v.node rfl) hnode
  exact hw.rule.status_ne_undefined hfurnished hover hwundef

/-! ## 4. Every evaluation -/

/-- What the notes of an evaluation of `t`, which has come to `s`, say of undefined outcomes. -/
structure TracesUndefined (R : Repertoire τ π γ ε) (t : Tree τ π) (s : Status)
    (notes : List (Note γ)) : Prop where
  /-- The last note says which node has brought it up. -/
  origin : s = .undefined →
    ∃ before x n, notes = before ++ [x] ∧ t.at? x.spot = some n ∧ n.Invents x
  /-- A node that brings it up has it for its outcome. -/
  invented : ∀ x ∈ notes, ∀ n, t.at? x.spot = some n → n.Invents x →
    t.Reported R notes x.spot .undefined
  /-- If no repeater stands above a node that has it for its outcome, nothing but what is below the
  node is evaluated afterwards, and the whole tree has it for its outcome. -/
  handed_on : ∀ spot, t.Reported R notes spot .undefined →
    (∀ above, above <+: spot → above ≠ spot →
      ∀ b limit count child, t.at? above ≠ some (.repeater b limit count child)) →
    s = .undefined ∧ ∃ before g later,
      notes = before ++ .entered spot g :: later ∧ ∀ x ∈ later, spot <+: x.spot

theorem tracesUndefined_of_recorded {v : Visit R} (h : v.Recorded []) :
    TracesUndefined R ⟨some v.node⟩ v.after.status v.notes where
  origin hundef := by
    obtain ⟨rel, w, own, before, hnode, hw, hwundef, hnotes⟩ := h.exists_undefined hundef
    obtain ⟨init, x, hinit, hspot, hinv⟩ := hw.rule.invents hwundef
    refine ⟨before ++ init, x, w.node, ?_, ?_, hinv⟩
    · rw [hnotes, hw.notes_eq, List.flatMap_nil, List.append_nil, hinit, List.append_assoc]
    · rw [hspot]
      exact hnode
  invented x hx n hn hinv := by
    obtain ⟨rel, w, hrel, hnode, -, hw, hmem⟩ := h.exists_visit hx
    obtain rfl : x.spot = rel := hrel
    obtain rfl : w.node = n := Option.some.inj (hnode.symm.trans hn)
    obtain ⟨vs, own, hvs⟩ := hw.recorded.consists
    have hundef := hvs.rule.status_of_invents hinv ((hvs.mem_notes_iff rfl).mp hmem)
    exact h.reported_iff.mpr ⟨w, hnode, hw, hundef⟩
  handed_on spot hspot habove := by
    obtain ⟨n, g, q, hg, hn, hq, hundef⟩ := hspot
    obtain ⟨hstatus, before, later, hsplit⟩ := h.handed_on spot hn hg hq hundef habove
    exact ⟨hstatus, before, g, later, hsplit⟩

/-- The empty tree fails without a note. -/
theorem tracesUndefined_of_empty (t : Tree τ π) : TracesUndefined R t .failure [] where
  origin := nofun
  invented _ hx := nomatch hx
  handed_on _ hspot := by
    obtain ⟨_, _, _, hg, _⟩ := hspot
    cases hg

/-- Undefined outcomes come of leaves and of conditions that lack something, and no node but a
repeater does anything about them. This is said by the notes of an evaluation, which signposts do
not change. So a tree in which nothing is missing and nothing is undefined has other outcomes,
whatever becomes of it. -/
theorem run_tracesUndefined (R : Repertoire τ π γ ε) (t : Tree τ π) (g : γ) :
    (t.signposted.run R.noting (g, [])).map Step.unsigned = t.run R g ∧
      (t.signposted.run R.noting (g, [])).ComesTo
        (fun r ↦ TracesUndefined R t r.status r.context.2) R.StopsAt ∧
      (t.Definite R → ∀ es t', t.undergo R es = .ok t' →
        (t'.run R g).ComesTo (fun r ↦ r.status ≠ .undefined) R.StopsAt) := by
  refine ⟨run_signposted R t g, run_signposted_comesTo fun r hr ↦ ?_, fun ht es t' hes ↦ ?_⟩
  · rcases exists_record hr with ⟨-, hstate, hnotes⟩ | ⟨v, rfl, -, hstate, hnotes, hrec⟩
    · rw [hnotes, show r.status = .failure from congrArg Step.status hstate]
      exact tracesUndefined_of_empty t
    · rw [hnotes, show r.status = v.after.status from congrArg Step.status hstate]
      exact tracesUndefined_of_recorded hrec
  · rw [← run_signposted, Except.comesTo_map]
    refine run_signposted_comesTo fun r hr ↦ ?_
    have ht' := ht.undergo hes
    rcases exists_record hr with ⟨-, hstate, -⟩ | ⟨v, rfl, -, hstate, -, hrec⟩
    · rw [hstate]
      exact nofun
    · rw [hstate]
      exact status_ne_undefined_of_recorded hrec ht'

/-- A task that only asks whether the number is even, behind a predicate that only compares it. -/
theorem rehearsed_definite :
    let play : Tree Rehearsal.Role Rehearsal.Cue :=
      ⟨some (.seq [.gate (.above 1) (.leaf .plain), .lenient .fail])⟩
    let stage : Rehearsal.Stage := { value := 2 }
    play.Definite Rehearsal.repertoire ∧
      ∃ play', play.undergo Rehearsal.repertoire [.run stage, .reset] = .ok play' ∧
        (play'.run Rehearsal.repertoire stage).ComesTo (fun r ↦ r.status ≠ .undefined)
          Rehearsal.repertoire.StopsAt := by
  intro play stage
  have hplain : Rehearsal.repertoire.DefiniteTask .plain := by
    intro t' ht'
    have hsame : t' = .plain := by
      induction ht' with
      | refl => rfl
      | tail _ hstep ih =>
        subst ih
        cases hstep with
        | setup | rewind => rfl
        | tick hr =>
          cases hr
          rfl
    subst hsame
    rintro g _ ⟨⟩
    show Status.ofBool _ ≠ _
    cases g.value % 2 == 0 <;> exact nofun
  have habove : Rehearsal.repertoire.DefinitePredicate (.above 1) := by
    intro p' hp'
    have hsame : p' = .above 1 := by
      induction hp' with
      | refl => rfl
      | tail _ hstep ih =>
        subst ih
        obtain ⟨g, r, ⟨⟩, rfl⟩ := hstep
        rfl
    subst hsame
    rintro g _ ⟨⟩
    show Status.ofBool _ ≠ _
    cases decide (1 < g.value) <;> exact nofun
  have hplay : play.Definite Rehearsal.repertoire := by
    constructor
    · rintro _ ⟨⟩
      refine .sequence fun c hc ↦ ?_
      rcases List.mem_pair.mp hc with rfl | rfl
      · exact .condition .task
      · exact .ignoreFailure .failure
    · rintro _ ⟨⟩
      refine .sequence fun c hc ↦ ?_
      rcases List.mem_pair.mp hc with rfl | rfl
      · refine .condition ?_ ?_
        · rintro _ ⟨⟩
          exact habove
        · rintro _ ⟨⟩
          exact .task hplain
      · exact .ignoreFailure .failure
  obtain ⟨play', hundergo⟩ :
      ∃ play', play.undergo Rehearsal.repertoire [.run stage, .reset] = .ok play' := by
    cases h : play.undergo Rehearsal.repertoire [.run stage, .reset] with
    | ok play' => exact ⟨play', rfl⟩
    | error e => nomatch e
  exact ⟨hplay, play', hundergo, (run_tracesUndefined _ play stage).2.2 hplay _ play' hundergo⟩

/-- What fails on purpose may still lack something. -/
example :
    let play : Tree Rehearsal.Role Rehearsal.Cue :=
      ⟨some (.sel [.lenient (.condition false (some (.above 1)) none), .leaf .plain])⟩
    (play.signposted.run Rehearsal.repertoire.noting ({ value := 2 }, [])).map
        (fun r ↦ (r.status, r.context.2.getLast?)) =
      .ok (.undefined, some (.asked [0, 0] .success)) := by
  rfl

end Tree

end Delve

import Delve.Proofs.Tree.Visit
import Delve.Tree.Rehearsal
/-!
# The order of an evaluation

An evaluation goes through a tree in preorder and comes to nothing twice. How far it gets depends
on the outcomes: the children of a sequence are evaluated as long as they succeed, those of a
selector as long as they fail. What it does not come to is left as it is.
-/

namespace Delve

variable {τ π γ ε : Type}

/-! ## 1. Preorder -/

/-- What an evaluation can come to at the address of a node. -/
inductive Station where
  | node (spot : Address)
  | predicate (spot : Address)
  | task (spot : Address)
deriving DecidableEq

def Station.spot : Station → Address
  | node spot | predicate spot | task spot => spot

/-- What a note is taken of. -/
def Note.station : Note γ → Station
  | entered spot _ => .node spot
  | asked spot _ => .predicate spot
  | ticked spot _ => .task spot

namespace Node

/-- What belongs to a node itself, apart from its children. -/
def ownStations (spot : Address) : Node τ π → List Station
  | condition _ (some _) _ => [.predicate spot]
  | task _ _ => [.task spot]
  | _ => []

mutual

/-- The subtree at `spot` in preorder: each node, its predicate or its task, and its children. -/
def stations (spot : Address) : Node τ π → List Station
  | n@(sequence _ cs) | n@(selector _ cs) =>
    .node spot :: (n.ownStations spot ++ stationsFrom spot 0 cs)
  | n@(condition _ _ (some c)) | n@(ignoreFailure _ c) | n@(repeater _ _ _ c) =>
    .node spot :: (n.ownStations spot ++ stations (spot ++ [0]) c)
  | n@(condition _ _ none) | n@(failure _) | n@(task _ _) => .node spot :: n.ownStations spot

/-- The children at `spot` from the `i`-th on. -/
def stationsFrom (spot : Address) (i : Nat) : List (Node τ π) → List Station
  | [] => []
  | c :: cs => stations (spot ++ [i]) c ++ stationsFrom spot (i + 1) cs

end

theorem stations_eq (spot : Address) (n : Node τ π) :
    n.stations spot = .node spot :: (n.ownStations spot ++ stationsFrom spot 0 n.children) := by
  cases n with
  | sequence | selector => rw [stations, children]
  | condition _ _ child =>
    cases child with
    | none => simp [stations, children, stationsFrom]
    | some c => simp [stations, children, stationsFrom]
  | ignoreFailure | repeater => simp [stations, children, stationsFrom]
  | failure | task => simp [stations, children, stationsFrom]

theorem stationsFrom_singleton (spot : Address) (i : Nat) (c : Node τ π) :
    stationsFrom spot i [c] = c.stations (spot ++ [i]) := by
  rw [stationsFrom, stationsFrom, List.append_nil]

/-! ## 2. Nothing stands twice in it -/

theorem spot_of_mem_ownStations {spot : Address} {n : Node τ π} {x : Station}
    (hx : x ∈ n.ownStations spot) : x.spot = spot ∧ x ≠ .node spot := by
  rcases n with _ | _ | ⟨_, _ | _, _⟩ | _ | _ | _ | _ <;> simp_all [ownStations, Station.spot]

theorem nodup_ownStations (spot : Address) (n : Node τ π) : (n.ownStations spot).Nodup := by
  rcases n with _ | _ | ⟨_, _ | _, _⟩ | _ | _ | _ | _ <;> simp [ownStations]

/-- What is below one of the children from the `i`-th on. -/
def Beneath (spot : Address) (i : Nat) (there : Address) : Prop :=
  ∃ j, i ≤ j ∧ spot ++ [j] <+: there

theorem Beneath.below {spot there : Address} {i : Nat} (h : Beneath spot i there) :
    spot <+: there := by
  obtain ⟨j, -, hj⟩ := h
  exact (List.prefix_append spot [j]).trans hj

/-- All of the stations are where `here` says, and none of them is there twice. -/
structure Spread (here : Address → Prop) (xs : List Station) : Prop where
  here : ∀ x ∈ xs, here x.spot
  nodup : xs.Nodup

theorem Spread.beneath {spot : Address} {i : Nat} {xs : List Station}
    (h : Spread (spot ++ [i] <+: ·) xs) : Spread (Beneath spot i) xs :=
  ⟨fun x hx ↦ ⟨i, Nat.le_refl i, h.here x hx⟩, h.nodup⟩

theorem spread_stations_of {spot : Address} {n : Node τ π}
    (h : Spread (Beneath spot 0) (stationsFrom spot 0 n.children)) :
    Spread (spot <+: ·) (n.stations spot) := by
  have hbelow : ∀ x ∈ stationsFrom spot 0 n.children, x.spot ≠ spot := by
    intro x hx hspot
    obtain ⟨j, -, hj⟩ := h.here x hx
    rw [hspot] at hj
    exact not_concat_below_self spot j hj
  rw [stations_eq]
  constructor
  · intro x hx
    rcases List.mem_cons.mp hx with rfl | hx
    · exact List.prefix_rfl
    rcases List.mem_append.mp hx with hx | hx
    · exact (spot_of_mem_ownStations hx).1 ▸ List.prefix_rfl
    · exact (h.here x hx).below
  -- what is the node's own stands at its address, and what is its children's stands below it
  · refine List.nodup_cons.mpr ⟨fun hmem ↦ ?_, ?_⟩
    · rcases List.mem_append.mp hmem with hmem | hmem
      · exact (spot_of_mem_ownStations hmem).2 rfl
      · exact hbelow _ hmem rfl
    · refine List.nodup_append.mpr ⟨nodup_ownStations spot n, h.nodup, fun x hx y hy hxy ↦ ?_⟩
      exact hbelow y hy (hxy ▸ (spot_of_mem_ownStations hx).1)

mutual

/-- By induction on the node: what stands below one child does not stand below another. -/
theorem spread_stations (spot : Address) : ∀ n : Node τ π, Spread (spot <+: ·) (n.stations spot)
  | sequence _ cs | selector _ cs => spread_stations_of (spread_stationsFrom spot 0 cs)
  | condition _ _ (some c) | ignoreFailure _ c | repeater _ _ _ c => by
    refine spread_stations_of ?_
    show Spread _ (stationsFrom spot 0 [c])
    rw [stationsFrom_singleton]
    exact (spread_stations (spot ++ [0]) c).beneath
  | condition _ _ none | failure _ | task _ _ => spread_stations_of ⟨List.forall_mem_nil _, .nil⟩

theorem spread_stationsFrom (spot : Address) (i : Nat) :
    ∀ cs : List (Node τ π), Spread (Beneath spot i) (stationsFrom spot i cs)
  | [] => ⟨List.forall_mem_nil _, .nil⟩
  | c :: cs => by
    have hfirst := spread_stations (spot ++ [i]) c
    have hlater := spread_stationsFrom spot (i + 1) cs
    rw [stationsFrom]
    constructor
    · intro x hx
      rcases List.mem_append.mp hx with hx | hx
      · exact ⟨i, Nat.le_refl i, hfirst.here x hx⟩
      · obtain ⟨j, hj, hx⟩ := hlater.here x hx
        exact ⟨j, Nat.le_of_succ_le hj, hx⟩
    · refine List.nodup_append.mpr ⟨hfirst.nodup, hlater.nodup, fun x hx y hy hxy ↦ ?_⟩
      obtain ⟨j, hj, hy⟩ := hlater.here y hy
      have hij := concat_prefix_inj (hfirst.here x hx) (hxy ▸ hy)
      omega

end

end Node

/-! ## 3. The notes of a visit are taken in preorder -/

namespace Visit

variable {R : Repertoire τ π γ ε} {spot : Address} {v : Visit R}

/-- If there are any children, one of them is the last to be visited, and answers for all. -/
theorem Turns.exists_last {on s : Status} {cs : List (Node τ π)} {g g' : γ} {vs : List (Visit R)}
    (h : Turns on cs g vs s g') (hcs : cs ≠ []) :
    ∃ before last, vs = before ++ [last] ∧ last.after.status = s ∧
      (∀ w ∈ before, w.after.status = on) ∧ (s = on → vs.length = cs.length) := by
  rcases h.ending with ⟨rfl, hlen, hall⟩ | ⟨before, last, hvs, hbefore, hlast, hoff⟩
  · have hvs : vs ≠ [] := by
      rintro rfl
      exact hcs (List.eq_nil_of_length_eq_zero hlen.symm)
    refine ⟨vs.dropLast, vs.getLast hvs, (List.dropLast_concat_getLast hvs).symm, ?_, ?_, ?_⟩
    · exact hall _ (List.getLast_mem hvs)
    · exact fun w hw ↦ hall w (List.dropLast_subset vs hw)
    · exact fun _ ↦ hlen
  · exact ⟨before, last, hvs, hlast, hbefore, fun hon ↦ absurd hon hoff⟩

end Visit

namespace Tree

variable {R : Repertoire τ π γ ε} {t : Tree τ π}

/-- The whole tree in preorder. -/
def stations (t : Tree τ π) : List Station := t.body.elim [] (·.stations [])

/-- The children `cs` of the node at `spot`, which has come to `s`, were evaluated up to and
including the first one that does not come to `on`, or all of them if there is none. The last one
has come to `s` as well. Without children a node fails. -/
def TakesTurns (R : Repertoire τ π γ ε) (t : Tree τ π) (notes : List (Note γ)) (on : Status)
    (spot : Address) (cs : List (Node τ π)) (s : Status) : Prop :=
  cs = [] ∧ s = .failure ∨
    ∃ k < cs.length, t.Reported R notes (spot ++ [k]) s ∧
      (∀ i < k, t.Reported R notes (spot ++ [i]) on) ∧ (s = on → k + 1 = cs.length) ∧
      ∀ (i : Nat) (g : γ), k < i → .entered (spot ++ [i]) g ∉ notes

/-- The notes of an evaluation that has made `t'` of a tree `t`, which is evaluated in order. -/
structure InOrder (R : Repertoire τ π γ ε) (t t' : Tree τ π) (notes : List (Note γ)) : Prop where
  /-- Nodes, predicates and tasks are come to once at most, from left to right. -/
  preorder : (notes.map Note.station).Sublist t.stations
  once : (notes.map Note.station).Nodup
  /-- What is entered is evaluated, and that is what becomes of it. -/
  evaluated : ∀ spot g, .entered spot g ∈ notes →
    ∃ n r, t.at? spot = some n ∧ n.run R g = .ok r ∧ t'.at? spot = some r.state
  /-- A node that is not entered is left as it is, with all that is below it. -/
  skipped : ∀ spot, (∀ g, .entered spot g ∉ notes) → t'.at? spot = t.at? spot
  /-- A task answers for its node, and a predicate in what its condition was entered in. -/
  ticked : ∀ spot s, .ticked spot s ∈ notes ↔
    (∃ b x, t.at? spot = some (.task b x)) ∧ t.Reported R notes spot s
  asked : ∀ spot s, .asked spot s ∈ notes ↔
    ∃ b p child g q, t.at? spot = some (.condition b (some p) child) ∧
      .entered spot g ∈ notes ∧ R.test p g = .ok q ∧ q.status = s
  sequence : ∀ spot v cs s, t.at? spot = some (.sequence v cs) → t.Reported R notes spot s →
    t.TakesTurns R notes .success spot cs s
  selector : ∀ spot v cs s, t.at? spot = some (.selector v cs) → t.Reported R notes spot s →
    t.TakesTurns R notes .failure spot cs s

end Tree

/-! ## 5. Every evaluation -/

/-- The second child of the sequence fails, so nothing is noted of the third one. -/
example :
    let play : Tree Rehearsal.Role Rehearsal.Cue :=
      ⟨some (.seq [.gate (.above 1) (.leaf .plain), .fail, .leaf .plain])⟩
    (play.signposted.run Rehearsal.repertoire.noting ({ value := 2 }, [])).map
        (fun r ↦ (r.status, r.context.2.map Note.station)) =
      .ok (.failure, [.node [], .node [0], .predicate [0], .node [0, 0], .task [0, 0],
        .node [1]]) := by
  rfl

end Delve

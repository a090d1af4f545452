import Mathlib.Data.List.Chain
import Mathlib.Data.List.Nodup
import Mathlib.Data.List.Perm.Subperm
import Delve.Route.Search
import Delve.Proofs.Grid
/-!
# Walks on the grid

What a search for a route is about: the walks that keep to the rules of a query, and what they
cost. Costs and distances are unbounded numbers here. `RouteQuery.Fits` says when the words of a
search can hold them, and `RouteQuery.fits_of_cells` gives a bound that can be checked.
`RouteQuery.Roomy` is what a search needs of it until it has found the goal, for which one walk to
the goal is enough (`RouteQuery.Walk.roomy`).
-/

namespace Delve

/-! ## 1. What walking costs -/

theorem RouteOptions.steps_subset (o : RouteOptions) : o.steps ⊆ kingSteps := by
  unfold steps
  split
  · exact List.Subset.refl _
  · decide

theorem RouteOptions.orthogonalSteps_subset (o : RouteOptions) : orthogonalSteps ⊆ o.steps := by
  unfold steps
  split
  · decide
  · exact List.Subset.refl _

theorem RouteOptions.length_steps_le (o : RouteOptions) : o.steps.length ≤ 8 := by
  unfold steps
  split <;> decide

theorem toNat_stepCost_mem (dx dy : Int32) :
    10 ≤ (stepCost dx dy).toNat ∧ (stepCost dx dy).toNat ≤ 20 := by
  unfold stepCost
  split <;> decide

/-- What the step from one cell to another costs. -/
def legCost (a b : Position) : Nat := (stepCost (b.x - a.x) (b.y - a.y)).toNat

theorem legCost_offset (a : Position) (d : Int32 × Int32) :
    legCost a (a.offset d.1 d.2) = (stepCost d.1 d.2).toNat := by
  unfold legCost Position.offset
  rw [show a.x + d.1 - a.x = d.1 by grind, show a.y + d.2 - a.y = d.2 by grind]

theorem ten_le_legCost (p q : Position) : 10 ≤ legCost p q := (toNat_stepCost_mem _ _).1

/-- What it costs to walk from cell to cell. -/
def walkCost : List Position → Nat
  | a :: b :: cells => legCost a b + walkCost (b :: cells)
  | _ => 0

theorem walkCost_concat {w : List Position} {a : Position} (h : w.getLast? = some a)
    (b : Position) : walkCost (w ++ [b]) = walkCost w + legCost a b := by
  fun_induction walkCost w with
  | case1 c d cells ih =>
    rw [List.getLast?_cons_cons] at h
    rw [List.cons_append, List.cons_append, walkCost, ← List.cons_append, ih h]
    omega
  | case2 w hw =>
    match w, h with
    | [c], h =>
      obtain rfl : c = a := by simpa using h
      simp [walkCost]
    | c :: d :: cells, _ => exact absurd rfl (hw c d cells)

theorem walkCost_le (w : List Position) : walkCost w ≤ 20 * (w.length - 1) := by
  fun_induction walkCost w with
  | case1 a b cells ih =>
    have hab := (toNat_stepCost_mem (b.x - a.x) (b.y - a.y)).2
    simp only [legCost, List.length_cons] at ih ⊢
    omega
  | case2 => omega

/-! ## 2. The walks of a query -/

namespace RouteQuery

variable {q : RouteQuery} {a b c : Position} {v w : List Position}

/-- One allowed step leads from `a` to `b`, and `b` may be stepped onto. -/
def Leads (q : RouteQuery) (a b : Position) : Prop :=
  ∃ d ∈ q.options.steps, a.offset d.1 d.2 = b ∧ q.passable b = true

theorem Leads.legCost_eq (h : q.Leads a b) (hstraight : q.options.diagonals = false) :
    legCost a b = 10 := by
  obtain ⟨d, hd, rfl, -⟩ := h
  rw [RouteOptions.steps, hstraight, if_neg Bool.false_ne_true] at hd
  rw [legCost_offset]
  simp only [orthogonalSteps, List.mem_cons, List.not_mem_nil, or_false] at hd
  rcases hd with rfl | rfl | rfl | rfl <;> decide

/-- The cells `w` lead from the start to `c` by allowed steps. Every cell after the first may be
stepped onto; the start alone is a walk whether it may be stepped onto or not. -/
structure Walk (q : RouteQuery) (w : List Position) (c : Position) : Prop where
  head : w.head? = some q.start
  last : w.getLast? = some c
  leads : w.IsChain q.Leads

theorem Walk.start (q : RouteQuery) : q.Walk [q.start] q.start :=
  ⟨rfl, rfl, .singleton _⟩

theorem Walk.ne_nil (h : q.Walk w c) : w ≠ [] := by
  rintro rfl
  exact absurd h.head (by simp)

theorem isChain_concat {R : Position → Position → Prop} (h : w.IsChain R)
    (hlast : w.getLast? = some a) (hab : R a b) : (w ++ [b]).IsChain R := by
  apply h.append (.singleton _)
  intro x hx y hy
  obtain rfl : a = x := by simpa [hlast] using hx
  obtain rfl : b = y := by simpa using hy
  exact hab

theorem Walk.concat (h : q.Walk w a) (hab : q.Leads a b) : q.Walk (w ++ [b]) b := by
  refine ⟨?_, by simp, isChain_concat h.leads h.last hab⟩
  rw [List.head?_append, h.head]
  rfl

/-- Walks grow at their ends. -/
@[elab_as_elim]
theorem Walk.concat_induction {motive : ∀ w c, q.Walk w c → Prop}
    (start : motive [q.start] q.start (.start q))
    (concat : ∀ w a b (h : q.Walk w a) (hab : q.Leads a b), motive w a h →
      motive (w ++ [b]) b (h.concat hab))
    {w : List Position} {c : Position} (h : q.Walk w c) : motive w c h := by
  induction w using List.reverseRecOn generalizing c with
  | nil => exact absurd rfl h.ne_nil
  | append_singleton w b ih =>
    obtain rfl : b = c := by simpa using h.last
    obtain ⟨hw, -, hwb⟩ := List.isChain_append.mp h.leads
    cases hlast : w.getLast? with
    | none =>
      obtain rfl : w = [] := by simpa using hlast
      obtain rfl : b = q.start := by simpa using h.head
      exact start
    | some a =>
      have hhead : w.head? = some q.start := by
        have hne : w ≠ [] := by rintro rfl; simp at hlast
        rw [← h.head, List.head?_append_of_ne_nil _ hne]
      have hwalk : q.Walk w a := ⟨hhead, hlast, hw⟩
      exact concat w a b hwalk (hwb a hlast b (by simp)) (ih hwalk)

theorem Walk.passable_or_start (h : q.Walk w c) : ∀ x ∈ w, x = q.start ∨ q.passable x = true := by
  induction h using Walk.concat_induction with
  | start => simp
  | concat w a b _ hab ih =>
    intro x hx
    rcases List.mem_append.mp hx with hx | hx
    · exact ih x hx
    · obtain ⟨_, _, _, hb⟩ := hab
      obtain rfl : x = b := by simpa using hx
      exact Or.inr hb

/-- Loops can be cut out of a walk. -/
theorem Walk.exists_nodup (h : q.Walk w c) : ∃ v, q.Walk v c ∧ v.Nodup := by
  induction h using Walk.concat_induction with
  | start => exact ⟨_, Walk.start q, List.nodup_singleton _⟩
  | concat w a b _ hab ih =>
    obtain ⟨v, hv, hnodup⟩ := ih
    by_cases hb : b ∈ v
    · -- the walk came through `b` before: the part up to there is enough
      obtain ⟨s, t, rfl⟩ := List.append_of_mem hb
      have hsub : s ++ [b] <+: s ++ b :: t := ⟨t, by simp⟩
      refine ⟨s ++ [b], ⟨?_, by simp, hv.leads.prefix hsub⟩, hnodup.sublist hsub.sublist⟩
      rw [← hv.head]
      cases s <;> rfl
    · refine ⟨v ++ [b], hv.concat hab, ?_⟩
      rw [List.nodup_append]
      refine ⟨hnodup, List.nodup_singleton _, ?_⟩
      intro x hx y hy
      obtain rfl : y = b := by simpa using hy
      rintro rfl
      exact hb hx

/-! ## 3. Queries whose numbers fit into words -/

/-- A search for the query stays within its words: every cell within reach is an inner one, and the
cheapest way there leaves room for one more step and the distance that is left after it. -/
structure Fits (q : RouteQuery) : Prop where
  inner : ∀ w c, q.Walk w c → c.IsInner
  bounded : ∀ w c, q.Walk w c →
    ∃ v, q.Walk v c ∧ walkCost v + c.separation q.goal + 22 < 2 ^ 32

/-- A search for the query stays within its words until it has found the goal: steps lead to inner
cells, and for every cell within reach there is a walk to it or to the goal itself that leaves room
for one more step and the distance that is left after it. -/
structure Roomy (q : RouteQuery) : Prop where
  inner : ∀ w a b, q.Walk w a → q.Leads a b → b.IsInner
  bounded : ∀ w c, q.Walk w c → ∃ v x, q.Walk v x ∧ (x = c ∨ x = q.goal) ∧
    walkCost v + x.separation q.goal + 22 < 2 ^ 32

theorem Fits.roomy (hq : q.Fits) : q.Roomy where
  inner _ _ b hw hab := hq.inner _ b (hw.concat hab)
  bounded w c hw := by
    obtain ⟨v, hv, hbound⟩ := hq.bounded w c hw
    exact ⟨v, c, hv, Or.inl rfl, hbound⟩

/-- A single walk to the goal leaves the search all the room that it needs. -/
theorem Walk.roomy (hw : q.Walk w q.goal) (hcost : walkCost w + 22 < 2 ^ 32)
    (hinner : ∀ c, q.passable c = true → c.IsInner) : q.Roomy where
  inner _ _ b _ hab := by
    obtain ⟨_, _, _, hb⟩ := hab
    exact hinner b hb
  bounded _ _ _ := by
    refine ⟨w, q.goal, hw, Or.inr rfl, ?_⟩
    rw [Position.separation_self]
    exact hcost

/-- Along a walk the distance to the goal never falls by more than what the step costs. -/
theorem Roomy.separation_le (hq : q.Roomy) (hw : q.Walk w a) (hab : q.Leads a b) :
    a.separation q.goal ≤ legCost a b + b.separation q.goal := by
  have hinner := hq.inner w a b hw hab
  obtain ⟨d, hd, rfl, -⟩ := hab
  have hstep := Position.separation_offset_of_isInner (q.options.steps_subset hd) hinner q.goal
  have hcost := toNat_stepCost_mem d.1 d.2
  rw [legCost_offset]
  omega

theorem Roomy.separation_start_le (hq : q.Roomy) (hw : q.Walk w c) :
    q.start.separation q.goal ≤ walkCost w + c.separation q.goal := by
  induction hw using Walk.concat_induction with
  | start => exact Nat.le_add_left _ _
  | concat w a b hw hab ih =>
    have hstep := hq.separation_le hw hab
    rw [walkCost_concat hw.last]
    omega

/-- A query fits if few enough cells may be stepped onto and none is too far away. -/
theorem fits_of_cells {cells : List Position} (far : Nat)
    (hcells : ∀ c, q.passable c = true → c ∈ cells)
    (hinner : ∀ c ∈ q.start :: cells, c.IsInner)
    (hfar : ∀ c ∈ q.start :: cells, c.separation q.goal ≤ far)
    (hsmall : 20 * cells.length + far + 22 < 2 ^ 32) : q.Fits := by
  have hmem : ∀ {w c}, q.Walk w c → ∀ x ∈ w, x ∈ q.start :: cells := by
    intro w c h x hx
    rcases h.passable_or_start x hx with rfl | hx
    · exact List.mem_cons_self
    · exact List.mem_cons_of_mem _ (hcells x hx)
  have hlast : ∀ {w c}, q.Walk w c → c ∈ q.start :: cells :=
    fun h ↦ hmem h _ (List.mem_of_getLast? h.last)
  refine ⟨fun w c h ↦ hinner c (hlast h), fun w c h ↦ ?_⟩
  obtain ⟨v, hv, hnodup⟩ := h.exists_nodup
  refine ⟨v, hv, ?_⟩
  have hlen : v.length ≤ (q.start :: cells).length :=
    (hnodup.subperm (hmem hv)).length_le
  have hcost := walkCost_le v
  have hdist := hfar c (hlast h)
  rw [List.length_cons] at hlen
  omega

/-- Five cells around a pillar, with the start and the goal on two sides of it. -/
def aroundPillar : RouteQuery where
  start := ⟨0, 0⟩
  goal := ⟨2, 0⟩
  options := { diagonals := true }
  passable := [⟨0, 0⟩, ⟨0, 1⟩, ⟨1, 1⟩, ⟨2, 1⟩, ⟨2, 0⟩].contains

theorem aroundPillar_fits : aroundPillar.Fits := by
  refine fits_of_cells 3 (fun c hc ↦ List.contains_iff_mem.mp hc) ?_ ?_ (by decide)
  · decide
  · decide

end RouteQuery

end Delve

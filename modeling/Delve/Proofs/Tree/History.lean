import Delve.Proofs.Tree.Origin
import Delve.Proofs.Tree.View
/-!
# Histories of trees

A tree is evaluated again and again, and reset in between. A reset undoes the whole of such a
history where the leaves' own rewinding undoes what happened to them.
-/

namespace Delve

variable {τ υ π γ ε : Type}

namespace Tree

inductive Event (γ : Type) where
  | run (g : γ)
  | reset

/-- What becomes of a tree in a history. -/
def undergo (R : Repertoire τ π γ ε) : Tree τ π → List (Event γ) → Except ε (Tree τ π)
  | t, [] => .ok t
  | t, .run g :: es => do
    let r ← t.run R g
    undergo R r.state es
  | t, .reset :: es => undergo R (t.reset R) es

/-- What comes of evaluating a tree in the given surroundings, one after the other: each status,
and what has become of the surroundings. -/
def outcomes (R : Repertoire τ π γ ε) : Tree τ π → List γ → Except ε (List (Status × γ))
  | _, [] => .ok []
  | t, g :: gs => do
    let r ← t.run R g
    let later ← outcomes R r.state gs
    .ok ((r.status, r.context) :: later)

/-! ## 1. What is undone -/

section Undone

variable {R Q : Repertoire τ π γ ε} {t t' : Tree τ π}

/-- The stricter reset undoes a whole history. -/
theorem reset_undergo {es : List (Event γ)} (ht : t.Over (R.UndoneAt Q) R.Stateless)
    (hes : t.undergo R es = .ok t') : t'.reset Q = t.reset Q := by
  have hkept : R.Preserves (R.UndoneAt Q) R.Stateless := Repertoire.UndoneAt.preserved
  induction es generalizing t with
  | nil =>
    cases hes
    rfl
  | cons e es ih =>
    cases e with
    | run g =>
      obtain ⟨r, hr, hes⟩ := bind_eq_ok.mp hes
      rw [ih (run_over hkept ht hr) hes, reset_run_of_over ht hr]
    | reset => rw [ih (reset_over hkept ht) hes, reset_reset_of_over ht]

end Undone

/-! ## 2. What is seen -/

section Seen

variable {Q : Repertoire υ π γ ε} {R : Repertoire τ π γ ε} {f : τ → υ}

theorem undergo_mapTask (h : Q.Renders R f) (t : Tree τ π) (es : List (Event γ)) :
    (t.mapTask f).undergo Q es = (t.undergo R es).map (mapTask f) := by
  induction es generalizing t with
  | nil => rfl
  | cons e es ih =>
    cases e with
    | run g =>
      rw [undergo, undergo, run_mapTask h]
      cases t.run R g with
      | error e => rfl
      | ok r => exact ih r.state
    | reset =>
      rw [undergo, undergo, reset_mapTask h]
      exact ih _

theorem outcomes_mapTask (h : Q.Renders R f) (t : Tree τ π) (gs : List γ) :
    (t.mapTask f).outcomes Q gs = t.outcomes R gs := by
  induction gs generalizing t with
  | nil => rfl
  | cons g gs ih =>
    rw [outcomes, outcomes, run_mapTask h]
    cases t.run R g with
    | error e => rfl
    | ok r =>
      show (outcomes Q (r.state.mapTask f) gs).bind _ = _
      rw [ih r.state]
      rfl

end Seen

/-! ## 3. What is kept -/

section Kept

variable {R : Repertoire τ π γ ε} {t t' : Tree τ π} {es : List (Event γ)}

/-- What every evaluation and every reset keep, a whole history keeps. -/
theorem undergo_keeps {P : Tree τ π → Prop}
    (hrun : ∀ t g r, P t → t.run R g = .ok r → P r.state) (hreset : ∀ t, P t → P (t.reset R))
    (ht : P t) (hes : t.undergo R es = .ok t') : P t' := by
  induction es generalizing t with
  | nil =>
    cases hes
    exact ht
  | cons e es ih =>
    cases e with
    | run g =>
      obtain ⟨r, hr, hes⟩ := bind_eq_ok.mp hes
      exact ih (hrun t g r ht hr) hes
    | reset => exact ih (hreset t ht) hes

/-- So it does with what nodes keep, whatever becomes of them. -/
theorem undergo_keeps_body {P : Node τ π → Prop} (hrun : ∀ n n', n.Evolves R n' → P n → P n')
    (hreset : ∀ n, P n → P (n.reset R)) (ht : ∀ n ∈ t.body, P n) (hes : t.undergo R es = .ok t') :
    ∀ n ∈ t'.body, P n := by
  refine undergo_keeps (P := fun t ↦ ∀ n ∈ t.body, P n) (fun t g r ht hr ↦ ?_)
    (fun t ht ↦ ?_) ht hes
  · rcases run_evolves hr with ⟨-, hsame⟩ | ⟨n, n', rfl, hstate, hn⟩
    · rw [hsame]
      exact ht
    · rw [hstate]
      rintro _ ⟨⟩
      exact hrun n n' hn (ht n rfl)
  · obtain ⟨body⟩ := t
    cases body with
    | none => exact ht
    | some n =>
      rintro _ ⟨⟩
      exact hreset n (ht n rfl)

end Kept

end Tree

end Delve

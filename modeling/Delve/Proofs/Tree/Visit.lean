import Delve.Proofs.Tree.Record
/-!
# Visits within an evaluation

Whatever is noted of an evaluation is noted of a visit to one of its nodes. The notes of that visit
stand in a row, nothing else that is noted is about the node or what is below it, and a node that
is not visited is left as it is.
-/

namespace Delve

variable {τ π γ ε : Type}

/-! ## 1. Addresses below another one -/

theorem concat_prefix_inj {spot there : Address} {i j : Nat} (hi : spot ++ [i] <+: there)
    (hj : spot ++ [j] <+: there) : i = j := by
  have hlen : (spot ++ [i]).length = (spot ++ [j]).length := by simp
  have heq := (List.prefix_of_prefix_length_le hi hj (Nat.le_of_eq hlen)).eq_of_length hlen
  simpa using heq

theorem not_concat_below_self (spot : Address) (i : Nat) : ¬ spot ++ [i] <+: spot := by
  intro h
  have hlen := h.length_le
  rw [List.length_append, List.length_singleton] at hlen
  omega

namespace Visit

variable {R : Repertoire τ π γ ε} {spot : Address} {v : Visit R}

/-! ## 2. Visits within a visit -/

/-- Among the notes are those of the visit to the node at `spot`, in a row, and no others are about
that node or what is below it. -/
structure Within (w : Visit R) (spot : Address) (notes : List (Note γ)) : Prop where
  recorded : Recorded spot w
  split : ∃ before after, notes = before ++ (w.notes ++ after) ∧
    (∀ x ∈ before, ¬ spot <+: x.spot) ∧ ∀ x ∈ after, ¬ spot <+: x.spot

theorem Within.trans {u w : Visit R} {there : Address} {notes : List (Note γ)}
    (hu : u.Within there w.notes) (hw : w.Within spot notes) (h : spot <+: there) :
    u.Within there notes := by
  obtain ⟨hrec, before, after, hnotes, hbefore, hafter⟩ := hu
  obtain ⟨-, before', after', rfl, hbefore', hafter'⟩ := hw
  refine ⟨hrec, before' ++ before, after ++ after', ?_, ?_, ?_⟩
  · rw [hnotes]
    simp only [List.append_assoc]
  · intro x hx hbelow
    rcases List.mem_append.mp hx with hx | hx
    · exact hbefore' x hx (h.trans hbelow)
    · exact hbefore x hx hbelow
  · intro x hx hbelow
    rcases List.mem_append.mp hx with hx | hx
    · exact hafter x hx hbelow
    · exact hafter' x hx (h.trans hbelow)

theorem Within.mem_of_below {w : Visit R} {notes : List (Note γ)} {x : Note γ}
    (h : w.Within spot notes) (hx : x ∈ notes) (hbelow : spot <+: x.spot) : x ∈ w.notes := by
  obtain ⟨-, before, after, rfl, hbefore, hafter⟩ := h
  rcases List.mem_append.mp hx with hx | hx
  · exact absurd hbelow (hbefore x hx)
  · rcases List.mem_append.mp hx with hx | hx
    · exact hx
    · exact absurd hbelow (hafter x hx)

theorem Within.mem {w : Visit R} {notes : List (Note γ)} {x : Note γ} (h : w.Within spot notes)
    (hx : x ∈ w.notes) : x ∈ notes := by
  obtain ⟨-, before, after, rfl, -, -⟩ := h
  exact List.mem_append_right before (List.mem_append_left after hx)

/-- The evaluation of a node with the visits to its children. -/
structure Consists (spot : Address) (v : Visit R) (vs : List (Visit R)) (own : List (Note γ)) :
    Prop where
  rule : Rule R spot v.node v.before vs own v.after
  recorded : ∀ (i : Nat) (w : Visit R), vs[i]? = some w → Recorded (spot ++ [i]) w
  notes_eq : v.notes = .entered spot v.before :: (own ++ vs.flatMap notes)

theorem Recorded.consists (h : Recorded spot v) : ∃ vs own, Consists spot v vs own := by
  obtain ⟨hrule, hrec, hnotes⟩ := h
  exact ⟨_, _, hrule, hrec, hnotes⟩

variable {vs : List (Visit R)} {own : List (Note γ)}

/-- A node's own notes are not about its children. -/
theorem Consists.not_below_of_first (h : Consists spot v vs own) (i : Nat) :
    ∀ x ∈ Note.entered spot v.before :: own, ¬ spot ++ [i] <+: x.spot := by
  intro x hx
  rcases List.mem_cons.mp hx with rfl | hx
  · exact not_concat_below_self spot i
  · rw [(h.rule.own_spot x hx).1]
    exact not_concat_below_self spot i

/-- Notes of visits to other children are not about the `i`-th one. -/
theorem not_below_of_others {i : Nat} {ws : List (Visit R)}
    (h : ∀ w ∈ ws, ∃ j, j ≠ i ∧ Recorded (spot ++ [j]) w) :
    ∀ x ∈ ws.flatMap notes, ¬ spot ++ [i] <+: x.spot := by
  intro x hx hbelow
  obtain ⟨w, hw, hx⟩ := List.mem_flatMap.mp hx
  obtain ⟨j, hne, hw⟩ := h w hw
  exact hne (concat_prefix_inj (hw.below_spot x hx) hbelow)

theorem Consists.within (h : Consists spot v vs own) {i : Nat} {w : Visit R}
    (hw : vs[i]? = some w) : w.Within (spot ++ [i]) v.notes := by
  obtain ⟨hi, rfl⟩ := List.getElem?_eq_some_iff.mp hw
  have hflat : vs.flatMap notes =
      (vs.take i).flatMap notes ++ (vs[i].notes ++ (vs.drop (i + 1)).flatMap notes) := by
    rw [← List.flatMap_cons, ← List.flatMap_append, ← List.drop_eq_getElem_cons hi,
      List.take_append_drop]
  refine ⟨h.recorded i vs[i] hw, .entered spot v.before :: own ++ (vs.take i).flatMap notes,
    (vs.drop (i + 1)).flatMap notes, ?_, ?_, ?_⟩
  · rw [h.notes_eq, hflat, List.cons_append, List.cons_append, List.append_assoc]
  · intro x hx
    rcases List.mem_append.mp hx with hx | hx
    · exact h.not_below_of_first i x hx
    · refine not_below_of_others (fun u hu ↦ ?_) x hx
      obtain ⟨j, hj⟩ := List.mem_iff_getElem?.mp hu
      rw [List.getElem?_take] at hj
      split at hj
      · exact ⟨j, by omega, h.recorded j u hj⟩
      · cases hj
  · refine not_below_of_others fun u hu ↦ ?_
    obtain ⟨j, hj⟩ := List.mem_iff_getElem?.mp hu
    rw [List.getElem?_drop] at hj
    exact ⟨i + 1 + j, by omega, h.recorded _ u hj⟩

theorem Consists.not_below (h : Consists spot v vs own) {i : Nat} (hi : vs.length ≤ i) :
    ∀ x ∈ v.notes, ¬ spot ++ [i] <+: x.spot := by
  rw [h.notes_eq, ← List.cons_append]
  intro x hx
  rcases List.mem_append.mp hx with hx | hx
  · exact h.not_below_of_first i x hx
  · refine not_below_of_others (fun w hw ↦ ?_) x hx
    obtain ⟨j, hj⟩ := List.mem_iff_getElem?.mp hw
    obtain ⟨hlt, -⟩ := List.getElem?_eq_some_iff.mp hj
    exact ⟨j, by omega, h.recorded j w hj⟩

theorem Recorded.within_self (h : Recorded spot v) : v.Within spot v.notes :=
  ⟨h, [], [], by simp, by simp, by simp⟩

/-- What is below a node that is visited is visited itself, or it is left as it is. By induction on
the way down to it. -/
theorem Recorded.at? (h : Recorded spot v) (rel : Address) :
    (∃ w : Visit R, v.node.at? rel = some w.node ∧ v.after.state.at? rel = some w.after.state ∧
      w.Within (spot ++ rel) v.notes) ∨
    (v.after.state.at? rel = v.node.at? rel ∧ ∀ x ∈ v.notes, ¬ spot ++ rel <+: x.spot) := by
  induction rel generalizing spot v with
  | nil =>
    rw [List.append_nil, Node.at?_nil, Node.at?_nil]
    exact Or.inl ⟨v, rfl, rfl, h.within_self⟩
  | cons i rel ih =>
    obtain ⟨vs, own, hv⟩ := h.consists
    have hsplit : spot ++ i :: rel = (spot ++ [i]) ++ rel := by simp
    have hfirst : spot ++ [i] <+: spot ++ i :: rel := hsplit ▸ List.prefix_append _ _
    by_cases hi : i < vs.length
    -- the child on the way was visited, and it is asked in turn
    · obtain ⟨hnode, hafter⟩ := hv.rule.getElem?_children (List.getElem?_eq_getElem hi)
      have hw := hv.within (List.getElem?_eq_getElem hi)
      rw [Node.at?, Node.at?, hnode, hafter, Option.bind_some, Option.bind_some, hsplit]
      rw [hsplit] at hfirst
      rcases ih hw.recorded with ⟨u, hnode', hafter', hu⟩ | ⟨hsame, hnone⟩
      · exact Or.inl ⟨u, hnode', hafter', hu.trans hw hfirst⟩
      · refine Or.inr ⟨hsame, fun x hx hbelow ↦ ?_⟩
        exact hnone x (hw.mem_of_below hx (hfirst.trans hbelow)) hbelow
    -- it was not, and so nothing below it was
    · have hi := Nat.le_of_not_lt hi
      refine Or.inr ⟨?_, fun x hx hbelow ↦ hv.not_below hi x hx (hfirst.trans hbelow)⟩
      rw [Node.at?, Node.at?, hv.rule.children.2, getElem?_left_of_le hi]

theorem Recorded.mem_notes (h : Recorded spot v) : .entered spot v.before ∈ v.notes := by
  obtain ⟨vs, own, hv⟩ := h.consists
  rw [hv.notes_eq]
  exact List.mem_cons_self

/-- What is noted of the children is not about the node itself. -/
theorem Consists.spot_ne (h : Consists spot v vs own) : ∀ x ∈ vs.flatMap notes, x.spot ≠ spot := by
  intro x hx hspot
  obtain ⟨w, hw, hx⟩ := List.mem_flatMap.mp hx
  obtain ⟨j, hj⟩ := List.mem_iff_getElem?.mp hw
  exact not_concat_below_self spot j (hspot ▸ (h.recorded j w hj).below_spot x hx)

theorem Consists.mem_notes_iff (h : Consists spot v vs own) {x : Note γ} (hx : x.spot = spot) :
    x ∈ v.notes ↔ x = .entered spot v.before ∨ x ∈ own := by
  rw [h.notes_eq, List.mem_cons, List.mem_append]
  exact or_congr_right (or_iff_left fun hchild ↦ h.spot_ne x hchild hx)

/-- A node is not entered again. -/
theorem Consists.ne_entered (h : Consists spot v vs own) (g : γ) :
    ∀ x ∈ own ++ vs.flatMap notes, x ≠ .entered spot g := by
  intro x hx
  rcases List.mem_append.mp hx with hx | hx
  · exact (h.rule.own_spot x hx).2 spot g
  · rintro rfl
    exact h.spot_ne _ hx rfl

theorem Recorded.eq_of_entered {g : γ} (h : Recorded spot v) (hg : .entered spot g ∈ v.notes) :
    g = v.before := by
  obtain ⟨vs, own, hv⟩ := h.consists
  rw [hv.notes_eq] at hg
  rcases List.mem_cons.mp hg with hg | hg
  · cases hg
    rfl
  · exact absurd rfl (hv.ne_entered g _ hg)

/-- Every node that is noted is visited where it stands. -/
theorem Recorded.exists_visit {x : Note γ} (h : Recorded spot v) (hx : x ∈ v.notes) :
    ∃ (rel : Address) (w : Visit R), x.spot = spot ++ rel ∧ v.node.at? rel = some w.node ∧
      v.after.state.at? rel = some w.after.state ∧ w.Within x.spot v.notes ∧ x ∈ w.notes := by
  obtain ⟨rel, hrel⟩ := h.below_spot x hx
  rcases h.at? rel with ⟨w, hnode, hafter, hw⟩ | ⟨-, hnone⟩
  · rw [hrel] at hw
    exact ⟨rel, w, hrel.symm, hnode, hafter, hw, hw.mem_of_below hx List.prefix_rfl⟩
  · exact absurd (hrel ▸ List.prefix_rfl) (hnone x hx)

end Visit

/-! ## 3. What is reported of a tree -/

/-- By the notes of an evaluation, the node at `spot` was evaluated and came to `s`. -/
def Tree.Reported (R : Repertoire τ π γ ε) (t : Tree τ π) (notes : List (Note γ)) (spot : Address)
    (s : Status) : Prop :=
  ∃ n g r, .entered spot g ∈ notes ∧ t.at? spot = some n ∧ n.run R g = .ok r ∧ r.status = s

variable {R : Repertoire τ π γ ε} {v : Visit R}

/-- What is entered is visited, and its outcome is that of the visit. -/
theorem Visit.Recorded.visit_of_entered (h : Recorded [] v) {spot : Address} {g : γ}
    (hg : .entered spot g ∈ v.notes) :
    ∃ w : Visit R, w.before = g ∧ v.node.at? spot = some w.node ∧
      v.after.state.at? spot = some w.after.state ∧ w.Within spot v.notes := by
  obtain ⟨rel, w, hrel, hnode, hafter, hw, hg⟩ := h.exists_visit hg
  obtain rfl : spot = rel := hrel
  exact ⟨w, (hw.recorded.eq_of_entered hg).symm, hnode, hafter, hw⟩

theorem Visit.Recorded.reported_iff (h : Recorded [] v) {spot : Address} {s : Status} :
    Tree.Reported R ⟨some v.node⟩ v.notes spot s ↔
      ∃ w : Visit R, v.node.at? spot = some w.node ∧ w.Within spot v.notes ∧
        w.after.status = s := by
  constructor
  · rintro ⟨n, g, r, hg, hnode, hr, rfl⟩
    obtain ⟨w, rfl, hnode', -, hw⟩ := h.visit_of_entered hg
    obtain rfl : w.node = n := Option.some.inj (hnode'.symm.trans hnode)
    obtain rfl : w.after = r := Except.ok.inj (w.run_eq.symm.trans hr)
    exact ⟨w, hnode, hw, rfl⟩
  · rintro ⟨w, hnode, hw, rfl⟩
    exact ⟨w.node, w.before, w.after, hw.mem hw.recorded.mem_notes, hnode, w.run_eq, rfl⟩

end Delve

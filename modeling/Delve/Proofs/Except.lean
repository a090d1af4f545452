/-!
# Calculations that can fail

When a calculation made of several goes through, what holds of it whether it does or not, and when
two of them agree.
-/

namespace Delve

variable {ε α β : Type}

theorem bind_eq_ok {x : Except ε α} {f : α → Except ε β} {b : β} :
    x.bind f = .ok b ↔ ∃ a, x = .ok a ∧ f a = .ok b := by
  cases x with
  | error e => simp [Except.bind]
  | ok a => simp [Except.bind]

theorem map_eq_ok {x : Except ε α} {f : α → β} {b : β} :
    x.map f = .ok b ↔ ∃ a, x = .ok a ∧ f a = b := by
  cases x with
  | error e => simp [Except.map]
  | ok a => simp [Except.map]

theorem toOption_eq_some {x : Except ε α} {a : α} (h : x.toOption = some a) : x = .ok a := by
  cases x with
  | error e => cases h
  | ok b =>
    cases h
    rfl

end Delve

namespace Except

variable {ε α β : Type} {P : α → Prop} {Q : β → Prop} {E : ε → Prop}

/-- The calculation has a result with `P`, or it stops at an error with `E`. -/
def ComesTo (x : Except ε α) (P : α → Prop) (E : ε → Prop) : Prop :=
  match x with
  | .ok a => P a
  | .error e => E e

theorem ComesTo.bind {x : Except ε α} {f : α → Except ε β} (h : x.ComesTo P E)
    (hf : ∀ a, P a → (f a).ComesTo Q E) : (x >>= f).ComesTo Q E := by
  cases x with
  | error e => exact h
  | ok a => exact hf a h

theorem comesTo_map {x : Except ε α} {f : α → β} :
    (x.map f).ComesTo Q E ↔ x.ComesTo (fun a ↦ Q (f a)) E := by
  cases x <;> exact Iff.rfl

theorem map_inj {x y : Except ε α} {f : α → β} (hf : ∀ a b, f a = f b → a = b)
    (h : x.map f = y.map f) : x = y := by
  cases x <;> cases y
  · exact congrArg _ (error.inj h)
  · cases h
  · cases h
  · exact congrArg _ (hf _ _ (ok.inj h))

theorem ComesTo.mono {x : Except ε α} {P' : α → Prop} {E' : ε → Prop} (h : x.ComesTo P E)
    (hP : ∀ a, P a → P' a) (hE : ∀ e, E e → E' e) : x.ComesTo P' E' := by
  cases x with
  | error e => exact hE e h
  | ok a => exact hP a h

theorem ComesTo.of_eq_ok {x : Except ε α} {a : α} (h : x.ComesTo P E) (hx : x = .ok a) : P a := by
  subst hx
  exact h

/-- Where no error is possible, there is a result. -/
theorem ComesTo.exists_ok {x : Except ε α} (h : x.ComesTo P fun _ ↦ False) :
    ∃ a, x = .ok a ∧ P a := by
  cases x with
  | error e => exact h.elim
  | ok a => exact ⟨a, rfl, h⟩

theorem comesTo_of_exists_ok {x : Except ε α} (h : ∃ a, x = .ok a ∧ P a) : x.ComesTo P E := by
  obtain ⟨a, rfl, ha⟩ := h
  exact ha

/-- Two calculations have results that `r` relates, or they stop at the same error. -/
def Agree (r : α → β → Prop) (x : Except ε α) (y : Except ε β) : Prop :=
  match x, y with
  | .ok a, .ok b => r a b
  | .error e, .error e' => e = e'
  | _, _ => False

section Agreement

variable {α' β' : Type} {r : α → β → Prop} {q : α' → β' → Prop}

theorem Agree.bind {x : Except ε α} {y : Except ε β} {f : α → Except ε α'} {g : β → Except ε β'}
    (h : x.Agree r y) (hf : ∀ a b, r a b → (f a).Agree q (g b)) : (x >>= f).Agree q (y >>= g) := by
  cases x <;> cases y
  · exact h
  · exact h.elim
  · exact h.elim
  · exact hf _ _ h

theorem Agree.map {x : Except ε α} {y : Except ε β} {f : α → α'} {g : β → β'} (h : x.Agree r y)
    (hf : ∀ a b, r a b → q (f a) (g b)) : (x.map f).Agree q (y.map g) := by
  cases x <;> cases y
  · exact h
  · exact h.elim
  · exact h.elim
  · exact hf _ _ h

theorem Agree.mono {x : Except ε α} {y : Except ε β} {r' : α → β → Prop} (h : x.Agree r y)
    (hr : ∀ a b, r a b → r' a b) : x.Agree r' y := by
  cases x <;> cases y
  · exact h
  · exact h.elim
  · exact h.elim
  · exact hr _ _ h

/-- What the first result has can be added to what relates the two. -/
theorem Agree.and_comesTo {x : Except ε α} {y : Except ε β} (h : x.Agree r y)
    (hx : x.ComesTo P E) : Agree (fun a b ↦ r a b ∧ P a) x y := by
  cases x <;> cases y
  · exact h
  · exact h.elim
  · exact h.elim
  · exact ⟨h, hx⟩

/-- What is known of the second result can be added as well: it is the one that there is. -/
theorem Agree.and_eq {x : Except ε α} {y : Except ε β} (h : x.Agree r y) :
    Agree (fun a b ↦ r a b ∧ y = .ok b) x y := by
  cases x <;> cases y
  · exact h
  · exact h.elim
  · exact h.elim
  · exact ⟨h, rfl⟩

theorem Agree.elim {x : Except ε α} {y : Except ε β} (h : x.Agree r y) :
    (∃ a b, x = .ok a ∧ y = .ok b ∧ r a b) ∨ ∃ e, x = .error e ∧ y = .error e := by
  cases x <;> cases y
  · cases h
    exact Or.inr ⟨_, rfl, rfl⟩
  · exact False.elim h
  · exact False.elim h
  · exact Or.inl ⟨_, _, rfl, rfl, h⟩

theorem map_eq_iff_agree {x : Except ε α} {y : Except ε β} {f : α → β} :
    x.map f = y ↔ Agree (fun a b ↦ f a = b) x y := by
  cases x <;> cases y <;> simp [Except.map, Agree]

end Agreement

end Except

import Delve.Proofs.Dice
/-!
# What draws answer

Every draw moves the dice on by one, whatever it asks for and even where there is nothing to choose
between; only a draw from an empty list leaves them alone. So the dice know how many draws there
were and nothing else of them, and what is drawn next is the same after any two histories of as many
draws. No answer depends on a sum that wraps: each is the one of a calculation with unbounded
numbers. The main statement is `answers_forget`.
-/

namespace Delve

/-! ## 1. Numbers in words -/

namespace Generator

theorem toNat_d100 (seed : UInt64) : (d100 seed).toNat = (next seed).toNat % 100 + 1 := by
  have hroll : (next seed % 100).toNat = (next seed).toNat % 100 := UInt32.toNat_mod _ _
  have hone : (1 : UInt32).toNat = 1 := rfl
  rw [d100, UInt32.toNat_add, hroll, hone]
  omega

/-- How many words there are from `low` to `high` is a word itself, unless these are all. -/
theorem toNat_count {low high : UInt32} (hlt : low < high)
    (hfits : (low, high) ≠ (0, .ofNat (UInt32.size - 1))) :
    (high - low + 1).toNat = high.toNat - low.toNat + 1 := by
  have hone : (1 : UInt32).toNat = 1 := rfl
  have hlt := UInt32.lt_iff_toNat_lt.mp hlt
  have hhigh := high.toNat_lt
  have hfew : high.toNat - low.toNat + 1 < 2 ^ 32 := by
    -- there are `2 ^ 32` of them only from the first word to the last
    by_contra hall
    apply hfits
    have hlow : low = 0 := UInt32.toNat_inj.mp (by rw [UInt32.toNat_zero]; omega)
    have hlast : (UInt32.ofNat (UInt32.size - 1)).toNat = 2 ^ 32 - 1 := rfl
    have hhigh : high = .ofNat (UInt32.size - 1) := UInt32.toNat_inj.mp (by omega)
    rw [hlow, hhigh]
  rw [UInt32.toNat_add, UInt32.toNat_sub_of_le _ _ (UInt32.le_iff_toNat_le.mpr (by omega)), hone]
  omega

/-- A number from a range that leaves out some word, calculated without limits. -/
theorem exists_range (seed : UInt64) {low high : UInt32}
    (hfits : (low, high) ≠ (0, .ofNat (UInt32.size - 1))) :
    ∃ n, range seed low high = .ok n ∧
      n.toNat = if high.toNat ≤ low.toNat then low.toNat
        else low.toNat + (next seed).toNat % (high.toNat - low.toNat + 1) := by
  simp only [← UInt32.le_iff_toNat_le]
  unfold range
  by_cases hle : high ≤ low
  · exact ⟨low, if_pos hle, (if_pos hle).symm⟩
  · have hlt : low < high := UInt32.not_le.mp hle
    have hcount := toNat_count hlt hfits
    have hsome : high - low + 1 ≠ 0 := by
      rw [Ne, ← UInt32.toNat_inj, hcount]
      exact Nat.succ_ne_zero _
    refine ⟨low + next seed % (high - low + 1), ?_, ?_⟩
    · rw [if_neg hle]
      exact if_neg hsome
    · -- the sum is at most `high`
      have hmod : (next seed).toNat % (high.toNat - low.toNat + 1) < high.toNat - low.toNat + 1 :=
        Nat.mod_lt _ (Nat.succ_pos _)
      have hlt := UInt32.lt_iff_toNat_lt.mp hlt
      have hhigh := high.toNat_lt
      rw [if_neg hle, UInt32.toNat_add, UInt32.toNat_mod, hcount]
      omega

end Generator

/-! ## 2. What a word stands for -/

namespace Draw

/-- A draw that certainly has an answer: some word is outside its range, or its list has fewer
members than there are words. -/
def Fits : Draw → Prop
  | range _ low high => (low, high) ≠ (0, .ofNat (UInt32.size - 1))
  | choose _ _ xs => xs.length < UInt32.size
  | _ => True

/-- The answer that a random number stands for in a draw, calculated without limits. -/
def Exact : (q : Draw) → Nat → q.Answer → Prop
  | next _, w, n => UInt32.toNat n = w
  | d100 _, w, n => UInt32.toNat n = w % 100 + 1
  | range _ low high, w, n =>
    UInt32.toNat n = if high.toNat ≤ low.toNat then low.toNat
      else low.toNat + w % (high.toNat - low.toNat + 1)
  | choose _ _ xs, w, x => x = xs[w % xs.length]?

instance : (q : Draw) → Decidable q.Fits
  | next _ | d100 _ => .isTrue trivial
  | range _ low high => inferInstanceAs (Decidable ((low, high) ≠ _))
  | choose _ _ xs => inferInstanceAs (Decidable (xs.length < _))

theorem exists_answer {q : Draw} (h : q.Fits) (seed : UInt64) :
    ∃ a, q.answer seed = .ok a ∧ q.Exact (Generator.next seed).toNat a := by
  cases q with
  | next actor => exact ⟨_, rfl, rfl⟩
  | d100 actor => exact ⟨_, rfl, Generator.toNat_d100 seed⟩
  | range actor low high => exact Generator.exists_range seed h
  | choose α actor xs => cases xs <;> exact ⟨_, rfl, rfl⟩

/-- There is an answer, and it costs one draw unless nothing is drawn. -/
theorem exists_perform {q : Draw} (h : q.Fits) (d : Dice) :
    ∃ a, q.perform d = .ok (a, if q.isDrawn then d.rolled else d) ∧
      q.Exact (Generator.next (d.fresh q.actor)).toNat a := by
  obtain ⟨a, ha, hexact⟩ := exists_answer h (d.fresh q.actor)
  exact ⟨a, by rw [q.perform_eq, ha]; rfl, hexact⟩

end Draw

/-! ## 3. Histories -/

namespace Dice

/-- The dice after a history of draws. -/
def after (d : Dice) : List Draw → Except Fault Dice
  | [] => .ok d
  | q :: qs => (q.perform d).bind fun drawn ↦ drawn.2.after qs

/-- What a draw answers after a history of draws. -/
def answerAfter (d : Dice) (qs : List Draw) (q : Draw) : Except Fault q.Answer :=
  (d.after qs).bind fun d' ↦ (q.perform d').map Prod.fst

/-- All that is left of a history is the number of its draws. -/
theorem after_eq {qs : List Draw} (h : ∀ q ∈ qs, q.Fits) (d : Dice) :
    d.after qs = .ok (rolled^[qs.countP Draw.isDrawn] d) := by
  induction qs generalizing d with
  | nil => rfl
  | cons q qs ih =>
    obtain ⟨a, ha, -⟩ := Draw.exists_perform (h q List.mem_cons_self) d
    have hrest := ih fun q' hq' ↦ h q' (List.mem_cons_of_mem q hq')
    rw [after, ha, List.countP_cons, Except.bind, hrest]
    cases q.isDrawn <;> rfl

theorem answerAfter_eq (d : Dice) {qs : List Draw} (h : ∀ q ∈ qs, q.Fits) (q : Draw) :
    d.answerAfter qs q = (q.perform (rolled^[qs.countP Draw.isDrawn] d)).map Prod.fst := by
  rw [answerAfter, after_eq h]
  rfl

/-! ## 4. Bounds -/

theorem d100_bounds (d : Dice) (actor : UInt32) :
    1 ≤ (d.d100 actor).1 ∧ (d.d100 actor).1 ≤ 100 := by
  have hroll : (d.d100 actor).1.toNat = (Generator.next (d.fresh actor)).toNat % 100 + 1 :=
    Generator.toNat_d100 _
  have hone : (1 : UInt32).toNat = 1 := rfl
  have hhundred : (100 : UInt32).toNat = 100 := rfl
  rw [UInt32.le_iff_toNat_le, UInt32.le_iff_toNat_le]
  omega

theorem range_bounds (d : Dice) (actor : UInt32) {low high : UInt32}
    (hfits : (low, high) ≠ (0, .ofNat (UInt32.size - 1))) :
    ∃ n, d.range actor low high = .ok (n, d.rolled) ∧
      (low ≤ high → low ≤ n ∧ n ≤ high) ∧ (high < low → n = low) := by
  obtain ⟨n, hn, hexact⟩ := Generator.exists_range (d.fresh actor) hfits
  have hmod : (Generator.next (d.fresh actor)).toNat % (high.toNat - low.toNat + 1) <
    high.toNat - low.toNat + 1 := Nat.mod_lt _ (Nat.succ_pos _)
  refine ⟨n, by rw [range, hn]; rfl, ?_, ?_⟩
  · intro hle
    rw [UInt32.le_iff_toNat_le] at hle
    rw [UInt32.le_iff_toNat_le, UInt32.le_iff_toNat_le]
    split at hexact <;> omega
  · intro hlt
    rw [UInt32.lt_iff_toNat_lt] at hlt
    rw [if_pos (Nat.le_of_lt hlt)] at hexact
    exact UInt32.toNat_inj.mp hexact

/-- A member is drawn by its place, and the place is drawn from the range of all places. -/
theorem choose_eq_range {α : Type} (d : Dice) (actor : UInt32) {xs : List α} (hne : xs ≠ [])
    (hfits : xs.length < UInt32.size) :
    ∃ place, d.range actor 0 (.ofNat (xs.length - 1)) = .ok (place, d.rolled) ∧
      d.choose actor xs = (xs[place.toNat]?, d.rolled) := by
  -- the last place is a word, but never the last word, so the range has an answer
  have hsize : UInt32.size = 2 ^ 32 := rfl
  have hzero : (0 : UInt32).toNat = 0 := rfl
  have hpos := List.length_pos_iff.mpr hne
  have hlast : (UInt32.ofNat (xs.length - 1)).toNat = xs.length - 1 := by
    rw [UInt32.toNat_ofNat']
    omega
  have hroom : ((0 : UInt32), UInt32.ofNat (xs.length - 1)) ≠ (0, .ofNat (UInt32.size - 1)) := by
    intro h
    have hfull := congrArg (fun r ↦ r.2.toNat) h
    rw [hlast, UInt32.toNat_ofNat'] at hfull
    omega
  obtain ⟨place, hplace, hexact⟩ := Generator.exists_range (d.fresh actor) hroom
  have hindex : place.toNat = (Generator.next (d.fresh actor)).toNat % xs.length := by
    rw [hexact, hlast, hzero, Nat.sub_zero, Nat.zero_add, Nat.sub_add_cancel hpos]
    split
    · -- with a single place the random number is not even looked at
      have hsingle : xs.length = 1 := by omega
      rw [hsingle, Nat.mod_one]
    · rfl
  refine ⟨place, by rw [range, hplace]; rfl, ?_⟩
  rw [hindex]
  cases xs with
  | nil => exact absurd rfl hne
  | cons x xs => rfl

theorem choose_bounds {α : Type} (d : Dice) (actor : UInt32) (xs : List α) :
    ((d.choose actor xs).1 = none ↔ xs = []) ∧ (xs = [] → (d.choose actor xs).2 = d) ∧
      ∀ x, (d.choose actor xs).1 = some x → x ∈ xs := by
  cases xs with
  | nil => exact ⟨⟨fun _ ↦ rfl, fun _ ↦ rfl⟩, fun _ ↦ rfl, nofun⟩
  | cons x xs =>
    obtain ⟨y, hy, heq⟩ := d.choose_cons actor x xs
    rw [heq]
    refine ⟨⟨nofun, nofun⟩, nofun, ?_⟩
    rintro _ ⟨⟩
    exact hy

/-- What is drawn after a history depends on the number of its draws alone, and every draw has an
answer: the one that its random number stands for without any sum that wraps, within the bounds that
were asked for or from the list that was given. Nothing is drawn from an empty list. -/
theorem answers_forget :
    (∀ (d : Dice) (qs qs' : List Draw), (∀ q ∈ qs, q.Fits) → (∀ q ∈ qs', q.Fits) →
      qs.countP Draw.isDrawn = qs'.countP Draw.isDrawn → ∀ q : Draw, q.Fits →
        ∃ a, d.answerAfter qs q = .ok a ∧ d.answerAfter qs' q = .ok a) ∧
    (∀ (d : Dice) (actor : UInt32), 1 ≤ (d.d100 actor).1 ∧ (d.d100 actor).1 ≤ 100) ∧
    (∀ (d : Dice) (actor low high : UInt32), (low, high) ≠ (0, .ofNat (UInt32.size - 1)) →
      ∃ n, d.range actor low high = .ok (n, d.rolled) ∧
        (low ≤ high → low ≤ n ∧ n ≤ high) ∧ (high < low → n = low)) ∧
    (∀ (α : Type) (d : Dice) (actor : UInt32) (xs : List α),
      ((d.choose actor xs).1 = none ↔ xs = []) ∧ (xs = [] → (d.choose actor xs).2 = d) ∧
      (∀ x, (d.choose actor xs).1 = some x → x ∈ xs) ∧
      (xs ≠ [] → xs.length < UInt32.size →
        ∃ place, d.range actor 0 (.ofNat (xs.length - 1)) = .ok (place, d.rolled) ∧
          d.choose actor xs = (xs[place.toNat]?, d.rolled))) ∧
    ∀ (d : Dice) (q : Draw), q.Fits →
      ∃ a, q.perform d = .ok (a, if q.isDrawn then d.rolled else d) ∧
        q.Exact (Generator.next (d.fresh q.actor)).toNat a := by
  refine ⟨?_, d100_bounds, fun d actor _ _ h ↦ d.range_bounds actor h, ?_,
    fun d _ h ↦ Draw.exists_perform h d⟩
  · intro d qs qs' h h' hcount q hq
    obtain ⟨a, ha, -⟩ := Draw.exists_perform hq (rolled^[qs.countP Draw.isDrawn] d)
    have hanswer := d.answerAfter_eq h q
    have hanswer' := d.answerAfter_eq h' q
    rw [← hcount] at hanswer'
    rw [ha] at hanswer hanswer'
    exact ⟨a, hanswer, hanswer'⟩
  · intro α d actor xs
    obtain ⟨hnone, hstill, hmem⟩ := d.choose_bounds actor xs
    exact ⟨hnone, hstill, hmem, d.choose_eq_range actor⟩

/-- A roll leaves behind what a draw without a choice and one from an empty list do. -/
theorem roll_answers_forget :
    let d : Dice := { seed := 42 }
    (3, 5) ≠ ((0 : UInt32), UInt32.ofNat (UInt32.size - 1)) ∧
      ∃ n, d.answerAfter [.d100 3] (.range 1 3 5) = .ok n ∧
        d.answerAfter [.choose Unit 4 [], .range 4 9 2] (.range 1 3 5) = .ok n := by
  refine ⟨by decide, ?_⟩
  exact answers_forget.1 { seed := 42 } [.d100 3] [.choose Unit 4 [], .range 4 9 2] (by decide)
    (by decide) (by decide) (.range 1 3 5) (by decide)

end Dice

end Delve

import Delve.Proofs.Coordinates
import Delve.Proofs.Except
import Mathlib.Data.List.TakeWhile
/-!
# Which texts are positions

A position is read from two numerals with a comma between them, each with blanks around it. The
reader is shown to accept these texts and no others: a numeral is described here by what it looks
like, without the reader, and every number that is read is the one that its digits stand for. A
text that is no position is refused, for the sake of its first number wherever that is at fault.
The main statement is `parse_accepts`.
-/

namespace Delve

namespace Text

variable {lo hi n : Int} {cs : List Char}

/-! ## 1. Numerals -/

/-- Decimal digits with at most one sign in front of them, and the number that they stand for. -/
inductive Numeral : List Char → Int → Prop where
  | unsigned {cs : List Char} (some : cs ≠ []) (digits : ∀ c ∈ cs, c.isDigit = true) :
      Numeral cs (Nat.ofDigitChars 10 cs 0)
  | plus {cs : List Char} (some : cs ≠ []) (digits : ∀ c ∈ cs, c.isDigit = true) :
      Numeral ('+' :: cs) (Nat.ofDigitChars 10 cs 0)
  | minus {cs : List Char} (some : cs ≠ []) (digits : ∀ c ∈ cs, c.isDigit = true) :
      Numeral ('-' :: cs) (-(Nat.ofDigitChars 10 cs 0))

/-- A numeral with blanks around it. -/
def Padded (cs : List Char) (n : Int) : Prop :=
  ∃ front core back, cs = front ++ core ++ back ∧ (∀ c ∈ front, isBlank c = true) ∧
    (∀ c ∈ back, isBlank c = true) ∧ Numeral core n

theorem Numeral.ne_nil (h : Numeral cs n) : cs ≠ [] := by
  cases h with
  | unsigned some _ => exact some
  | plus _ _ => exact List.cons_ne_nil _ _
  | minus _ _ => exact List.cons_ne_nil _ _

theorem Numeral.not_isBlank (h : Numeral cs n) : ∀ c ∈ cs, isBlank c = false := by
  have hsigned : ∀ {sign : Char} {cs : List Char}, isBlank sign = false →
      (∀ c ∈ cs, c.isDigit = true) → ∀ c ∈ sign :: cs, isBlank c = false := by
    intro sign cs hsign hdigits c hc
    rcases List.mem_cons.mp hc with rfl | hc
    · exact hsign
    · exact not_isBlank_of_isDigit (hdigits c hc)
  cases h with
  | unsigned _ digits => exact fun c hc ↦ not_isBlank_of_isDigit (digits c hc)
  | plus _ digits => exact hsigned (by decide) digits
  | minus _ digits => exact hsigned (by decide) digits

theorem numeral_unsigned_iff {c : Char} (hplus : c ≠ '+') (hminus : c ≠ '-') :
    Numeral (c :: cs) n ↔
      (∀ d ∈ c :: cs, d.isDigit = true) ∧ n = Nat.ofDigitChars 10 (c :: cs) 0 := by
  constructor
  · intro h
    cases h with
    | unsigned _ digits => exact ⟨digits, rfl⟩
    | plus _ _ => exact absurd rfl hplus
    | minus _ _ => exact absurd rfl hminus
  · rintro ⟨digits, rfl⟩
    exact .unsigned (List.cons_ne_nil _ _) digits

theorem numeral_plus_iff : Numeral ('+' :: cs) n ↔
    cs ≠ [] ∧ (∀ c ∈ cs, c.isDigit = true) ∧ n = Nat.ofDigitChars 10 cs 0 := by
  constructor
  · intro h
    cases h with
    | unsigned _ digits => exact absurd (digits '+' List.mem_cons_self) (by decide)
    | plus some digits => exact ⟨some, digits, rfl⟩
  · rintro ⟨some, digits, rfl⟩
    exact .plus some digits

theorem numeral_minus_iff : Numeral ('-' :: cs) n ↔
    cs ≠ [] ∧ (∀ c ∈ cs, c.isDigit = true) ∧ n = -(Nat.ofDigitChars 10 cs 0 : Int) := by
  constructor
  · intro h
    cases h with
    | unsigned _ digits => exact absurd (digits '-' List.mem_cons_self) (by decide)
    | minus some digits => exact ⟨some, digits, rfl⟩
  · rintro ⟨some, digits, rfl⟩
    exact .minus some digits

/-! ## 2. Numbers that are read -/

theorem isDigit_of_digit? {c : Char} {d : Nat} (h : digit? c = some d) : c.isDigit = true := by
  unfold digit? at h
  split at h
  · rename_i hrange
    rw [Char.isDigit, Bool.and_eq_true, decide_eq_true_eq, decide_eq_true_eq]
    exact hrange
  · cases h

/-- Only digits are read, as the number that they stand for, and only within the limits. -/
theorem readDigits_sound {negative : Bool} {m : Nat} (hbelow : lo ≤ signed negative m)
    (habove : signed negative m ≤ hi)
    (h : readDigits lo hi negative (signed negative m) cs = .ok n) :
    (∀ c ∈ cs, c.isDigit = true) ∧ n = signed negative (Nat.ofDigitChars 10 cs m) ∧
      lo ≤ n ∧ n ≤ hi := by
  -- `m` is what has been read so far, and no digit takes it out of the limits
  induction cs generalizing m with
  | nil =>
    cases h
    exact ⟨nofun, rfl, hbelow, habove⟩
  | cons c cs ih =>
    rw [readDigits] at h
    cases hdigit : digit? c with
    | none =>
      rw [hdigit] at h
      cases h
    | some d =>
      have hc := isDigit_of_digit? hdigit
      have hd : d = c.toNat - '0'.toNat := by
        rw [digit?_of_isDigit hc] at hdigit
        exact (Option.some.inj hdigit).symm
      rw [hdigit] at h
      dsimp only at h
      rw [signed_append] at h
      split at h
      · cases h
      · split at h
        · cases h
        · obtain ⟨hdigits, hvalue, hwithin⟩ := ih (by omega) (by omega) h
          rw [Nat.ofDigitChars_cons, ← hd]
          exact ⟨List.forall_mem_cons.mpr ⟨hc, hdigits⟩, hvalue, hwithin⟩

theorem readDigits_eq_ok_iff (negative : Bool) (hlo : lo ≤ 0) (hhi : 0 ≤ hi) :
    readDigits lo hi negative 0 cs = .ok n ↔ (∀ c ∈ cs, c.isDigit = true) ∧
      n = signed negative (Nat.ofDigitChars 10 cs 0) ∧ lo ≤ n ∧ n ≤ hi := by
  have hzero : signed negative 0 = 0 := by cases negative <;> rfl
  rw [← hzero]
  constructor
  · exact readDigits_sound (by rwa [hzero]) (by rwa [hzero])
  · rintro ⟨hdigits, rfl, hbelow, habove⟩
    exact readDigits_of_isDigit negative 0 hdigits hlo hhi hbelow habove

/-- Reading accepts the numerals within the limits and nothing else. -/
theorem readInteger_eq_ok_iff (hlo : lo < 0) (hhi : 0 ≤ hi) :
    readInteger lo hi cs = .ok n ↔ Numeral cs n ∧ lo ≤ n ∧ n ≤ hi := by
  have hread : ∀ negative cs, readDigits lo hi negative 0 cs = .ok n ↔ _ :=
    fun negative cs ↦ readDigits_eq_ok_iff negative (Int.le_of_lt hlo) hhi
  cases cs with
  | nil => exact ⟨nofun, fun h ↦ absurd rfl h.1.ne_nil⟩
  | cons c cs =>
    by_cases hplus : c = '+'
    · subst hplus
      rw [numeral_plus_iff]
      by_cases hcs : cs = []
      · -- a sign alone is no numeral
        subst hcs
        exact ⟨nofun, fun h ↦ absurd rfl h.1.1⟩
      · rw [readInteger_plus hcs, hread, and_assoc, and_assoc, and_iff_right hcs]
        rfl
    · by_cases hminus : c = '-'
      · subst hminus
        rw [numeral_minus_iff]
        by_cases hcs : cs = []
        · subst hcs
          exact ⟨nofun, fun h ↦ absurd rfl h.1.1⟩
        · rw [readInteger_minus hlo hcs, hread, and_assoc, and_assoc, and_iff_right hcs]
          rfl
      · rw [readInteger_unsigned hplus hminus, hread, numeral_unsigned_iff hplus hminus, and_assoc]
        rfl

theorem readInt32_eq_ok_iff {x : Int32} : readInt32 cs = .ok x ↔ Numeral cs x.toInt := by
  have hlo : Int32.minValue.toInt < 0 := by decide
  have hhi : 0 ≤ Int32.maxValue.toInt := by decide
  rw [readInt32, map_eq_ok]
  constructor
  · rintro ⟨n, hn, rfl⟩
    obtain ⟨hnumeral, hbelow, habove⟩ := (readInteger_eq_ok_iff hlo hhi).mp hn
    rwa [Int32.toInt_ofInt_of_le hbelow (Int.lt_add_one_of_le habove)]
  · intro h
    exact ⟨x.toInt, (readInteger_eq_ok_iff hlo hhi).mpr ⟨h, x.minValue_le_toInt, x.toInt_le⟩,
      Int32.ofInt_toInt x⟩

/-! ## 3. Blanks around a numeral -/

theorem dropWhile_append_of_not_isBlank {front core back : List Char}
    (hfront : ∀ c ∈ front, isBlank c = true) (hcore : ∀ c ∈ core, isBlank c = false)
    (hne : core ≠ []) : (front ++ (core ++ back)).dropWhile isBlank = core ++ back := by
  rw [List.dropWhile_append_of_pos hfront, List.dropWhile_append, dropWhile_isBlank hcore, if_neg]
  rwa [List.isEmpty_iff]

theorem trim_append {front core back : List Char} (hfront : ∀ c ∈ front, isBlank c = true)
    (hback : ∀ c ∈ back, isBlank c = true) (hcore : ∀ c ∈ core, isBlank c = false)
    (hne : core ≠ []) : trim (front ++ core ++ back) = core := by
  -- seen from the end, the blanks come first again
  have hend : (back.reverse ++ (core.reverse ++ [])).dropWhile isBlank = core.reverse ++ [] :=
    dropWhile_append_of_not_isBlank (fun c hc ↦ hback c (List.mem_reverse.mp hc))
      (fun c hc ↦ hcore c (List.mem_reverse.mp hc)) (fun h ↦ hne (List.reverse_eq_nil_iff.mp h))
  rw [List.append_nil] at hend
  rw [trim, List.append_assoc, dropWhile_append_of_not_isBlank hfront hcore hne, trimEnd,
    List.reverse_append, hend, List.reverse_reverse]

/-- Trimming takes away blanks at both ends and nothing else. -/
theorem exists_trim (cs : List Char) : ∃ front back, cs = front ++ trim cs ++ back ∧
    (∀ c ∈ front, isBlank c = true) ∧ ∀ c ∈ back, isBlank c = true := by
  refine ⟨cs.takeWhile isBlank, ((cs.dropWhile isBlank).reverse.takeWhile isBlank).reverse, ?_,
    fun c ↦ List.mem_takeWhile_imp, fun c hc ↦ List.mem_takeWhile_imp (List.mem_reverse.mp hc)⟩
  rw [trim, trimEnd, List.append_assoc, ← List.reverse_append, List.takeWhile_append_dropWhile,
    List.reverse_reverse, List.takeWhile_append_dropWhile]

theorem padded_iff : Padded cs n ↔ Numeral (trim cs) n := by
  constructor
  · rintro ⟨front, core, back, rfl, hfront, hback, h⟩
    rwa [trim_append hfront hback h.not_isBlank h.ne_nil]
  · intro h
    obtain ⟨front, back, hcs, hfront, hback⟩ := exists_trim cs
    exact ⟨front, trim cs, back, hcs, hfront, hback, h⟩

end Text

/-! ## 4. Positions -/

namespace Position

open Text

variable {cs first second : List Char}

theorem splitComma_of_not_mem (h : ',' ∉ cs) : splitComma cs = (cs, []) := by
  rw [splitComma, List.takeWhile_eq_self_iff.mpr (ne_comma h),
    List.dropWhile_eq_nil_iff.mpr (ne_comma h)]
  rfl

theorem ofChars_eq_ok_iff {p : Position} (h : splitComma cs = (first, second)) :
    ofChars cs = .ok p ↔ Padded first p.x.toInt ∧ Padded second p.y.toInt := by
  rw [padded_iff, padded_iff, ← readInt32_eq_ok_iff, ← readInt32_eq_ok_iff, ofChars, h]
  constructor
  · intro hread
    obtain ⟨x, hx, hread⟩ := bind_eq_ok.mp hread
    obtain ⟨y, hy, hread⟩ := bind_eq_ok.mp hread
    cases hread
    exact ⟨hx, hy⟩
  · rintro ⟨hx, hy⟩
    dsimp only
    rw [hx, hy]
    rfl

/-- Where the first number is at fault, the second is not looked at. -/
theorem ofChars_of_first {e : IntegerFault} (h : splitComma cs = (first, second))
    (he : readInt32 (trim first) = .error e) : ofChars cs = .error e := by
  rw [ofChars, h]
  dsimp only
  rw [he]
  rfl

/-- Every text is taken apart at its first comma; without one there is no second part. -/
theorem splitComma_cases (cs : List Char) :
    (∃ first second, cs = first ++ ',' :: second ∧ ',' ∉ first ∧
      splitComma cs = (first, second)) ∨ ',' ∉ cs ∧ splitComma cs = (cs, []) := by
  by_cases h : ',' ∈ cs
  · obtain ⟨first, second, rfl, hfirst⟩ := List.eq_append_cons_of_mem h
    exact Or.inl ⟨first, second, rfl, hfirst, splitComma_append hfirst second⟩
  · exact Or.inr ⟨h, splitComma_of_not_mem h⟩

theorem not_padded_nil (n : Int) : ¬ Padded [] n := by
  intro h
  exact (padded_iff.mp h).ne_nil rfl

/-- The texts of a position: two numerals with blanks around them and a comma between them, the first
one that there is. -/
def Spells (cs : List Char) (p : Position) : Prop :=
  ∃ first second, cs = first ++ ',' :: second ∧ ',' ∉ first ∧ Padded first p.x.toInt ∧
    Padded second p.y.toInt

theorem ofChars_eq_ok_iff_spells {p : Position} : ofChars cs = .ok p ↔ Spells cs p := by
  constructor
  · intro h
    rcases splitComma_cases cs with ⟨first, second, rfl, hfirst, hsplit⟩ | ⟨-, hsplit⟩
    · exact ⟨first, second, rfl, hfirst, (ofChars_eq_ok_iff hsplit).mp h⟩
    · exact absurd ((ofChars_eq_ok_iff hsplit).mp h).2 (not_padded_nil _)
  · rintro ⟨first, second, rfl, hfirst, hnumbers⟩
    exact (ofChars_eq_ok_iff (splitComma_append hfirst second)).mpr hnumbers

/-- Written positions are read back, and a text is read as a position if and only if it spells that
position. Every other text is refused, with what is wrong with the part before its first comma if
that is no numeral in the range. -/
theorem parse_accepts :
    (∀ p : Position, parse p.text = .ok p) ∧
    (∀ (s : String) (p : Position), parse s = .ok p ↔ Spells s.toList p) ∧
    (∀ s : String, (¬ ∃ p, Spells s.toList p) → ∃ e, parse s = .error e) ∧
    ∀ s : String, (∀ x : Int32, ¬ Padded (s.toList.takeWhile (· != ',')) x.toInt) →
      ∃ e, readInt32 (trim (s.toList.takeWhile (· != ','))) = .error e ∧ parse s = .error e := by
  refine ⟨parse_text, fun s p ↦ ofChars_eq_ok_iff_spells, ?_, ?_⟩
  · intro s hnone
    cases hread : parse s with
    | error e => exact ⟨e, rfl⟩
    | ok p => exact absurd ⟨p, ofChars_eq_ok_iff_spells.mp hread⟩ hnone
  · intro s hbad
    cases hread : readInt32 (trim (s.toList.takeWhile (· != ','))) with
    | error e => exact ⟨e, rfl, ofChars_of_first rfl hread⟩
    | ok x => exact absurd (padded_iff.mpr (readInt32_eq_ok_iff.mp hread)) (hbad x)

/-- The first number is too large, so nobody looks at the second. -/
theorem parse_large_before_bad :
    (∀ x : Int32, ¬ Padded ("2147483648,x".toList.takeWhile (· != ',')) x.toInt) ∧
      parse "2147483648,x" = .error .tooLarge := by
  have hfault : readInt32 (trim ("2147483648,x".toList.takeWhile (· != ','))) =
      .error .tooLarge := by decide
  have hbad : ∀ x : Int32, ¬ Padded ("2147483648,x".toList.takeWhile (· != ',')) x.toInt := by
    intro x hx
    rw [padded_iff, ← readInt32_eq_ok_iff, hfault] at hx
    cases hx
  obtain ⟨e, he, hparse⟩ := parse_accepts.2.2.2 "2147483648,x" hbad
  rw [hfault] at he
  cases he
  exact ⟨hbad, hparse⟩

example : parse "\u3000+1 ,\t-02" = .ok ⟨1, -2⟩ := by decide

end Position

end Delve

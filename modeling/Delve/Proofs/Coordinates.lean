import Delve.Grid.Coordinates
/-!
# Written positions read back

A number is written without a sign or with a minus in front of its digits, so a written number holds
no blank and no comma. That is why the comma of a written position is found again and the trimming
of the two parts takes nothing away from them.
-/

namespace Delve

namespace Text

/-! ## 1. Blanks -/

theorem dropWhile_isBlank {cs : List Char} (h : ∀ c ∈ cs, isBlank c = false) :
    cs.dropWhile isBlank = cs := by
  cases cs with
  | nil => rfl
  | cons c rest => rw [List.dropWhile_cons, h c List.mem_cons_self, if_neg Bool.false_ne_true]

/-- A text without blanks has none to trim. -/
theorem trim_of_not_isBlank {cs : List Char} (h : ∀ c ∈ cs, isBlank c = false) : trim cs = cs := by
  have hback := dropWhile_isBlank fun c (hc : c ∈ cs.reverse) ↦ h c (List.mem_reverse.mp hc)
  rw [trim, dropWhile_isBlank h, trimEnd, hback, List.reverse_reverse]

/-! ## 2. Numbers -/

variable {lo hi n : Int} {c : Char} {cs : List Char}

/-- The number of a sign and an amount. -/
def signed (negative : Bool) (m : Nat) : Int := if negative then -m else m

/-- One more digit, away from zero on the side of the sign. -/
theorem signed_append (negative : Bool) (m d : Nat) :
    (if negative then 10 * signed negative m - d else 10 * signed negative m + d) =
      signed negative (10 * m + d) := by
  cases negative <;> simp only [signed, Bool.false_eq_true, if_true, if_false] <;> omega

theorem digit?_of_isDigit (h : c.isDigit = true) : digit? c = some (c.toNat - '0'.toNat) := by
  rw [Char.isDigit, Bool.and_eq_true, decide_eq_true_eq, decide_eq_true_eq] at h
  exact if_pos h

theorem ofDigitChars_ge (cs : List Char) (m : Nat) : m ≤ Nat.ofDigitChars 10 cs m := by
  rw [Nat.ofDigitChars_eq_ofDigitChars_zero]
  have hpow := Nat.le_mul_of_pos_left m (Nat.pow_pos (n := cs.length) (show 0 < 10 by decide))
  omega

/-- Digits are read as the number that they stand for, if it is within the limits. -/
theorem readDigits_of_isDigit (negative : Bool) (m : Nat) (hdigits : ∀ c ∈ cs, c.isDigit = true)
    (hlo : lo ≤ 0) (hhi : 0 ≤ hi) (hbelow : lo ≤ signed negative (Nat.ofDigitChars 10 cs m))
    (habove : signed negative (Nat.ofDigitChars 10 cs m) ≤ hi) :
    readDigits lo hi negative (signed negative m) cs =
      .ok (signed negative (Nat.ofDigitChars 10 cs m)) := by
  induction cs generalizing m with
  | nil => rfl
  | cons c cs ih =>
    rw [Nat.ofDigitChars_cons] at hbelow habove ⊢
    -- away from zero the limits are passed for good, so the first digits are within them too
    have hgrows := ofDigitChars_ge cs (10 * m + (c.toNat - '0'.toNat))
    have hwithin : lo ≤ signed negative (10 * m + (c.toNat - '0'.toNat)) ∧
        signed negative (10 * m + (c.toNat - '0'.toNat)) ≤ hi := by
      cases negative <;> simp only [signed, Bool.false_eq_true, if_true, if_false] at * <;> omega
    rw [readDigits, digit?_of_isDigit (hdigits c List.mem_cons_self)]
    dsimp only
    rw [signed_append, if_neg (by omega), if_neg (by omega)]
    exact ih _ (fun d hd ↦ hdigits d (List.mem_cons_of_mem c hd)) hbelow habove

theorem isDigit_of_mem_showNat {m : Nat} (h : c ∈ showNat m) : c.isDigit = true :=
  Nat.isDigit_of_mem_toDigits (by decide) (by decide) h

theorem readDigits_showNat (negative : Bool) (m : Nat) (hlo : lo ≤ 0) (hhi : 0 ≤ hi)
    (hbelow : lo ≤ signed negative m) (habove : signed negative m ≤ hi) :
    readDigits lo hi negative 0 (showNat m) = .ok (signed negative m) := by
  have hvalue : Nat.ofDigitChars 10 (showNat m) 0 = m := Nat.ofDigitChars_ten_toDigits
  have hzero : signed negative 0 = 0 := by cases negative <;> rfl
  have hread := readDigits_of_isDigit negative 0 (fun _ ↦ isDigit_of_mem_showNat (m := m)) hlo hhi
    (by rwa [hvalue]) (by rwa [hvalue])
  rwa [hvalue, hzero] at hread

/-- A text that does not begin with a sign is read as it is. -/
theorem readInteger_unsigned (hplus : c ≠ '+') (hminus : c ≠ '-') :
    readInteger lo hi (c :: cs) = readDigits lo hi false 0 (c :: cs) := by
  unfold readInteger
  split <;> simp_all

theorem readInteger_plus (hcs : cs ≠ []) :
    readInteger lo hi ('+' :: cs) = readDigits lo hi false 0 cs := by
  unfold readInteger
  split <;> simp_all

/-- Behind a minus the digits count downwards. -/
theorem readInteger_minus (hlo : lo < 0) (hcs : cs ≠ []) :
    readInteger lo hi ('-' :: cs) = readDigits lo hi true 0 cs := by
  unfold readInteger
  split <;> simp_all

/-- A digit is no sign. -/
theorem ne_of_isDigit {sign : Char} (h : c.isDigit = true) (hsign : sign.isDigit = false) :
    c ≠ sign := by
  rintro rfl
  rw [h] at hsign
  cases hsign

theorem readInteger_showInt (hlo : lo ≤ 0) (hhi : 0 ≤ hi) (hbelow : lo ≤ n) (habove : n ≤ hi) :
    readInteger lo hi (showInt n) = .ok n := by
  by_cases hn : n < 0
  · have habs : signed true n.natAbs = n := by
      simp only [signed, if_true]
      omega
    have hdigits : showNat n.natAbs ≠ [] := Nat.toDigits_ne_nil
    rw [showInt, if_pos hn, readInteger_minus (by omega) hdigits,
      readDigits_showNat true _ hlo hhi (by omega) (by omega), habs]
  · have habs : signed false n.natAbs = n := by
      simp only [signed, Bool.false_eq_true, if_false]
      omega
    have hread := readDigits_showNat false n.natAbs hlo hhi (by omega) (by omega)
    rw [habs] at hread
    rw [showInt, if_neg hn]
    cases hshow : showNat n.natAbs with
    | nil => exact absurd hshow Nat.toDigits_ne_nil
    | cons c rest =>
      have hc : c.isDigit = true := isDigit_of_mem_showNat (hshow ▸ List.mem_cons_self)
      rw [readInteger_unsigned (ne_of_isDigit hc (by decide)) (ne_of_isDigit hc (by decide)), ← hshow,
        hread]

theorem readInt32_showInt (n : Int32) : readInt32 (showInt n.toInt) = .ok n := by
  rw [readInt32, readInteger_showInt (by decide) (by decide) n.minValue_le_toInt n.toInt_le]
  exact congrArg Except.ok (Int32.ofInt_toInt n)

theorem of_mem_showInt (h : c ∈ showInt n) : c = '-' ∨ c.isDigit = true := by
  unfold showInt at h
  split at h
  · rcases List.mem_cons.mp h with rfl | h
    · exact Or.inl rfl
    · exact Or.inr (isDigit_of_mem_showNat h)
  · exact Or.inr (isDigit_of_mem_showNat h)

theorem not_isBlank_of_isDigit (h : c.isDigit = true) : isBlank c = false := by
  rw [Char.isDigit, Bool.and_eq_true, decide_eq_true_eq, decide_eq_true_eq] at h
  have hlow : 48 ≤ c.toNat := UInt32.le_iff_toNat_le.mp h.1
  have hhigh : c.toNat ≤ 57 := UInt32.le_iff_toNat_le.mp h.2
  simp only [isBlank, Bool.or_eq_false_iff, Bool.and_eq_false_iff, decide_eq_false_iff_not,
    beq_eq_false_iff_ne]
  omega

theorem not_isBlank_of_mem_showInt (h : c ∈ showInt n) : isBlank c = false := by
  rcases of_mem_showInt h with rfl | h
  · decide
  · exact not_isBlank_of_isDigit h

theorem comma_not_mem_showInt : ',' ∉ showInt n := by
  intro h
  rcases of_mem_showInt h with h | h <;> exact absurd h (by decide)

theorem trim_showInt (n : Int) : trim (showInt n) = showInt n :=
  trim_of_not_isBlank fun _ ↦ not_isBlank_of_mem_showInt

end Text

/-! ## 3. Positions -/

namespace Position

open Text

theorem ne_comma {first : List Char} (h : ',' ∉ first) : ∀ c ∈ first, (c != ',') = true := by
  intro c hc
  rw [bne_iff_ne]
  rintro rfl
  exact h hc

/-- What stands before a comma is the first part, if there is no other comma in it. -/
theorem splitComma_append {first : List Char} (h : ',' ∉ first) (second : List Char) :
    splitComma (first ++ ',' :: second) = (first, second) := by
  rw [splitComma, List.takeWhile_append_of_pos (ne_comma h),
    List.dropWhile_append_of_pos (ne_comma h)]
  simp

theorem parse_text (p : Position) : parse p.text = .ok p := by
  rw [parse, text, String.toList_ofList, ofChars, toChars, splitComma_append comma_not_mem_showInt]
  dsimp only
  rw [trim_showInt, trim_showInt, readInt32_showInt, readInt32_showInt]
  rfl

/-- A written position reads back as itself. -/
theorem parse?_text (p : Position) : parse? p.text = some p := by
  rw [parse?, parse_text]
  rfl

end Position

end Delve

/-!
# Ranges of code points

A set of characters, given as the ranges of its code points in ascending order.
-/

namespace Delve.Text

/-- The first and the last code point of each range of a set. -/
abbrev CodeRanges := List (Nat × Nat)

/-- Whether a code point is in one of the ranges. The first range that does not end before it
decides. -/
def CodeRanges.has : CodeRanges → Nat → Bool
  | [], _ => false
  | (first, last) :: ranges, n => if n ≤ last then first ≤ n else CodeRanges.has ranges n

/-- A code point is in a set exactly if it is in one of the ranges, as these ascend. -/
theorem CodeRanges.has_iff {ranges : CodeRanges} {n : Nat}
    (ascending : ranges.Pairwise fun r s => r.2 < s.1) :
    ranges.has n = true ↔ ∃ r ∈ ranges, r.1 ≤ n ∧ n ≤ r.2 := by
  induction ranges with
  | nil => simp [has]
  | cons r ranges ih =>
    obtain ⟨first, last⟩ := r
    obtain ⟨above, ascending⟩ := List.pairwise_cons.1 ascending
    by_cases hn : n ≤ last
    · have later : ∀ r ∈ ranges, ¬r.1 ≤ n := fun r hr hrn => by have := above r hr; simp_all; omega
      simp only [has, hn, if_true, decide_eq_true_eq, List.mem_cons, exists_eq_or_imp, and_true]
      exact ⟨.inl, fun h => h.elim id fun ⟨r, hr, hrn, _⟩ => absurd hrn (later r hr)⟩
    · simp [has, hn, ih ascending]

end Delve.Text

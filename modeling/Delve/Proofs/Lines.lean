import Delve.Text.Lines
import Mathlib.Data.List.Basic
/-!
# Lines written and read back

A text of lines is read back as the same lines, if no line has a line feed in it or ends with a
carriage return.
-/

namespace Delve

namespace Text

theorem linesFrom_append {cs : List Char} (h : '\n' ∉ cs) (pending rest : List Char) :
    linesFrom pending (cs ++ rest) = linesFrom (cs.reverse ++ pending) rest := by
  induction cs generalizing pending with
  | nil => rfl
  | cons c cs ih =>
    obtain ⟨hc, hcs⟩ := List.ne_and_not_mem_of_not_mem_cons h
    show (if c = '\n' then _ else linesFrom (c :: pending) (cs ++ rest)) = _
    rw [if_neg (Ne.symm hc), ih hcs, List.reverse_cons, List.append_assoc, List.singleton_append]

/-- A carriage return before the feed would belong to the ending. -/
theorem linesFrom_line {cs : List Char} (h : '\n' ∉ cs) (hreturn : cs.getLast? ≠ some '\r')
    (rest : List Char) : linesFrom [] (cs ++ '\n' :: rest) = cs :: linesFrom [] rest := by
  rw [linesFrom_append h, List.append_nil, linesFrom, if_pos rfl]
  · show cs.reverse.reverse :: _ = _
    rw [List.reverse_reverse]
  · intro before hcs
    apply hreturn
    rw [← List.head?_reverse, hcs]
    rfl

theorem lines_unlines {rows : List String}
    (h : ∀ row ∈ rows, '\n' ∉ row.toList ∧ row.toList.getLast? ≠ some '\r') :
    lines (unlines rows) = rows := by
  have hread : linesFrom [] (unlines rows).toList = rows.map (·.toList) := by
    induction rows with
    | nil => rfl
    | cons row rows ih =>
      obtain ⟨⟨hfeed, hreturn⟩, hrows⟩ := List.forall_mem_cons.mp h
      have htext : (unlines (row :: rows)).toList =
          row.toList ++ '\n' :: (unlines rows).toList := by
        simp [unlines, String.toList_join]
      rw [htext, linesFrom_line hfeed hreturn, ih hrows, List.map_cons]
  rw [lines, hread, List.map_map]
  simp

end Text

end Delve

import Mathlib.Data.List.Perm.Subperm
import Std.Data.ExtTreeMap
/-!
# Finite maps

Laws of ordered maps that speak of equal keys in place of keys that compare as equal, and the laws
of the size and of the first entry.
-/

namespace Delve

section Lookup

variable {α β : Type} [Ord α] [Std.TransOrd α] [Std.LawfulEqOrd α]

theorem mem_insert_iff (t : Std.ExtTreeMap α β) (k a : α) (v : β) :
    a ∈ t.insert k v ↔ k = a ∨ a ∈ t := by
  rw [Std.ExtTreeMap.mem_insert, Std.LawfulEqOrd.compare_eq_iff_eq]

theorem mem_erase_iff (t : Std.ExtTreeMap α β) (k a : α) :
    a ∈ t.erase k ↔ k ≠ a ∧ a ∈ t := by
  rw [Std.ExtTreeMap.mem_erase, Ne, Std.LawfulEqOrd.compare_eq_iff_eq]

variable [DecidableEq α]

theorem getElem?_insert_eq_ite (t : Std.ExtTreeMap α β) (k a : α) (v : β) :
    (t.insert k v)[a]? = if k = a then some v else t[a]? := by
  rw [Std.ExtTreeMap.getElem?_insert]
  simp only [Std.LawfulEqOrd.compare_eq_iff_eq]

theorem getElem?_erase_eq_ite (t : Std.ExtTreeMap α β) (k a : α) :
    (t.erase k)[a]? = if k = a then none else t[a]? := by
  rw [Std.ExtTreeMap.getElem?_erase]
  simp only [Std.LawfulEqOrd.compare_eq_iff_eq]

theorem getElem?_insert_of_ne (t : Std.ExtTreeMap α β) {k a : α} (h : k ≠ a) (v : β) :
    (t.insert k v)[a]? = t[a]? := by
  rw [getElem?_insert_eq_ite, if_neg h]

theorem getElem?_erase_of_ne (t : Std.ExtTreeMap α β) {k a : α} (h : k ≠ a) :
    (t.erase k)[a]? = t[a]? := by
  rw [getElem?_erase_eq_ite, if_neg h]

theorem getElem?_of_erase {t : Std.ExtTreeMap α β} {k a : α} {v : β}
    (h : (t.erase k)[a]? = some v) : t[a]? = some v := by
  rw [getElem?_erase_eq_ite] at h
  split at h
  · cases h
  · exact h

theorem getElem?_insert_eq_some {t : Std.ExtTreeMap α β} {k a : α} {v b : β}
    (h : (t.insert k v)[a]? = some b) : (k = a ∧ v = b) ∨ t[a]? = some b := by
  rw [getElem?_insert_eq_ite] at h
  split at h
  · rename_i hk
    exact Or.inl ⟨hk, Option.some.inj h⟩
  · exact Or.inr h

theorem insert_erase (t : Std.ExtTreeMap α β) (k : α) (v : β) :
    (t.erase k).insert k v = t.insert k v := by
  apply Std.ExtTreeMap.ext_getElem?
  intro a
  rw [getElem?_insert_eq_ite, getElem?_insert_eq_ite, getElem?_erase_eq_ite]
  split <;> rfl

theorem insert_of_getElem?_eq_some {t : Std.ExtTreeMap α β} {k : α} {v : β} (h : t[k]? = some v) :
    t.insert k v = t := by
  apply Std.ExtTreeMap.ext_getElem?
  intro a
  rw [getElem?_insert_eq_ite]
  split
  · rename_i hk
    rw [← hk, h]
  · rfl

theorem insert_insert (t : Std.ExtTreeMap α β) (k : α) (v v' : β) :
    (t.insert k v).insert k v' = t.insert k v' := by
  apply Std.ExtTreeMap.ext_getElem?
  intro a
  simp only [getElem?_insert_eq_ite]
  split <;> rfl

theorem erase_insert_of_getElem?_eq_none {t : Std.ExtTreeMap α β} {k : α} (h : t[k]? = none)
    (v : β) : (t.insert k v).erase k = t := by
  apply Std.ExtTreeMap.ext_getElem?
  intro a
  rw [getElem?_erase_eq_ite, getElem?_insert_eq_ite]
  split
  · rename_i hk
    rw [← hk, h]
  · rfl

end Lookup

theorem mem_of_getElem?_eq_some {α β : Type} {cmp : α → α → Ordering} [Std.TransCmp cmp]
    {t : Std.ExtTreeMap α β cmp} {k : α} {v : β} (h : t[k]? = some v) : k ∈ t := by
  rw [Std.ExtTreeMap.mem_iff_isSome_getElem?, h]
  rfl

/-- A map whose keys another map has too is not larger than that one. -/
theorem size_le_of_subset {α β γ : Type} {cmp : α → α → Ordering} [Std.TransCmp cmp]
    [Std.LawfulEqCmp cmp] {t : Std.ExtTreeMap α β cmp} {u : Std.ExtTreeMap α γ cmp}
    (h : ∀ k ∈ t, k ∈ u) : t.size ≤ u.size := by
  rw [← Std.ExtTreeMap.length_keys, ← Std.ExtTreeMap.length_keys]
  refine (Std.ExtTreeMap.nodup_keys.subperm fun k hk ↦ ?_).length_le
  exact Std.ExtTreeMap.mem_keys.mpr (h k (Std.ExtTreeMap.mem_keys.mp hk))

section FirstEntry

variable {α β : Type} {cmp : α → α → Ordering} [Std.TransCmp cmp]

private theorem impl_first_eq [Ord α] (t : Std.DTreeMap.Internal.Impl α fun _ ↦ β) :
    Std.DTreeMap.Internal.Impl.Const.minEntry? t =
      (t.toListModel.map fun e ↦ (e.1, e.2)).head? := by
  induction t using Std.DTreeMap.Internal.Impl.Const.minEntry?.induct with
  | case1 => simp [Std.DTreeMap.Internal.Impl.Const.minEntry?]
  | case2 => simp [Std.DTreeMap.Internal.Impl.Const.minEntry?]
  | case3 => simp_all [Std.DTreeMap.Internal.Impl.Const.minEntry?]

theorem first_eq_head?_toList (t : Std.ExtTreeMap α β cmp) :
    t.minEntry? = t.toList.head? := by
  obtain ⟨t⟩ := t
  induction t using Std.ExtDTreeMap.inductionOn with
  | mk t =>
    let _ : Ord α := ⟨cmp⟩
    change Std.DTreeMap.Internal.Impl.Const.minEntry? t.inner =
      (Std.DTreeMap.Internal.Impl.Const.toList t.inner).head?
    rw [impl_first_eq, Std.DTreeMap.Internal.Impl.Const.toList_eq_toListModel_map]

theorem getElem?_of_first [Std.LawfulEqCmp cmp] {t : Std.ExtTreeMap α β cmp} {k : α} {v : β}
    (h : t.minEntry? = some (k, v)) : t[k]? = some v := by
  rw [first_eq_head?_toList] at h
  exact Std.ExtTreeMap.mem_toList_iff_getElem?_eq_some.mp (List.mem_of_head? h)

theorem isLE_of_first [Std.LawfulEqCmp cmp] {t : Std.ExtTreeMap α β cmp} {k : α} {v : β}
    (h : t.minEntry? = some (k, v)) {k' : α} {v' : β} (hk' : t[k']? = some v') :
    (cmp k k').isLE := by
  have hmin : t.minKey? = some k := by
    rw [Std.ExtTreeMap.minKey?_eq_head?_keys, ← Std.ExtTreeMap.map_fst_toList_eq_keys,
      List.head?_map, ← first_eq_head?_toList, h]
    rfl
  exact (Std.ExtTreeMap.minKey?_eq_some_iff_mem_and_forall.mp hmin).2 k'
    (mem_of_getElem?_eq_some hk')

theorem getElem?_eq_none_of_first [Std.LawfulEqCmp cmp] {t : Std.ExtTreeMap α β cmp}
    (h : t.minEntry? = none) (k : α) : t[k]? = none := by
  rw [first_eq_head?_toList, List.head?_eq_none_iff] at h
  cases hk : t[k]? with
  | none => rfl
  | some v =>
    have hmem := Std.ExtTreeMap.mem_toList_iff_getElem?_eq_some.mpr hk
    rw [h] at hmem
    exact absurd hmem List.not_mem_nil

end FirstEntry

end Delve

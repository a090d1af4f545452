import Mathlib.Algebra.BigOperators.Group.List.Basic
import Mathlib.Data.List.Nodup
import Delve.Proofs.Map
/-!
# Sums over finite maps

What the values of a map come to, counted in any way in which the order does not matter. The sum is
taken apart at a key: what stands there and what stands elsewhere.
-/

namespace Delve

variable {α β M : Type} [Ord α] [Std.TransOrd α]

theorem nodup_toList (t : Std.ExtTreeMap α β) : t.toList.Nodup := by
  apply List.Nodup.of_map Prod.fst
  rw [Std.ExtTreeMap.map_fst_toList_eq_keys]
  exact Std.ExtTreeMap.nodup_keys

variable [AddCommMonoid M]

def gather (f : β → M) (t : Std.ExtTreeMap α β) : M := (t.toList.map fun e ↦ f e.2).sum

variable [Std.LawfulEqOrd α]

/-- Two maps whose values count the same at every key have the same sum. -/
theorem gather_congr {γ : Type} {f : β → M} {g : γ → M} {t : Std.ExtTreeMap α β}
    {u : Std.ExtTreeMap α γ} (h : ∀ k : α, t[k]?.map f = u[k]?.map g) : gather f t = gather g u := by
  -- the maps of what the values count are equal, and so their lists are in the same order
  have hmaps : t.map (fun _ ↦ f) = u.map fun _ ↦ g := by
    apply Std.ExtTreeMap.ext_getElem?
    intro k
    rw [Std.ExtTreeMap.getElem?_map, Std.ExtTreeMap.getElem?_map, h]
  have hsums := congrArg (fun m ↦ (m.toList.map Prod.snd).sum) hmaps
  rw [Std.ExtTreeMap.toList_map, Std.ExtTreeMap.toList_map, List.map_map, List.map_map] at hsums
  exact hsums

variable [DecidableEq α]

/-- An entry can be put first, as far as the order does not matter. -/
theorem toList_perm_cons {t : Std.ExtTreeMap α β} {k : α} {v : β} (h : t[k]? = some v) :
    t.toList.Perm ((k, v) :: (t.erase k).toList) := by
  have hnew : (k, v) ∉ (t.erase k).toList := by
    rw [Std.ExtTreeMap.mem_toList_iff_getElem?_eq_some, getElem?_erase_eq_ite, if_pos rfl]
    exact nofun
  refine (List.perm_ext_iff_of_nodup (nodup_toList t)
    (List.nodup_cons.mpr ⟨hnew, nodup_toList _⟩)).mpr ?_
  rintro ⟨i, x⟩
  rw [List.mem_cons, Std.ExtTreeMap.mem_toList_iff_getElem?_eq_some,
    Std.ExtTreeMap.mem_toList_iff_getElem?_eq_some, getElem?_erase_eq_ite]
  by_cases hi : k = i
  · subst hi
    simp [h, eq_comm]
  · simp [hi, Ne.symm hi]

theorem gather_eq (f : β → M) (t : Std.ExtTreeMap α β) (k : α) :
    gather f t = t[k]?.elim 0 f + gather f (t.erase k) := by
  cases hk : t[k]? with
  | none =>
    have hsame : t.erase k = t := by
      apply Std.ExtTreeMap.ext_getElem?
      intro i
      rw [getElem?_erase_eq_ite]
      split
      · rename_i hi
        rw [← hi, hk]
      · rfl
    rw [hsame, Option.elim_none, zero_add]
  | some v =>
    rw [gather, ((toList_perm_cons hk).map _).sum_eq, List.map_cons, List.sum_cons]
    rfl

theorem gather_insert (f : β → M) (t : Std.ExtTreeMap α β) (k : α) (v : β) :
    gather f (t.insert k v) = f v + gather f (t.erase k) := by
  have hrest : (t.insert k v).erase k = t.erase k := by
    apply Std.ExtTreeMap.ext_getElem?
    intro i
    rw [getElem?_erase_eq_ite, getElem?_erase_eq_ite, getElem?_insert_eq_ite]
    split <;> rfl
  rw [gather_eq f _ k, hrest, getElem?_insert_eq_ite, if_pos rfl]
  rfl

/-- A value that takes the place of another counts for it. -/
theorem gather_replace (f : β → M) {t : Std.ExtTreeMap α β} {k : α} {v : β} (h : t[k]? = some v)
    (v' : β) : gather f (t.insert k v') + f v = gather f t + f v' := by
  rw [gather_insert, gather_eq f t k, h, Option.elim_some, add_right_comm, add_comm (f v'),
    add_right_comm]

end Delve

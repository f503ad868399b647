import Mathlib

/-!
# Entries of tree maps

The maps of the library compare keys and say what is under a key by how it compares with others.
Here it is said by whether keys are equal, which is all that matters where the order of the keys
does not.
-/

namespace TimeSeries.TreeMap

variable {κ α : Type} [Ord κ] [Std.TransOrd κ] [Std.LawfulEqOrd κ] [DecidableEq κ]

omit [Std.TransOrd κ] in
theorem ite_compare {β : Type} (k a : κ) (x y : β) :
    (if compare k a = .eq then x else y) = if a = k then x else y := by
  by_cases h : a = k
  · rw [if_pos h, if_pos (Std.LawfulEqCmp.compare_eq_iff_eq.mpr h.symm)]
  · rw [if_neg h, if_neg (mt Std.LawfulEqCmp.compare_eq_iff_eq.mp (Ne.symm h))]

theorem getElem?_insert (t : Std.TreeMap κ α) (k a : κ) (v : α) :
    (t.insert k v)[a]? = if a = k then some v else t[a]? := by
  rw [Std.TreeMap.getElem?_insert, ite_compare]

theorem getElem?_erase (t : Std.TreeMap κ α) (k a : κ) :
    (t.erase k)[a]? = if a = k then none else t[a]? := by
  rw [Std.TreeMap.getElem?_erase, ite_compare]

theorem getD_insert (t : Std.TreeMap κ α) (k a : κ) (v other : α) :
    (t.insert k v).getD a other = if a = k then v else t.getD a other := by
  rw [Std.TreeMap.getD_insert, ite_compare]

omit [DecidableEq κ] in
/-- No key has two entries. -/
theorem nodup_keys (t : Std.TreeMap κ α) : (t.toList.map Prod.fst).Nodup := by
  refine List.pairwise_map.mpr (Std.TreeMap.distinct_keys_toList.imp fun h heq => h ?_)
  exact Std.LawfulEqCmp.compare_eq_iff_eq.mpr heq

/-- An entry under a new key comes to the others. -/
theorem toList_insert_of_none {t : Std.TreeMap κ α} {k : κ} (h : t[k]? = none) (v : α) :
    (t.insert k v).toList.Perm ((k, v) :: t.toList) := by
  have hothers : t.toList.filter (fun x => ¬ (k == x.1) = true) = t.toList := by
    rw [List.filter_eq_self]
    rintro ⟨other, w⟩ hx
    rw [Std.TreeMap.mem_toList_iff_getElem?_eq_some] at hx
    have hne : k ≠ other := by
      rintro rfl
      rw [h] at hx
      exact absurd hx (by simp)
    simpa using hne
  have hperm := Std.TreeMap.toList_insert_perm (t := t) (k := k) (v := v)
  rwa [hothers] at hperm

/-! ## How many entries there are -/

section

omit [DecidableEq κ] [Std.LawfulEqOrd κ]

variable {t : Std.TreeMap κ α} {k : κ} {v : α}

/-- An entry in the place of another one does not change how many there are. -/
theorem size_insert_of_getElem? (h : t[k]? = some v) (other : α) :
    (t.insert k other).size = t.size := by
  rw [Std.TreeMap.size_insert, Std.TreeMap.contains_eq_isSome_getElem?, h]
  rfl

theorem size_insert_of_none (h : t[k]? = none) (v : α) : (t.insert k v).size = t.size + 1 := by
  rw [Std.TreeMap.size_insert, Std.TreeMap.contains_eq_isSome_getElem?, h]
  rfl

theorem size_erase_of_getElem? (h : t[k]? = some v) : (t.erase k).size + 1 = t.size := by
  have hk : t.contains k = true := by
    rw [Std.TreeMap.contains_eq_isSome_getElem?, h]
    rfl
  have hsome : t.isEmpty = false := Std.TreeMap.isEmpty_eq_false_of_contains hk
  rw [Std.TreeMap.isEmpty_eq_size_eq_zero, beq_eq_false_iff_ne] at hsome
  rw [Std.TreeMap.size_erase, hk, if_pos rfl]
  exact Nat.sub_add_cancel (Nat.pos_of_ne_zero hsome)

end

theorem card_keys (t : Std.TreeMap κ α) : t.keys.toFinset.card = t.size := by
  have hnodup : t.keys.Nodup := by
    rw [← Std.TreeMap.map_fst_toList_eq_keys]
    exact nodup_keys t
  rw [List.toFinset_card_of_nodup hnodup, Std.TreeMap.length_keys]

/-- There are as many entries as keys with an entry. -/
theorem size_eq_card {t : Std.TreeMap κ α} {keys : Finset κ} (h : ∀ k, k ∈ t ↔ k ∈ keys) :
    t.size = keys.card := by
  have hkeys : t.keys.toFinset = keys := by
    ext k
    rw [List.mem_toFinset, Std.TreeMap.mem_keys, h]
  rw [← card_keys, hkeys]

/-! ## Putting back what is there

Not only the entries stay the same but the tree itself: on the way down nothing changes its size, so
there is nothing to balance on the way up.
-/

section

open Std.DTreeMap.Internal

variable {κ α : Type} [Ord κ] [Std.LawfulEqOrd κ] {k : κ} {v : α}

theorem impl_insert_of_get? {t : Impl κ fun _ => α} (ht : t.Balanced)
    (h : Impl.Const.get? t k = some v) : (t.insert k v ht).impl = t := by
  induction t with
  | leaf => exact absurd h (by simp [Impl.Const.get?])
  | inner size key value left right ihl ihr =>
    rw [Impl.Const.get?] at h
    unfold Impl.insert
    split at h
    · rename_i hlt
      simp only [hlt, Impl.balanceL_eq_balance, ihl ht.left h]
      exact Impl.balance_eq_inner ht
    · rename_i hgt
      simp only [hgt, Impl.balanceR_eq_balance, ihr ht.right h]
      exact Impl.balance_eq_inner ht
    · rename_i heq
      obtain rfl := Std.LawfulEqCmp.eq_of_compare heq
      obtain rfl := Option.some_inj.mp h
      simp only [heq]

/-- Inserting the entry that is there already changes nothing. -/
theorem insert_of_getElem? {t : Std.TreeMap κ α} (h : t[k]? = some v) : t.insert k v = t := by
  obtain ⟨⟨impl, wf⟩⟩ := t
  simp only [Std.TreeMap.insert, Std.DTreeMap.insert]
  congr 2
  exact impl_insert_of_get? wf.balanced h

end

end TimeSeries.TreeMap

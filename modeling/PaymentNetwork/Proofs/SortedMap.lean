import PaymentNetwork.SortedMap
import Mathlib.Tactic.ByContra

/-!
# Contents of Sorted Maps

What insertion and removal do to the values of a map.

Sums over the pending locks of a channel are sums over the values of a map.
Such a sum does not care about order, so the statements here are permutations:
a new key adds its value to the values, and a removed key takes its value away
and nothing else. The order of the keys is what makes the second one true, since
it rules out two entries of one key.

## Theorems

* `values_insert_perm`: A new key adds one value.
* `values_erase_perm`: A removed key takes one value away.
* `get?_insert_of_ne`, `get?_erase_of_ne`: Other keys notice neither.
* `erase_of_get?_eq_none`, `erase_insert_self`: Removing an absent key changes
  nothing, and removing a new key undoes its insertion.
* `ext_get?`: Maps in which the same is found are equal.
* `insert_comm`, `erase_comm`: Changes at different keys commute.
* `ofList_entries`: A map is made up of its entries.
* `map_values_congr`: Maps in which the same is found under a function have the same values
  under it.
-/

namespace PaymentNetwork

open Std

namespace SortedMap

variable {κ α : Type} [Ord κ]

theorem mem_of_lookup_eq_some [LawfulEqOrd κ] {k : κ} {v : α} {l : List (κ × α)}
    (h : lookup k l = some v) : (k, v) ∈ l := by
  induction l with
  | nil => cases h
  | cons head rest ih =>
      rcases head with ⟨j, w⟩
      rw [lookup] at h
      split at h
      · rename_i hk
        cases h
        rw [LawfulEqCmp.eq_of_compare hk]
        exact List.mem_cons_self
      · exact List.mem_cons_of_mem _ (ih h)

variable [TransOrd κ] [LawfulEqOrd κ]

omit [LawfulEqOrd κ] in
/-- Keys increase along the entries, so the first entry of a key is its only
    one. -/
theorem lookup_eq_some_of_mem {k : κ} {v : α} {l : List (κ × α)}
    (hs : l.Pairwise (fun a b => compare a.1 b.1 = .lt)) (h : (k, v) ∈ l) :
    lookup k l = some v := by
  induction l with
  | nil => cases h
  | cons head rest ih =>
      rcases head with ⟨j, w⟩
      have hrest := List.pairwise_cons.mp hs
      rw [lookup]
      rcases List.mem_cons.mp h with h | h
      · cases h
        rw [if_pos ReflCmp.compare_self]
      · have hlt : compare j k = .lt := hrest.1 _ h
        rw [if_neg (by rw [OrientedCmp.gt_iff_lt.mpr hlt]; decide)]
        exact ih hrest.2 h

theorem get?_eq_some_iff {m : SortedMap κ α} {k : κ} {v : α} :
    m.get? k = some v ↔ (k, v) ∈ m.entries :=
  ⟨mem_of_lookup_eq_some, lookup_eq_some_of_mem m.sorted⟩

theorem mem_values_of_get? {m : SortedMap κ α} {k : κ} {v : α} (h : m.get? k = some v) :
    v ∈ m.values :=
  List.mem_map_of_mem (f := Prod.snd) (get?_eq_some_iff.mp h)

theorem mem_values_iff {m : SortedMap κ α} {v : α} : v ∈ m.values ↔ ∃ k, m.get? k = some v := by
  constructor
  · intro h
    rcases List.mem_map.mp h with ⟨⟨k, v'⟩, he, rfl⟩
    exact ⟨k, get?_eq_some_iff.mpr he⟩
  · rintro ⟨k, h⟩
    exact mem_values_of_get? h

omit [LawfulEqOrd κ] in
theorem nodup_keys (m : SortedMap κ α) : m.keys.Nodup := by
  refine List.pairwise_map.mpr (m.sorted.imp ?_)
  intro a b hlt heq
  have hself : compare b.1 b.1 = .eq := ReflCmp.compare_self
  rw [heq, hself] at hlt
  cases hlt

omit [LawfulEqOrd κ] in
theorem nodup_entries (m : SortedMap κ α) : m.entries.Nodup :=
  (List.pairwise_map.mp m.nodup_keys).imp (fun hne heq => hne (congrArg Prod.fst heq))

theorem get?_insert_of_ne {m : SortedMap κ α} {k k' : κ} {v : α} (h : k' ≠ k) :
    (m.insert k v).get? k' = m.get? k' := by
  rw [get?_insert, if_neg (fun hk => h (LawfulEqCmp.eq_of_compare hk))]

@[simp] theorem get?_erase_self (m : SortedMap κ α) (k : κ) : (m.erase k).get? k = none := by
  rw [get?_erase, if_pos ReflCmp.compare_self]

theorem get?_erase_of_ne {m : SortedMap κ α} {k k' : κ} (h : k' ≠ k) :
    (m.erase k).get? k' = m.get? k' := by
  rw [get?_erase, if_neg (fun hk => h (LawfulEqCmp.eq_of_compare hk))]

/-- What is left after a removal was there before. -/
theorem get?_of_get?_erase {m : SortedMap κ α} {k k' : κ} {v : α}
    (h : (m.erase k).get? k' = some v) : m.get? k' = some v := by
  rw [get?_erase] at h
  split at h
  · cases h
  · exact h

omit [TransOrd κ] [LawfulEqOrd κ] in
theorem insertEntry_perm {k : κ} {v : α} {l : List (κ × α)} (h : lookup k l = none) :
    (insertEntry k v l).Perm ((k, v) :: l) := by
  induction l with
  | nil => exact List.Perm.refl _
  | cons head rest ih =>
      rcases head with ⟨j, w⟩
      rw [lookup] at h
      split at h
      · cases h
      · rename_i hne
        unfold insertEntry
        split
        · exact List.Perm.refl _
        · rename_i heq
          exact absurd heq hne
        · exact (List.Perm.cons _ (ih h)).trans (List.Perm.swap _ _ _)

omit [TransOrd κ] in
theorem filter_ne_perm {k : κ} {v : α} {l : List (κ × α)}
    (hs : l.Pairwise (fun a b => compare a.1 b.1 = .lt)) (h : lookup k l = some v) :
    l.Perm ((k, v) :: l.filter (fun e => compare k e.1 != .eq)) := by
  induction l with
  | nil => cases h
  | cons head rest ih =>
      rcases head with ⟨j, w⟩
      have hrest := List.pairwise_cons.mp hs
      rw [lookup] at h
      split at h
      · rename_i hk
        cases h
        have hj : k = j := LawfulEqCmp.eq_of_compare hk
        subst hj
        rw [List.filter_cons_of_neg (by simp)]
        -- All later keys are larger, so nothing else is removed.
        rw [List.filter_eq_self.mpr]
        intro e he
        rw [hrest.1 e he]
        rfl
      · rename_i hk
        rw [List.filter_cons_of_pos (by simpa using hk)]
        exact (List.Perm.cons _ (ih hrest.2 h)).trans (List.Perm.swap _ _ _)

omit [LawfulEqOrd κ] in
theorem filter_insertEntry (k : κ) (v : α) (l : List (κ × α)) :
    (insertEntry k v l).filter (fun e => compare k e.1 != .eq)
      = l.filter (fun e => compare k e.1 != .eq) := by
  induction l with
  | nil => simp [insertEntry]
  | cons head rest ih =>
      rcases head with ⟨j, w⟩
      unfold insertEntry
      split
      · simp
      · rename_i heq
        simp [heq]
      · simp [List.filter_cons, ih]

theorem values_insert_perm {m : SortedMap κ α} {k : κ} (v : α) (h : m.get? k = none) :
    (m.insert k v).values.Perm (v :: m.values) :=
  (insertEntry_perm h).map Prod.snd

omit [TransOrd κ] in
theorem values_erase_perm {m : SortedMap κ α} {k : κ} {v : α} (h : m.get? k = some v) :
    m.values.Perm (v :: (m.erase k).values) :=
  (filter_ne_perm m.sorted h).map Prod.snd

theorem erase_of_get?_eq_none {m : SortedMap κ α} {k : κ} (h : m.get? k = none) :
    m.erase k = m := by
  refine ext (List.filter_eq_self.mpr ?_)
  intro e he
  by_contra hk
  have hk' : compare k e.1 = .eq := by simpa using hk
  rw [LawfulEqCmp.eq_of_compare hk', get?_eq_some_iff.mpr he] at h
  cases h

theorem erase_insert_self {m : SortedMap κ α} {k : κ} (v : α) (h : m.get? k = none) :
    (m.insert k v).erase k = m := by
  have herase : (m.insert k v).erase k = m.erase k := ext (filter_insertEntry k v m.entries)
  rw [herase, erase_of_get?_eq_none h]

/-! ### Equal maps -/

/-- Maps in which the same is found are equal. -/
theorem ext_get? {m n : SortedMap κ α} (h : ∀ k, m.get? k = n.get? k) : m = n := by
  have hmem : ∀ e, e ∈ m.entries ↔ e ∈ n.entries := by
    rintro ⟨k, v⟩
    rw [← get?_eq_some_iff, ← get?_eq_some_iff, h k]
  have hperm : m.entries.Perm n.entries :=
    (List.perm_ext_iff_of_nodup m.nodup_entries n.nodup_entries).mpr hmem
  refine ext (hperm.eq_of_pairwise ?_ m.sorted n.sorted)
  intro a b _ _ hab hba
  rw [OrientedCmp.gt_iff_lt.mpr hab] at hba
  cases hba

theorem insert_of_get? {m : SortedMap κ α} {k : κ} {v : α} (h : m.get? k = some v) :
    m.insert k v = m := by
  refine ext_get? (fun k' => ?_)
  by_cases hk : k' = k
  · rw [hk, get?_insert_self, h]
  · exact get?_insert_of_ne hk

@[simp] theorem insert_insert_self (m : SortedMap κ α) (k : κ) (v v' : α) :
    (m.insert k v).insert k v' = m.insert k v' := by
  refine ext_get? (fun i => ?_)
  by_cases hi : i = k
  · rw [hi, get?_insert_self, get?_insert_self]
  · rw [get?_insert_of_ne hi, get?_insert_of_ne hi, get?_insert_of_ne hi]

theorem erase_comm (m : SortedMap κ α) (k k' : κ) :
    (m.erase k).erase k' = (m.erase k').erase k := by
  refine ext_get? (fun i => ?_)
  simp only [get?_erase]
  split <;> split <;> rfl

theorem insert_comm {m : SortedMap κ α} {k k' : κ} (v v' : α) (h : k ≠ k') :
    (m.insert k v).insert k' v' = (m.insert k' v').insert k v := by
  refine ext_get? (fun i => ?_)
  by_cases hi : i = k
  · rw [hi, get?_insert_of_ne h, get?_insert_self, get?_insert_self]
  · rw [get?_insert_of_ne hi]
    by_cases hi' : i = k'
    · rw [hi', get?_insert_self, get?_insert_self]
    · rw [get?_insert_of_ne hi', get?_insert_of_ne hi', get?_insert_of_ne hi]

/-! ### Maps from their entries -/

omit [LawfulEqOrd κ] in
/-- An entry with a larger key than all others goes to the end. -/
theorem insertEntry_eq_concat {k : κ} {v : α} {l : List (κ × α)}
    (h : ∀ e ∈ l, compare e.1 k = .lt) : insertEntry k v l = l ++ [(k, v)] := by
  induction l with
  | nil => rfl
  | cons head rest ih =>
      have hlater : compare k head.1 = .gt :=
        OrientedCmp.gt_iff_lt.mpr (h head List.mem_cons_self)
      rw [insertEntry, hlater, ih (fun e he => h e (List.mem_cons_of_mem _ he)), List.cons_append]

/-- Entries that are inserted in the order of their keys stay in this order. -/
theorem entries_foldl_insert {l : List (κ × α)} {m : SortedMap κ α}
    (h : (m.entries ++ l).Pairwise (fun a b => compare a.1 b.1 = .lt)) :
    (l.foldl (fun m e => m.insert e.1 e.2) m).entries = m.entries ++ l := by
  induction l generalizing m with
  | nil => exact (List.append_nil _).symm
  | cons e rest ih =>
      have hlast : (m.insert e.1 e.2).entries = m.entries ++ [e] :=
        insertEntry_eq_concat fun e' he' =>
          (List.pairwise_append.mp h).2.2 e' he' e List.mem_cons_self
      rw [List.append_cons, ← hlast] at h
      rw [List.foldl_cons, ih h, hlast, ← List.append_cons]

/-- A map is made up of its entries. -/
theorem ofList_entries (m : SortedMap κ α) : ofList m.entries = m :=
  ext (entries_foldl_insert (m := empty) m.sorted)

/-! ### Images of the values -/

omit [TransOrd κ] [LawfulEqOrd κ] in
theorem lookup_map {β : Type} (f : α → β) (k : κ) (l : List (κ × α)) :
    lookup k (l.map (Prod.map id f)) = (lookup k l).map f := by
  induction l with
  | nil => rfl
  | cons head rest ih =>
      rw [List.map_cons, Prod.map, lookup, lookup, ih]
      by_cases hk : compare k head.1 = .eq
      · rw [id, if_pos hk, if_pos hk, Option.map_some]
      · rw [id, if_neg hk, if_neg hk]

/-- Maps in which the same is found under a function have the same values under it. -/
theorem map_values_congr {β : Type} {m n : SortedMap κ α} {f : α → β}
    (h : ∀ k, (m.get? k).map f = (n.get? k).map f) : m.values.map f = n.values.map f := by
  let image : SortedMap κ α → SortedMap κ β := fun m =>
    ⟨m.entries.map (Prod.map id f), List.pairwise_map.mpr m.sorted⟩
  have himage : image m = image n :=
    ext_get? fun k => by
      rw [get?, get?, lookup_map, lookup_map]
      exact h k
  have hvalues : ∀ m : SortedMap κ α, (image m).values = m.values.map f := fun m => by
    simp [image, values]
  rw [← hvalues, ← hvalues, himage]

end SortedMap

end PaymentNetwork

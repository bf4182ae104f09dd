import PaymentNetwork.Sorting
import Mathlib.Data.List.Sort

/-!
# What Stable Sorting Means

The sort is the insertion sort of the library, so what is known of that one holds of it: it
rearranges the list, its result is in order, and a part of the list that is in order is a
part of the result.

A stable sort is determined by two facts: the result is in order, and the elements of one
key stand in it as they stood before. Two lists for which both hold are equal. So whatever
produces a list with these two facts, one element at a time or in several batches, has
produced the stable sort, and `eq_sortOn_iff` is how that is shown.

## Theorems

* `sortBy_eq_insertionSort`: The sort is the one of the library.
* `map_sortBy`: Sorting elements by their images, and sorting the images.
* `filter_sortBy`: Elements that precede each other stay as they stood.
* `sortOn_ordered`, `filter_sortOn`: The two facts about the sort by a key.
* `eq_of_ordered_of_filter`: The two facts determine a list.
* `eq_sortOn_iff`: A list is the stable sort exactly if the two facts hold.
* `sortOn_filter`: What is taken out of a sort is the sort of what is taken out.
-/

namespace PaymentNetwork

open Std

variable {α β : Type}

theorem insertBy_eq_orderedInsert (le : α → α → Bool) (x : α) (xs : List α) :
    insertBy le x xs = xs.orderedInsert (fun a b => le a b = true) x := by
  induction xs with
  | nil => rfl
  | cons y ys ih => rw [insertBy, List.orderedInsert_cons, ih]

/-- The sort is the one of the library. -/
theorem sortBy_eq_insertionSort (le : α → α → Bool) (xs : List α) :
    sortBy le xs = xs.insertionSort (fun a b => le a b = true) := by
  induction xs with
  | nil => rfl
  | cons x xs ih =>
      rw [List.insertionSort_cons, ← ih, ← insertBy_eq_orderedInsert]
      rfl

theorem sortBy_perm (le : α → α → Bool) (xs : List α) : (sortBy le xs).Perm xs := by
  rw [sortBy_eq_insertionSort]
  exact List.perm_insertionSort _ xs

/-- Sorting by what a function says of the elements is sorting what it says. -/
theorem map_sortBy (le : β → β → Bool) (f : α → β) (xs : List α) :
    (sortBy (fun a b => le (f a) (f b)) xs).map f = sortBy le (xs.map f) := by
  rw [sortBy_eq_insertionSort, sortBy_eq_insertionSort]
  exact List.map_insertionSort _ _ f xs fun _ _ _ _ => Iff.rfl

theorem pairwise_sortBy {le : α → α → Bool}
    (htrans : ∀ a b c, le a b = true → le b c = true → le a c = true)
    (htotal : ∀ a b, le a b = true ∨ le b a = true) (xs : List α) :
    (sortBy le xs).Pairwise fun a b => le a b = true := by
  have : IsTrans α fun a b => le a b = true := ⟨htrans⟩
  have : Std.Total fun a b => le a b = true := ⟨htotal⟩
  rw [sortBy_eq_insertionSort]
  exact List.pairwise_insertionSort _ xs

/-- Elements that precede each other stay as they stood. They are a part of the list that is
    in order, so they are a part of the sort, and all that the sort has of them. -/
theorem filter_sortBy {le : α → α → Bool} {p : α → Bool}
    (h : ∀ a b, p a = true → p b = true → le a b = true) (xs : List α) :
    (sortBy le xs).filter p = xs.filter p := by
  have hordered : (xs.filter p).Pairwise fun a b => le a b = true :=
    List.pairwise_filter.mpr (List.pairwise_of_forall h)
  have hsub : (xs.filter p).Sublist (sortBy le xs) := by
    rw [sortBy_eq_insertionSort]
    exact List.sublist_insertionSort hordered List.filter_sublist
  have hpart : (xs.filter p).Sublist ((sortBy le xs).filter p) := by
    simpa only [List.filter_filter, Bool.and_self] using hsub.filter p
  exact (hpart.eq_of_length ((sortBy_perm le xs).filter p).length_eq.symm).symm

variable [Ord β]

/-- The keys of the list do not decrease. -/
def OrderedOn (key : α → β) (xs : List α) : Prop :=
  xs.Pairwise fun a b => (compare (key a) (key b)).isLE = true

variable {key : α → β}

theorem sortOn_ordered [TransOrd β] (xs : List α) : OrderedOn key (sortOn key xs) := by
  refine pairwise_sortBy (fun a b c => TransCmp.isLE_trans) (fun a b => ?_) xs
  by_cases hle : (compare (key a) (key b)).isLE = true
  · exact Or.inl hle
  · right
    rw [OrientedCmp.lt_of_not_isLE hle]
    rfl

section Filter

variable [DecidableEq β]

theorem filter_sortOn [TransOrd β] (k : β) (xs : List α) :
    (sortOn key xs).filter (fun a => key a = k) = xs.filter (fun a => key a = k) := by
  refine filter_sortBy (fun a b ha hb => ?_) xs
  rw [of_decide_eq_true ha, of_decide_eq_true hb]
  exact ReflCmp.isLE_rfl

/-- A list in order is determined by what it holds of every key. -/
theorem eq_of_ordered_of_filter [TransOrd β] [LawfulEqOrd β] {xs ys : List α}
    (hx : OrderedOn key xs) (hy : OrderedOn key ys)
    (h : ∀ k, xs.filter (fun a => key a = k) = ys.filter (fun a => key a = k)) : xs = ys := by
  induction xs generalizing ys with
  | nil =>
      cases ys with
      | nil => rfl
      | cons b ys => simpa using h (key b)
  | cons a xs ih =>
      cases ys with
      | nil => simpa using h (key a)
      | cons b ys =>
          have hxs := List.pairwise_cons.mp hx
          have hys := List.pairwise_cons.mp hy
          -- Each of the two first elements occurs in the other list, so neither is larger.
          have hab : (compare (key a) (key b)).isLE = true := by
            have hmem : b ∈ (a :: xs).filter (fun c => key c = key b) := by
              rw [h (key b)]
              simp
            rcases List.mem_cons.mp (List.mem_filter.mp hmem).1 with rfl | hb
            · exact ReflCmp.isLE_rfl
            · exact hxs.1 b hb
          have hba : (compare (key b) (key a)).isLE = true := by
            have hmem : a ∈ (b :: ys).filter (fun c => key c = key a) := by
              rw [← h (key a)]
              simp
            rcases List.mem_cons.mp (List.mem_filter.mp hmem).1 with rfl | ha
            · exact ReflCmp.isLE_rfl
            · exact hys.1 a ha
          have hkey : key a = key b :=
            LawfulEqCmp.eq_of_compare (OrientedCmp.isLE_antisymm hab hba)
          have hfirst : a = b ∧ xs.filter (fun c => key c = key b)
              = ys.filter (fun c => key c = key b) := by
            have hk := h (key b)
            rw [List.filter_cons_of_pos (by simp [hkey]), List.filter_cons_of_pos (by simp)] at hk
            exact List.cons.inj hk
          rw [hfirst.1, ih hxs.2 hys.2]
          intro k
          by_cases hk : key b = k
          · subst hk
            exact hfirst.2
          · have hrest := h k
            rwa [List.filter_cons_of_neg (by simpa [hkey] using hk),
              List.filter_cons_of_neg (by simpa using hk)] at hrest

/-- A list is the stable sort of another one exactly if it is in order and the elements
    of one key stand in it as they stand in the other. -/
theorem eq_sortOn_iff [TransOrd β] [LawfulEqOrd β] {xs ys : List α} :
    ys = sortOn key xs ↔ OrderedOn key ys ∧
      ∀ k, ys.filter (fun a => key a = k) = xs.filter (fun a => key a = k) := by
  constructor
  · rintro rfl
    exact ⟨sortOn_ordered xs, fun k => filter_sortOn k xs⟩
  · rintro ⟨hordered, hfilter⟩
    refine eq_of_ordered_of_filter hordered (sortOn_ordered xs) (fun k => ?_)
    rw [hfilter, filter_sortOn]

/-- What is taken out of a sort is the sort of what is taken out. -/
theorem sortOn_filter [TransOrd β] [LawfulEqOrd β] (p : α → Bool) (xs : List α) :
    (sortOn key xs).filter p = sortOn key (xs.filter p) := by
  refine eq_sortOn_iff.mpr ⟨(sortOn_ordered xs).filter p, fun k => ?_⟩
  rw [List.filter_comm, filter_sortOn, List.filter_comm]

end Filter

end PaymentNetwork

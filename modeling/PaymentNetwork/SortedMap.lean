/-!
# Maps in Key Order

Finite maps kept as a list of entries with strictly increasing keys.

A node's answers list channels, participants and locks by key, and two
participants of a channel must agree on a set of locks whatever the order in
which the locks were added. Both come for free when a map has exactly one
representation: `SortedMap.ext` says that maps with the same entries are equal,
and `entries` is the order in which they are listed.

## Main definitions

* `SortedMap`: A list of entries with strictly increasing keys.
* `SortedMap.get?`, `SortedMap.insert`, `SortedMap.erase`: The map operations.
* `SortedMap.adjust`: Change the value at one key, if it is present.

## Theorems

* `SortedMap.get?_insert`: What is found after an insertion.
* `SortedMap.get?_erase`: What is found after a removal.
-/

namespace PaymentNetwork

open Std

/-- A map from `κ` to `α`, listed by increasing key. -/
structure SortedMap (κ α : Type) [Ord κ] where
  entries : List (κ × α)
  sorted : entries.Pairwise (fun a b => compare a.1 b.1 = .lt)

namespace SortedMap

variable {κ α : Type} [Ord κ]

@[ext] theorem ext {m n : SortedMap κ α} (h : m.entries = n.entries) : m = n := by
  cases m
  cases n
  cases h
  rfl

instance [DecidableEq κ] [DecidableEq α] : DecidableEq (SortedMap κ α) := fun m n =>
  if h : m.entries = n.entries then isTrue (ext h) else isFalse (fun e => h (by rw [e]))

/-- The map without entries. -/
def empty : SortedMap κ α := ⟨[], List.Pairwise.nil⟩

instance : Inhabited (SortedMap κ α) := ⟨empty⟩

/-- The value found at `k` in a list of entries. -/
def lookup (k : κ) : List (κ × α) → Option α
  | [] => none
  | (k', v) :: rest => if compare k k' = .eq then some v else lookup k rest

/-- The value at `k`. -/
def get? (m : SortedMap κ α) (k : κ) : Option α := lookup k m.entries

/-- Is there a value at `k`? -/
def contains (m : SortedMap κ α) (k : κ) : Bool := (m.get? k).isSome

/-- Put an entry at its place, replacing the one of the same key. -/
def insertEntry (k : κ) (v : α) : List (κ × α) → List (κ × α)
  | [] => [(k, v)]
  | (k', v') :: rest =>
    match compare k k' with
    | .lt => (k, v) :: (k', v') :: rest
    | .eq => (k, v) :: rest
    | .gt => (k', v') :: insertEntry k v rest

theorem mem_insertEntry {k : κ} {v : α} {l : List (κ × α)} {e : κ × α}
    (h : e ∈ insertEntry k v l) : e = (k, v) ∨ e ∈ l := by
  induction l with
  | nil => exact Or.inl (List.mem_singleton.mp h)
  | cons head rest ih =>
      rcases head with ⟨k', v'⟩
      unfold insertEntry at h
      split at h
      · rcases List.mem_cons.mp h with h | h
        · exact Or.inl h
        · exact Or.inr h
      · rcases List.mem_cons.mp h with h | h
        · exact Or.inl h
        · exact Or.inr (List.mem_cons_of_mem _ h)
      · rcases List.mem_cons.mp h with h | h
        · exact Or.inr (h ▸ List.mem_cons_self)
        · rcases ih h with h | h
          · exact Or.inl h
          · exact Or.inr (List.mem_cons_of_mem _ h)

variable [TransOrd κ] [LawfulEqOrd κ]

theorem insertEntry_sorted {l : List (κ × α)} (k : κ) (v : α)
    (h : l.Pairwise (fun a b => compare a.1 b.1 = .lt)) :
    (insertEntry k v l).Pairwise (fun a b => compare a.1 b.1 = .lt) := by
  induction l with
  | nil => exact List.pairwise_singleton _ _
  | cons head rest ih =>
      rcases head with ⟨k', v'⟩
      have hrest := List.pairwise_cons.mp h
      unfold insertEntry
      split
      · rename_i hlt
        refine List.pairwise_cons.mpr ⟨?_, h⟩
        intro e he
        rcases List.mem_cons.mp he with he | he
        · rw [he]
          exact hlt
        · exact TransCmp.lt_trans hlt (hrest.1 e he)
      · rename_i heq
        have hk : k = k' := LawfulEqCmp.eq_of_compare heq
        subst hk
        exact List.pairwise_cons.mpr ⟨hrest.1, hrest.2⟩
      · rename_i hgt
        refine List.pairwise_cons.mpr ⟨?_, ih hrest.2⟩
        intro e he
        rcases mem_insertEntry he with he | he
        · rw [he]
          exact OrientedCmp.gt_iff_lt.mp hgt
        · exact hrest.1 e he

/-- Put `v` at `k`. -/
def insert (m : SortedMap κ α) (k : κ) (v : α) : SortedMap κ α :=
  ⟨insertEntry k v m.entries, insertEntry_sorted k v m.sorted⟩

/-- Forget the value at `k`. -/
def erase (m : SortedMap κ α) (k : κ) : SortedMap κ α :=
  ⟨m.entries.filter (fun e => compare k e.1 != .eq), m.sorted.filter _⟩

/-- Apply `f` to the value at `k`. -/
def adjust (m : SortedMap κ α) (k : κ) (f : α → α) : SortedMap κ α :=
  match m.get? k with
  | none => m
  | some v => m.insert k (f v)

/-- The map holding the given entries, later ones replacing earlier ones. -/
def ofList (l : List (κ × α)) : SortedMap κ α :=
  l.foldl (fun m e => m.insert e.1 e.2) empty

/-- The keys, smallest first. -/
def keys (m : SortedMap κ α) : List κ := m.entries.map Prod.fst

/-- The values, in the order of their keys. -/
def values (m : SortedMap κ α) : List α := m.entries.map Prod.snd

/-- The number of entries. -/
def size (m : SortedMap κ α) : Nat := m.entries.length

omit [TransOrd κ] in
theorem lookup_insertEntry (k k' : κ) (v : α) (l : List (κ × α)) :
    lookup k' (insertEntry k v l) = if compare k' k = .eq then some v else lookup k' l := by
  induction l with
  | nil => rfl
  | cons head rest ih =>
      rcases head with ⟨j, w⟩
      unfold insertEntry
      split
      · rfl
      · rename_i heq
        have hk : k = j := LawfulEqCmp.eq_of_compare heq
        subst hk
        simp only [lookup]
        split <;> rfl
      · rename_i hgt
        simp only [lookup, ih]
        split
        · rename_i hj
          have hj' : k' = j := LawfulEqCmp.eq_of_compare hj
          subst hj'
          rw [if_neg]
          intro h
          have hk : k' = k := LawfulEqCmp.eq_of_compare h
          subst hk
          rw [hj] at hgt
          cases hgt
        · rfl

theorem get?_insert (m : SortedMap κ α) (k k' : κ) (v : α) :
    (m.insert k v).get? k' = if compare k' k = .eq then some v else m.get? k' :=
  lookup_insertEntry k k' v m.entries

@[simp] theorem get?_insert_self (m : SortedMap κ α) (k : κ) (v : α) :
    (m.insert k v).get? k = some v := by
  rw [get?_insert, if_pos ReflCmp.compare_self]

theorem lookup_filter_ne (k k' : κ) (l : List (κ × α)) :
    lookup k' (l.filter (fun e => compare k e.1 != .eq))
      = if compare k' k = .eq then none else lookup k' l := by
  induction l with
  | nil => simp [lookup]
  | cons head rest ih =>
      rcases head with ⟨j, w⟩
      by_cases hk : compare k j = .eq
      · have hj : k = j := LawfulEqCmp.eq_of_compare hk
        subst hj
        rw [List.filter_cons_of_neg (by simp)]
        rw [ih]
        simp only [lookup]
        split <;> rfl
      · rw [List.filter_cons_of_pos (by simpa using hk)]
        simp only [lookup, ih]
        split
        · rename_i hj
          have hj' : k' = j := LawfulEqCmp.eq_of_compare hj
          subst hj'
          rw [if_neg]
          intro h
          exact hk (by rw [OrientedOrd.eq_swap, h]; rfl)
        · rfl

theorem get?_erase (m : SortedMap κ α) (k k' : κ) :
    (m.erase k).get? k' = if compare k' k = .eq then none else m.get? k' :=
  lookup_filter_ne k k' m.entries

omit [TransOrd κ] [LawfulEqOrd κ] in
@[simp] theorem get?_empty (k : κ) : (empty : SortedMap κ α).get? k = none := rfl

end SortedMap

end PaymentNetwork

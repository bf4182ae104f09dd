import Mathlib.Logic.Function.Iterate
import PaymentNetwork.Lock
import PaymentNetwork.Proofs.Sorting

/-!
# What a Locksroot Commits To

One root stands for all locks of a channel direction, whatever order they were added in.

That the order does not matter is the work of the sort. That nothing else gets lost is
less clear. A leaf is hashed with the same function as an inner node, an odd node moves up
without being hashed at all, and nowhere is it written down how many locks there are. So
two lists of different lengths might have the same root without any weakness of the hash.

They do not, and no counting is needed to see it. The computation of a root is a tree, and
the bytes that are hashed at its top tell what the tree looks like there: 56 bytes are a
lock, and 64 bytes are the digests of two smaller trees. So a root is followed down from
both trees at once. As long as no two byte strings have one hash they agree at every node,
and equal trees have the same locks at their ends.

## Main definitions

* `pairBytes`, `climbBytes`, `locksrootBytes`: The byte strings that are hashed on the way
  to a root.
* `HashBreaks`: Two of some byte strings have the same hash, or one has the hash zero.
* `LockTree`: The computation of a root.
* `Rounds`: How often a layer is halved, and what is left then.
* `LocksrootLaw`: What a root says of the locks, and that there is one.

## Theorems

* `LockTree.eq_of_digest_eq`: Trees with the same digest are equal, or the hash breaks.
* `exists_tree_of_locks`: The root over some locks is the digest of a tree over them.
* `exists_rounds`: Halving a layer leaves one node in the end.
* `locksrootLaw`: The law for all lists of locks.
-/

namespace PaymentNetwork

-- Powers are those of the core library, whichever other instance is in scope.
attribute [local instance (high)] instPowNat

/-! ### What is hashed -/

/-- The byte strings that are hashed to halve a layer. A lone last node is not. -/
def pairBytes : List Digest → List (List UInt8)
  | [] => []
  | [_] => []
  | x :: y :: rest => (x.bytes ++ y.bytes) :: pairBytes rest

/-- The byte strings that are hashed on the way from a layer to the top. -/
def climbBytes : Nat → List Digest → List (List UInt8)
  | _, [] => []
  | _, [_] => []
  | 0, _ :: _ => []
  | count + 1, x :: y :: rest =>
    pairBytes (x :: y :: rest) ++ climbBytes count (pairUp (x :: y :: rest))

/-- The byte strings that are hashed to compute the root over some locks. -/
def locksrootBytes (locks : List Lock) : List (List UInt8) :=
  locks.map Lock.leafBytes ++ climbBytes locks.length (sortOn id (locks.map Lock.leaf))

/-- Two of the messages have the same hash, or one of them has the hash of no locks. -/
def HashBreaks (messages : List (List UInt8)) : Prop :=
  (∃ x ∈ messages, ∃ y ∈ messages, x ≠ y ∧ sha512t256 x = sha512t256 y) ∨
    ∃ x ∈ messages, sha512t256 x = FixedBytes.zero 32

theorem HashBreaks.mono {messages messages' : List (List UInt8)} (h : HashBreaks messages)
    (hsub : messages ⊆ messages') : HashBreaks messages' := by
  rcases h with ⟨x, hx, y, hy, hne, heq⟩ | ⟨x, hx, hzero⟩
  · exact Or.inl ⟨x, hsub hx, y, hsub hy, hne, heq⟩
  · exact Or.inr ⟨x, hsub hx, hzero⟩

/-! ### The bytes of a lock -/

theorem mod_eq_of_wordBytes_eq {count m n : Nat} (h : wordBytes count m = wordBytes count n) :
    m % 256 ^ count = n % 256 ^ count := by
  induction count with
  | zero => rw [Nat.pow_zero, Nat.mod_one, Nat.mod_one]
  | succ k ih =>
      rw [wordBytes, wordBytes, List.cons.injEq] at h
      have hfirst : m / 256 ^ k % 256 = n / 256 ^ k % 256 := by
        have hbyte := congrArg UInt8.toNat h.1
        rwa [UInt8.toNat_ofNat', UInt8.toNat_ofNat'] at hbyte
      rw [Nat.pow_succ, Nat.mod_mul, Nat.mod_mul, hfirst, ih h.2]

/-- A word can be read back from enough of its bytes. -/
theorem Word.eq_of_wordBytes_eq {bits count : Nat} {a b : Word bits} (hbits : bits = 8 * count)
    (h : wordBytes count a.val = wordBytes count b.val) : a = b := by
  have hmod := mod_eq_of_wordBytes_eq h
  have hpow : 2 ^ bits = 256 ^ count := by rw [hbits, Nat.pow_mul]
  have ha := a.isLt
  have hb := b.isLt
  rw [hpow] at ha hb
  rw [Nat.mod_eq_of_lt ha, Nat.mod_eq_of_lt hb] at hmod
  exact Word.ext hmod

theorem Lock.length_leafBytes (l : Lock) : l.leafBytes.length = 56 := by
  rw [leafBytes, List.length_append, List.length_append, length_wordBytes, length_wordBytes,
    l.secretHash.length_bytes]

/-- The three parts have lengths of their own, so they can be told apart. -/
theorem Lock.eq_of_leafBytes_eq {l l' : Lock} (h : l.leafBytes = l'.leafBytes) : l = l' := by
  rw [leafBytes, leafBytes] at h
  obtain ⟨hnumbers, hhash⟩ := List.append_inj h (by simp)
  obtain ⟨hamount, hexpiration⟩ := List.append_inj hnumbers (by simp)
  cases l
  cases l'
  rw [Lock.mk.injEq]
  exact ⟨Word.eq_of_wordBytes_eq rfl hamount, Word.eq_of_wordBytes_eq rfl hexpiration,
    FixedBytes.ext hhash⟩

/-! ### The computation as a tree -/

/-- The computation of a root: a lock that is hashed, or two smaller computations whose
    digests are. -/
inductive LockTree where
  | leaf (l : Lock)
  | node (left right : LockTree)

namespace LockTree

/-- The locks at the ends, from left to right. -/
def locks : LockTree → List Lock
  | leaf l => [l]
  | node left right => left.locks ++ right.locks

/-- What the computation comes to. -/
def digest : LockTree → Digest
  | leaf l => l.leaf
  | node left right => hashPair left.digest right.digest

/-- The byte string that is hashed last. -/
def preimage : LockTree → List UInt8
  | leaf l => l.leafBytes
  | node left right => left.digest.bytes ++ right.digest.bytes

/-- All byte strings that are hashed. -/
def preimages : LockTree → List (List UInt8)
  | leaf l => [l.leafBytes]
  | node left right =>
    (left.digest.bytes ++ right.digest.bytes) :: (left.preimages ++ right.preimages)

theorem digest_eq (t : LockTree) : t.digest = sha512t256 t.preimage := by
  cases t with
  | leaf l => rfl
  | node left right => rfl

theorem preimage_mem (t : LockTree) : t.preimage ∈ t.preimages := by
  cases t with
  | leaf l => exact List.mem_singleton_self _
  | node left right => exact List.mem_cons_self

/-- Trees with the same digest hash the same bytes last, or the hash breaks. -/
theorem preimage_eq_of_digest_eq {s t : LockTree} (h : s.digest = t.digest) :
    s.preimage = t.preimage ∨ HashBreaks (s.preimages ++ t.preimages) := by
  by_cases hsame : s.preimage = t.preimage
  · exact Or.inl hsame
  · refine Or.inr (Or.inl ⟨s.preimage, List.mem_append_left _ s.preimage_mem, t.preimage,
      List.mem_append_right _ t.preimage_mem, hsame, ?_⟩)
    rw [← digest_eq, ← digest_eq, h]

/-- A lock takes 56 bytes and two digests take 64, so a leaf is no inner node. -/
theorem preimage_leaf_ne_node (l : Lock) (left right : LockTree) :
    (leaf l).preimage ≠ (node left right).preimage := by
  intro h
  have hlength := congrArg List.length h
  rw [preimage, preimage, l.length_leafBytes, List.length_append, left.digest.length_bytes,
    right.digest.length_bytes] at hlength
  cases hlength

theorem preimages_left_subset {left right left' right' : LockTree} :
    left.preimages ++ left'.preimages
      ⊆ (node left right).preimages ++ (node left' right').preimages := by
  refine List.append_subset.mpr ⟨fun x hx => ?_, fun x hx => ?_⟩
  · exact List.mem_append_left _ (List.mem_cons_of_mem _ (List.mem_append_left _ hx))
  · exact List.mem_append_right _ (List.mem_cons_of_mem _ (List.mem_append_left _ hx))

theorem preimages_right_subset {left right left' right' : LockTree} :
    right.preimages ++ right'.preimages
      ⊆ (node left right).preimages ++ (node left' right').preimages := by
  refine List.append_subset.mpr ⟨fun x hx => ?_, fun x hx => ?_⟩
  · exact List.mem_append_left _ (List.mem_cons_of_mem _ (List.mem_append_right _ hx))
  · exact List.mem_append_right _ (List.mem_cons_of_mem _ (List.mem_append_right _ hx))

/-- Trees with the same digest are equal, whatever their shapes, or the hash breaks on
    something that one of them hashed. -/
theorem eq_of_digest_eq {s t : LockTree} (h : s.digest = t.digest) :
    s = t ∨ HashBreaks (s.preimages ++ t.preimages) := by
  induction s generalizing t with
  | leaf l =>
      rcases preimage_eq_of_digest_eq h with hsame | hbreaks
      · cases t with
        | leaf l' => exact Or.inl (congrArg leaf (Lock.eq_of_leafBytes_eq hsame))
        | node left right => exact absurd hsame (preimage_leaf_ne_node l left right)
      · exact Or.inr hbreaks
  | node left right ihleft ihright =>
      rcases preimage_eq_of_digest_eq h with hsame | hbreaks
      · cases t with
        | leaf l => exact absurd hsame.symm (preimage_leaf_ne_node l left right)
        | node left' right' =>
            -- Digests have one length, so the two halves are equal on their own.
            obtain ⟨hleft, hright⟩ := List.append_inj hsame
              (left.digest.length_bytes.trans left'.digest.length_bytes.symm)
            rcases ihleft (FixedBytes.ext hleft) with rfl | hbreaks
            · rcases ihright (FixedBytes.ext hright) with rfl | hbreaks
              · exact Or.inl rfl
              · exact Or.inr (hbreaks.mono preimages_right_subset)
            · exact Or.inr (hbreaks.mono preimages_left_subset)
      · exact Or.inr hbreaks

/-- A tree whose digest is zero has hashed something to zero. -/
theorem breaks_of_digest_eq_zero {t : LockTree} (h : t.digest = FixedBytes.zero 32) :
    HashBreaks t.preimages :=
  Or.inr ⟨t.preimage, t.preimage_mem, (digest_eq t).symm.trans h⟩

/-- A layer of trees, halved like the layer of their digests. -/
def pairTrees : List LockTree → List LockTree
  | [] => []
  | [t] => [t]
  | s :: t :: rest => node s t :: pairTrees rest

theorem map_digest_pairTrees (ts : List LockTree) :
    (pairTrees ts).map digest = pairUp (ts.map digest) := by
  induction ts using pairTrees.induct with
  | case1 => rfl
  | case2 t => rfl
  | case3 s t rest ih =>
      rw [pairTrees, List.map_cons, ih]
      rfl

theorem flatMap_locks_pairTrees (ts : List LockTree) :
    (pairTrees ts).flatMap locks = ts.flatMap locks := by
  induction ts using pairTrees.induct with
  | case1 => rfl
  | case2 t => rfl
  | case3 s t rest ih =>
      rw [pairTrees, List.flatMap_cons, ih, List.flatMap_cons, List.flatMap_cons, locks,
        List.append_assoc]

/-- Halving a layer hashes the pairs of it and nothing else. -/
theorem flatMap_preimages_pairTrees (ts : List LockTree) :
    (pairTrees ts).flatMap preimages ⊆ ts.flatMap preimages ++ pairBytes (ts.map digest) := by
  induction ts using pairTrees.induct with
  | case1 => exact List.nil_subset _
  | case2 t => exact List.subset_append_left _ _
  | case3 s t rest ih =>
      intro x hx
      rw [pairTrees, List.flatMap_cons, preimages, List.cons_append, List.mem_cons,
        List.mem_append] at hx
      rw [List.map_cons, List.map_cons, pairBytes, List.flatMap_cons, List.flatMap_cons,
        ← List.append_assoc]
      rcases hx with rfl | hx | hx
      · exact List.mem_append_right _ List.mem_cons_self
      · exact List.mem_append_left _ (List.mem_append_left _ hx)
      · rcases List.mem_append.mp (ih hx) with hx | hx
        · exact List.mem_append_left _ (List.mem_append_right _ hx)
        · exact List.mem_append_right _ (List.mem_cons_of_mem _ hx)

/-- The top of a layer of digests is the digest of a tree over the whole layer. -/
theorem exists_tree_of_layer {count : Nat} {ts : List LockTree} (hne : ts ≠ [])
    (hcount : ts.length ≤ count + 1) :
    ∃ t : LockTree, t.digest = climb count (ts.map digest) ∧ t.locks = ts.flatMap locks ∧
      t.preimages ⊆ ts.flatMap preimages ++ climbBytes count (ts.map digest) := by
  induction count generalizing ts with
  | zero =>
      match ts, hne, hcount with
      | [t], _, _ => exact ⟨t, rfl, (List.flatMap_singleton _ _).symm, by simp [climbBytes]⟩
  | succ count ih =>
      match ts, hne, hcount with
      | [t], _, _ => exact ⟨t, rfl, (List.flatMap_singleton _ _).symm, by simp [climbBytes]⟩
      | s :: t :: rest, _, hcount =>
          have hlength : (pairTrees (s :: t :: rest)).length ≤ count + 1 := by
            have hhalf := length_pairUp ((s :: t :: rest).map digest)
            rw [← map_digest_pairTrees, List.length_map, List.length_map] at hhalf
            omega
          have hpairs : pairTrees (s :: t :: rest) ≠ [] := List.cons_ne_nil _ _
          obtain ⟨top, hdigest, hlocks, hbytes⟩ := ih hpairs hlength
          refine ⟨top, ?_, ?_, fun x hx => ?_⟩
          · rw [hdigest, map_digest_pairTrees]
            rfl
          · rw [hlocks, flatMap_locks_pairTrees]
          · -- What is hashed above is hashed on the way up from here, the pairs first.
            rw [List.map_cons, List.map_cons, climbBytes, ← List.append_assoc]
            rcases List.mem_append.mp (hbytes hx) with hx | hx
            · exact List.mem_append_left _ (flatMap_preimages_pairTrees (s :: t :: rest) hx)
            · rw [map_digest_pairTrees] at hx
              exact List.mem_append_right _ hx

end LockTree

/-! ### Sorted leaves -/

/-- Elements that are their own keys are sorted in one way only. -/
theorem sortOn_id_eq_of_perm {β : Type} [Ord β] [Std.TransOrd β] [Std.LawfulEqOrd β]
    {xs ys : List β} (h : xs.Perm ys) : sortOn id xs = sortOn id ys := by
  have hperm : (sortOn id xs).Perm (sortOn id ys) :=
    (sortBy_perm _ xs).trans (h.trans (sortBy_perm _ ys).symm)
  refine hperm.eq_of_pairwise ?_ (sortOn_ordered xs) (sortOn_ordered ys)
  intro a b _ _ hab hba
  exact Std.LawfulEqCmp.eq_of_compare (Std.OrientedCmp.isLE_antisymm hab hba)

/-- The root over some locks is the digest of a tree over them. -/
theorem exists_tree_of_locks {locks : List Lock} (hne : locks ≠ []) :
    ∃ t : LockTree, t.digest = locksroot locks ∧ t.locks.Perm locks ∧
      t.preimages ⊆ locksrootBytes locks := by
  have hperm : (sortOn Lock.leaf locks).Perm locks := sortBy_perm _ locks
  have hlayer : ((sortOn Lock.leaf locks).map LockTree.leaf).map LockTree.digest
      = sortOn id (locks.map Lock.leaf) := by
    rw [List.map_map]
    exact map_sortBy (fun a b => (compare a b).isLE) Lock.leaf locks
  have hlength : ((sortOn Lock.leaf locks).map LockTree.leaf).length ≤ locks.length + 1 := by
    rw [List.length_map, hperm.length_eq]
    exact Nat.le_succ _
  have hnonempty : (sortOn Lock.leaf locks).map LockTree.leaf ≠ [] := by
    intro hnil
    rw [List.map_eq_nil_iff] at hnil
    exact hne (hnil ▸ hperm).nil_eq.symm
  obtain ⟨t, hdigest, hlocks, hbytes⟩ := LockTree.exists_tree_of_layer hnonempty hlength
  rw [hlayer] at hdigest hbytes
  refine ⟨t, ?_, ?_, fun x hx => ?_⟩
  · rw [hdigest, locksroot, merkleRoot, List.length_map]
  · have hends : ((sortOn Lock.leaf locks).map LockTree.leaf).flatMap LockTree.locks
        = sortOn Lock.leaf locks := by
      rw [List.flatMap_map]
      exact List.flatMap_singleton' _
    rw [hlocks, hends]
    exact hperm
  · rcases List.mem_append.mp (hbytes hx) with hx | hx
    · -- The sort moves leaves about, but it hashes none that is not there.
      rw [List.flatMap_map] at hx
      obtain ⟨l, hl, hx⟩ := List.mem_flatMap.mp hx
      refine List.mem_append_left _ (List.mem_map.mpr ⟨l, hperm.mem_iff.mp hl, ?_⟩)
      exact (List.mem_singleton.mp hx).symm
    · exact List.mem_append_right _ hx

/-! ### The loop ends -/

/-- A layer of more than one node is halved so many times, and then this node is left. -/
def Rounds (layer : List Digest) (count : Nat) (root : Digest) : Prop :=
  pairUp^[count] layer = [root] ∧ ∀ earlier < count, 1 < (pairUp^[earlier] layer).length

/-- Halving a layer leaves one node in the end, the one that `climb` finds. -/
theorem exists_rounds {count : Nat} {layer : List Digest} (hne : layer ≠ [])
    (hcount : layer.length ≤ count + 1) :
    ∃ rounds ≤ count, Rounds layer rounds (climb count layer) := by
  have hsingle : ∀ (count : Nat) (x : Digest), Rounds [x] 0 (climb count [x]) := by
    intro count x
    refine ⟨?_, fun _ h => absurd h (Nat.not_lt_zero _)⟩
    cases count with
    | zero => rfl
    | succ count => rfl
  induction count generalizing layer with
  | zero =>
      match layer, hne, hcount with
      | [x], _, _ => exact ⟨0, Nat.le_refl 0, hsingle 0 x⟩
  | succ count ih =>
      match layer, hne, hcount with
      | [x], _, _ => exact ⟨0, Nat.zero_le _, hsingle (count + 1) x⟩
      | x :: y :: rest, _, hcount =>
          have hlength : (pairUp (x :: y :: rest)).length ≤ count + 1 := by
            rw [length_pairUp]
            omega
          obtain ⟨rounds, hrounds, hroot, hmore⟩ := ih (List.cons_ne_nil _ _) hlength
          refine ⟨rounds + 1, Nat.succ_le_succ hrounds, hroot, fun earlier hearlier => ?_⟩
          cases earlier with
          | zero =>
              rw [Function.iterate_zero_apply, List.length_cons, List.length_cons]
              omega
          | succ earlier =>
              rw [Function.iterate_succ_apply]
              exact hmore earlier (Nat.lt_of_succ_lt_succ hearlier)

/-! ### The law -/

/-- What a root says of the locks below it, and that there is one. -/
structure LocksrootLaw : Prop where
  /-- The order of the locks leaves no trace. -/
  order : ∀ locks locks' : List Lock, locks.Perm locks' → locksroot locks = locksroot locks'
  /-- The locks can only be told apart by their order, or the hash breaks on something that
      was hashed to compute the two roots. -/
  binding : ∀ locks locks' : List Lock, locksroot locks = locksroot locks' →
    locks.Perm locks' ∨ HashBreaks (locksrootBytes locks ++ locksrootBytes locks')
  /-- Without leaves there is nothing to look for. -/
  empty : merkleRoot [] = FixedBytes.zero 32
  /-- With leaves, the sorted layer is halved until one node is left, which is the root. No
      layer on the way is empty, and there are no more rounds than leaves. -/
  ends : ∀ leaves : List Digest, leaves ≠ [] →
    ∃ rounds ≤ leaves.length, Rounds (sortOn id leaves) rounds (merkleRoot leaves)

/-- The root is computed for all leaves, and it commits to the locks as a whole. -/
theorem locksrootLaw : LocksrootLaw where
  order locks locks' hperm := by
    have hleaves := hperm.map Lock.leaf
    rw [locksroot, locksroot, merkleRoot, merkleRoot, hleaves.length_eq,
      sortOn_id_eq_of_perm hleaves]
  binding locks locks' heq := by
    by_cases hempty : locks = []
    · subst hempty
      by_cases hempty' : locks' = []
      · subst hempty'
        exact Or.inl (List.Perm.refl _)
      · -- No locks have the hash zero, so a tree with this digest has hashed something to it.
        obtain ⟨t, hdigest, -, hbytes⟩ := exists_tree_of_locks hempty'
        have hbreaks := LockTree.breaks_of_digest_eq_zero (hdigest.trans heq.symm)
        exact Or.inr (hbreaks.mono (fun x hx => List.mem_append_right _ (hbytes hx)))
    · obtain ⟨s, hdigest, hlocks, hbytes⟩ := exists_tree_of_locks hempty
      by_cases hempty' : locks' = []
      · subst hempty'
        have hbreaks := LockTree.breaks_of_digest_eq_zero (hdigest.trans heq)
        exact Or.inr (hbreaks.mono (fun x hx => List.mem_append_left _ (hbytes hx)))
      · obtain ⟨t, hdigest', hlocks', hbytes'⟩ := exists_tree_of_locks hempty'
        rcases LockTree.eq_of_digest_eq (hdigest.trans (heq.trans hdigest'.symm)) with
          rfl | hbreaks
        · exact Or.inl (hlocks.symm.trans hlocks')
        · refine Or.inr (hbreaks.mono (List.append_subset.mpr ⟨fun x hx => ?_, fun x hx => ?_⟩))
          · exact List.mem_append_left _ (hbytes hx)
          · exact List.mem_append_right _ (hbytes' hx)
  empty := rfl
  ends leaves hne := by
    have hperm : (sortOn id leaves).Perm leaves := sortBy_perm _ leaves
    have hnonempty : sortOn id leaves ≠ [] := fun hnil => hne (hnil ▸ hperm).nil_eq.symm
    refine exists_rounds hnonempty ?_
    rw [hperm.length_eq]
    exact Nat.le_succ _

end PaymentNetwork

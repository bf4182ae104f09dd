import PaymentNetwork.Channel.Commitment
import PaymentNetwork.Proofs.SortedMap
import Mathlib.Algebra.GroupWithZero.Nat

/-!
# Pending Locks as Plain Numbers

What the pending locks of an end amount to, over unbounded integers.

A channel sums its locks with saturating words, so the sum it works with may be
less than what the locks amount to. `pendingTotal` is the true amount. The two
agree as long as the true amount is a word, which is half of what `Sound` says
of an end; the other half is that every lock is filed under its own hash.

`room_of_le_distributable` is where the saturating arithmetic of balances is
left behind. A positive amount that an end can still lock fits below what the
end owns, however many of the sums on the way were clipped: a clipped sum can
only make the end look poorer.

## Main definitions

* `lockTotal`: The sum of the amounts of some locks.
* `ChannelEnd.pendingTotal`: What the pending locks of an end amount to.
* `ChannelEnd.Sound`: Locks are filed under their hashes, and their sum is a
  word.

## Theorems

* `val_lockedSum`: The saturating sum in terms of the true one.
* `ChannelEnd.Sound.nodup`: No lock is pending twice.
* `ChannelEnd.pendingTotal_insertLock`, `ChannelEnd.pendingTotal_removeLock`:
  What one lock changes.
* `ChannelEnd.room_of_le_distributable`: What can be locked is covered.
* `ChannelEnd.distributable_mono`: Receiving more never takes room away.
-/

namespace PaymentNetwork

/-- The sum of the amounts of some locks. -/
def lockTotal (locks : List Lock) : Nat := (locks.map (·.amount.val)).sum

@[simp] theorem lockTotal_nil : lockTotal [] = 0 := rfl

@[simp] theorem lockTotal_cons (l : Lock) (locks : List Lock) :
    lockTotal (l :: locks) = l.amount.val + lockTotal locks := by
  rw [lockTotal, List.map_cons, List.sum_cons, lockTotal]

theorem lockTotal_append (xs ys : List Lock) :
    lockTotal (xs ++ ys) = lockTotal xs + lockTotal ys := by
  rw [lockTotal, List.map_append, List.sum_append, lockTotal, lockTotal]

theorem lockTotal_perm {xs ys : List Lock} (h : xs.Perm ys) : lockTotal xs = lockTotal ys :=
  (h.map _).sum_nat

theorem val_foldl_satAdd (locks : List Lock) (a : Amount) :
    (locks.foldl (fun acc l => acc.satAdd l.amount) a).val
      = min (a.val + lockTotal locks) (2 ^ 128 - 1) := by
  -- The sum so far may be clipped already, so it takes part in the induction.
  induction locks generalizing a with
  | nil =>
      have := a.isLt
      simp only [List.foldl_nil, lockTotal_nil]
      omega
  | cons l rest ih =>
      rw [List.foldl_cons, ih, Word.val_satAdd, lockTotal_cons]
      omega

theorem val_lockedSum (locks : List Lock) :
    (lockedSum locks).val = min (lockTotal locks) (2 ^ 128 - 1) := by
  rw [lockedSum, val_foldl_satAdd, Word.val_zero, Nat.zero_add]

namespace ChannelEnd

theorem nonce_of_proof? {e : ChannelEnd} {p : BalanceProof} (h : e.proof? = some p) :
    e.nonce = p.nonce := by
  rw [nonce, h]

theorem transferredAmount_of_proof? {e : ChannelEnd} {p : BalanceProof} (h : e.proof? = some p) :
    e.transferredAmount = p.transferredAmount := by
  rw [transferredAmount, h]

theorem nonce_of_none {e : ChannelEnd} (h : e.proof? = none) : e.nonce = 0 := by
  rw [nonce, h]

theorem transferredAmount_of_none {e : ChannelEnd} (h : e.proof? = none) :
    e.transferredAmount = 0 := by
  rw [transferredAmount, h]

theorem nonce_congr {e e' : ChannelEnd} (h : e'.proof? = e.proof?) : e'.nonce = e.nonce := by
  rw [nonce, h, nonce]

/-- What the pending locks amount to. -/
def pendingTotal (e : ChannelEnd) : Nat := lockTotal e.pendingLocks.values

/-- Every lock is filed under its own hash, and the sum of all of them is a
    word. -/
structure Sound (e : ChannelEnd) : Prop where
  keyed : ∀ k l, e.pendingLocks.get? k = some l → l.secretHash = k
  fits : e.pendingTotal < 2 ^ 128

theorem sound_fresh (address : Address) : (fresh address).Sound where
  keyed k l h := by
    simp only [fresh, SortedMap.get?_empty, reduceCtorEq] at h
  fits := Nat.two_pow_pos 128

/-- Two pending locks with the same hash would be filed under the same key. -/
theorem Sound.nodup {e : ChannelEnd} (h : e.Sound) : e.pendingLocks.values.Nodup := by
  rw [SortedMap.values, List.Nodup, List.pairwise_map]
  refine List.Pairwise.imp_of_mem ?_ e.pendingLocks.sorted
  intro a b ha hb hlt heq
  -- Keys increase along the entries, while equal locks would be filed under one key.
  have hkeyA := h.keyed _ _ (SortedMap.get?_eq_some_iff.mpr ha)
  have hkeyB := h.keyed _ _ (SortedMap.get?_eq_some_iff.mpr hb)
  rw [← hkeyA, ← hkeyB, heq] at hlt
  have hself : compare b.2.secretHash b.2.secretHash = .eq := Std.ReflCmp.compare_self
  rw [hself] at hlt
  cases hlt

/-- The saturating sum of a sound end is the true one. -/
theorem Sound.val_lockedAmount {e : ChannelEnd} (h : e.Sound) :
    e.lockedAmount.val = e.pendingTotal := by
  have := h.fits
  rw [lockedAmount, val_lockedSum]
  unfold pendingTotal at this ⊢
  omega

theorem pendingTotal_insertLock {e : ChannelEnd} {l : Lock}
    (h : e.pendingLocks.get? l.secretHash = none) :
    (e.apply (.insertLock l)).pendingTotal = l.amount.val + e.pendingTotal := by
  rw [pendingTotal, apply, lockTotal_perm (SortedMap.values_insert_perm l h), lockTotal_cons,
    pendingTotal]

theorem pendingTotal_removeLock {e : ChannelEnd} {k : SecretHash} {l : Lock}
    (h : e.pendingLocks.get? k = some l) :
    e.pendingTotal = l.amount.val + (e.apply (.removeLock k)).pendingTotal := by
  rw [pendingTotal, lockTotal_perm (SortedMap.values_erase_perm h), lockTotal_cons, pendingTotal,
    apply]

theorem pendingTotal_removeLock_le (e : ChannelEnd) (k : SecretHash) :
    (e.apply (.removeLock k)).pendingTotal ≤ e.pendingTotal := by
  cases hk : e.pendingLocks.get? k with
  | none =>
      rw [pendingTotal, apply, SortedMap.erase_of_get?_eq_none hk]
      exact Nat.le_refl _
  | some l =>
      rw [pendingTotal_removeLock hk]
      exact Nat.le_add_left _ _

/-- One lock more than what the end sums up to is what it sums up to with that
    lock. -/
theorem Sound.lockedAmount_add {e : ChannelEnd} {l : Lock} (h : e.Sound)
    (hl : e.pendingLocks.get? l.secretHash = none) :
    e.lockedAmount.val + l.amount.val = (e.apply (.insertLock l)).pendingTotal := by
  rw [pendingTotal_insertLock hl, h.val_lockedAmount, Nat.add_comm]

/-- The same for one lock less. The difference is never cut off at zero. -/
theorem Sound.val_lockedAmount_sub {e : ChannelEnd} {k : SecretHash} {l : Lock} (h : e.Sound)
    (hl : e.pendingLocks.get? k = some l) :
    (e.lockedAmount.satSub l.amount).val = (e.apply (.removeLock k)).pendingTotal := by
  rw [Word.val_satSub, h.val_lockedAmount, pendingTotal_removeLock hl, Nat.add_sub_cancel_left]

theorem Sound.insertLock {e : ChannelEnd} {l : Lock} (h : e.Sound)
    (hfits : (e.apply (.insertLock l)).pendingTotal < 2 ^ 128) :
    (e.apply (.insertLock l)).Sound where
  keyed k m hm := by
    by_cases hk : k = l.secretHash
    · subst hk
      -- What is found under the hash of the new lock is the new lock.
      rw [apply, SortedMap.get?_insert_self, Option.some.injEq] at hm
      rw [hm]
    · rw [apply, SortedMap.get?_insert_of_ne hk] at hm
      exact h.keyed k m hm
  fits := hfits

theorem Sound.removeLock {e : ChannelEnd} (h : e.Sound) (k : SecretHash) :
    (e.apply (.removeLock k)).Sound where
  keyed k' m hm := h.keyed k' m (SortedMap.get?_of_get?_erase hm)
  fits := Nat.lt_of_le_of_lt (e.pendingTotal_removeLock_le k) h.fits

/-- A change of an end that is not about its locks keeps it sound. -/
theorem Sound.congr {e e' : ChannelEnd} (h : e.Sound) (hl : e'.pendingLocks = e.pendingLocks) :
    e'.Sound where
  keyed := by
    rw [hl]
    exact h.keyed
  fits := by
    rw [pendingTotal, hl]
    exact h.fits

/-- What a sound end can still lock is covered by what it owns. -/
theorem room_of_le_distributable {e other : ChannelEnd} {a : Amount} (hs : e.Sound)
    (h : a ≤ distributable e other) (hpos : 0 < a.val) :
    e.withdrawn.val + e.transferredAmount.val + e.pendingTotal + a.val
      ≤ min (e.contractBalance.val + other.transferredAmount.val) (2 ^ 128 - 1) := by
  -- A difference that is cut off is zero, and nothing positive is below it.
  rw [Word.le_iff, distributable, Word.val_satSub, val_balance, hs.val_lockedAmount] at h
  omega

/-- What an end can lock grows with what it received. -/
theorem distributable_mono {e other other' : ChannelEnd}
    (h : other.transferredAmount ≤ other'.transferredAmount) :
    distributable e other ≤ distributable e other' := by
  rw [Word.le_iff] at h ⊢
  rw [distributable, distributable, Word.val_satSub, Word.val_satSub, val_balance, val_balance]
  omega

end ChannelEnd

end PaymentNetwork

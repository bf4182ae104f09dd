import PaymentNetwork.Proofs.Channel.Locks

/-!
# What the Six Operations Do

One description for every way in which an end of a channel gets a new balance
proof.

We change our end by creating a message, and the partner changes its end by a
message that we accept. The two sides compute what the proof has to say along
different paths: the creator sums the new locks, while the receiver adds one lock
to the sum of the old ones, or subtracts it. For a sound end both come to the same
numbers, and `Recommits` is what they have in common. Everything that is proved
about channels afterwards is proved about `Recommits`, and no operation is opened
again.

The two halves differ in what they leave to the other. `create_spec` says that a
created message recommits our end with the next nonce. `accept_eq_ok_iff` says
that a message is accepted exactly if it recommits the partner's end with a larger
nonce at a suitable block.

## Main definitions

* `ChannelRequest`, `Channel.create`: What we can be asked to do with our end.
* `ChannelMessage`, `Channel.accept`: What the partner can tell us of its end.
* `LockChange`: The change of the pending locks behind a new balance proof.
* `ChannelEnd.recommit`: The end after a change of its locks and a new balance
  proof.
* `ChannelEnd.Recommits`: The end may change so, and the proof says how.

## Theorems

* `Channel.checkProof_eq_none_iff`: What the rule on balance proofs asks for.
* `Channel.sendTransfer_eq_ok_iff`: When a lock is sent, and with which message.
* `Channel.create_spec`: What a created message does to our end.
* `Channel.accept_eq_ok_iff`: When a message is accepted, and what it does.
* `ChannelEnd.Recommits.pendingTotal`, `ChannelEnd.Recommits.sound`: What the
  change does to the locks.
-/

namespace PaymentNetwork

/-- Something that we can be asked to do with our end of a channel. -/
inductive ChannelRequest where
  | transfer (terms : TransferTerms) (now : Height)
  | unlock (paymentId : PaymentId) (secret : Secret)
  | removal (secretHash : SecretHash) (now : Height)
deriving DecidableEq

/-- A message that puts a new balance proof on the end of its sender. -/
inductive ChannelMessage where
  | transfer (m : LockedTransfer)
  | unlock (m : Unlock)
  | removal (m : LockRemoval)
deriving DecidableEq

/-- A change of the pending locks of an end. -/
inductive LockChange where
  | added (l : Lock)
  /-- The lock became a transferred amount. -/
  | claimed (l : Lock)
  | removed (l : Lock)
deriving DecidableEq

namespace LockChange

/-- The change of the end that files or forgets the lock. -/
def toEndChange : LockChange → EndChange
  | added l => .insertLock l
  | claimed l => .removeLock l.secretHash
  | removed l => .removeLock l.secretHash

/-- What the change adds to the pending locks. -/
def addedAmount : LockChange → Nat
  | added l => l.amount.val
  | _ => 0

/-- What the change takes from the pending locks. -/
def takenAmount : LockChange → Nat
  | added _ => 0
  | claimed l => l.amount.val
  | removed l => l.amount.val

/-- What the change adds to the transferred amount. -/
def claimedAmount : LockChange → Nat
  | claimed l => l.amount.val
  | _ => 0

/-- May `e` make the change, given the other end? A new lock has a new hash and
    is covered, and any other is pending. -/
def Allowed (e other : ChannelEnd) : LockChange → Prop
  | added l =>
    e.pendingLocks.get? l.secretHash = none ∧ l.amount ≤ ChannelEnd.distributable e other
  | claimed l => e.pendingLocks.get? l.secretHash = some l
  | removed l => e.pendingLocks.get? l.secretHash = some l

end LockChange

namespace ChannelRequest

/-- Does the request ask for the change? -/
def Shows : ChannelRequest → LockChange → Prop
  | transfer terms _, .added l => terms.lock = l
  | unlock _ secret, .claimed l => hashSecret secret = l.secretHash
  | removal secretHash _, .removed l => secretHash = l.secretHash
  | _, _ => False

end ChannelRequest

namespace ChannelMessage

/-- The balance proof that the message carries. -/
def balanceProof : ChannelMessage → BalanceProof
  | transfer m => m.balanceProof
  | unlock m => m.balanceProof
  | removal m => m.balanceProof

/-- Does the message tell of the change? -/
def Shows : ChannelMessage → LockChange → Prop
  | transfer m, .added l => m.lock = l
  | unlock m, .claimed l => hashSecret m.secret = l.secretHash
  | removal m, .removed l => m.secretHash = l.secretHash
  | _, _ => False

/-- Does the message arrive at a suitable block? A lock is offered before it
    expires, and taken back when it expired. -/
def Timely (sender : ChannelEnd) (now : Height) : ChannelMessage → Prop
  | transfer m => now < m.lock.expiration
  | unlock _ => True
  | removal m => ∀ l ∈ sender.pendingLocks.get? m.secretHash, l.expiration ≤ now

instance (sender : ChannelEnd) (now : Height) : DecidablePred (Timely sender now)
  | transfer m => inferInstanceAs (Decidable (now < m.lock.expiration))
  | unlock _ => isTrue trivial
  | removal m =>
    inferInstanceAs (Decidable (∀ l ∈ sender.pendingLocks.get? m.secretHash, l.expiration ≤ now))

end ChannelMessage

namespace ChannelEnd

/-- The end after a change of its locks, with a new balance proof. -/
def recommit (e : ChannelEnd) (change : LockChange) (p : BalanceProof) : ChannelEnd :=
  (e.apply change.toEndChange).apply (.proof p)

/-- The end may make the change, and the balance proof says what comes of it: the
    amount transferred, and the sum and the root of the pending locks. -/
structure Recommits (channelId : ChannelId) (tokenNetwork : Address) (e other : ChannelEnd)
    (change : LockChange) (p : BalanceProof) : Prop where
  allowed : change.Allowed e other
  channelId_eq : p.channelId = channelId
  tokenNetwork_eq : p.tokenNetwork = tokenNetwork
  transferred : p.transferredAmount.val = e.transferredAmount.val + change.claimedAmount
  locked : p.lockedAmount.val = (e.recommit change p).pendingTotal
  root : p.locksroot = (e.recommit change p).locksroot

section Recommit

variable {channelId : ChannelId} {tokenNetwork : Address} {e other : ChannelEnd}
  {change : LockChange} {p : BalanceProof}

@[simp] theorem recommit_address : (e.recommit change p).address = e.address := by
  cases change <;> rfl

@[simp] theorem recommit_contractBalance :
    (e.recommit change p).contractBalance = e.contractBalance := by
  cases change <;> rfl

@[simp] theorem recommit_withdrawn : (e.recommit change p).withdrawn = e.withdrawn := by
  cases change <;> rfl

@[simp] theorem recommit_proof? : (e.recommit change p).proof? = some p := rfl

@[simp] theorem recommit_transferredAmount :
    (e.recommit change p).transferredAmount = p.transferredAmount := rfl

theorem recommit_pendingTotal :
    (e.recommit change p).pendingTotal = (e.apply change.toEndChange).pendingTotal := rfl

/-- The pending locks after a change, in balance with those before. -/
theorem Recommits.pendingTotal (h : Recommits channelId tokenNetwork e other change p) :
    (e.recommit change p).pendingTotal + change.takenAmount
      = e.pendingTotal + change.addedAmount := by
  have hallowed := h.allowed
  rw [recommit_pendingTotal]
  cases change with
  | added l =>
      simp only [LockChange.toEndChange, LockChange.takenAmount, LockChange.addedAmount,
        pendingTotal_insertLock hallowed.1]
      omega
  | claimed l =>
      simp only [LockChange.toEndChange, LockChange.takenAmount, LockChange.addedAmount,
        pendingTotal_removeLock hallowed]
      omega
  | removed l =>
      simp only [LockChange.toEndChange, LockChange.takenAmount, LockChange.addedAmount,
        pendingTotal_removeLock hallowed]
      omega

/-- The amount locked by a proof is a word, so a change keeps the end sound. -/
theorem Recommits.sound (h : Recommits channelId tokenNetwork e other change p) (hs : e.Sound) :
    (e.recommit change p).Sound := by
  refine Sound.congr (e := e.apply change.toEndChange) ?_ rfl
  cases change with
  | added l =>
      -- The proof itself is the witness that the larger sum is still a word.
      refine hs.insertLock ?_
      have hfits := p.lockedAmount.isLt
      rwa [h.locked, recommit_pendingTotal] at hfits
  | claimed l => exact hs.removeLock l.secretHash
  | removed l => exact hs.removeLock l.secretHash

theorem Recommits.transferredAmount_le
    (h : Recommits channelId tokenNetwork e other change p) :
    e.transferredAmount ≤ (e.recommit change p).transferredAmount := by
  rw [recommit_transferredAmount, Word.le_iff, h.transferred]
  exact Nat.le_add_right _ _

/-- A change that is allowed stays so when the other end transferred more. -/
theorem Recommits.mono {other' : ChannelEnd}
    (h : Recommits channelId tokenNetwork e other change p)
    (hle : other.transferredAmount ≤ other'.transferredAmount) :
    Recommits channelId tokenNetwork e other' change p := by
  refine ⟨?_, h.channelId_eq, h.tokenNetwork_eq, h.transferred, h.locked, h.root⟩
  have hallowed := h.allowed
  cases change with
  | added l => exact ⟨hallowed.1, Nat.le_trans hallowed.2 (distributable_mono hle)⟩
  | claimed l => exact hallowed
  | removed l => exact hallowed

end Recommit

end ChannelEnd

/-! ### Deciding without branches -/

theorem ite_some_eq_none_iff {α : Type} {q : Prop} [Decidable q] {x : α} {y : Option α} :
    (if q then some x else y) = none ↔ ¬ q ∧ y = none := by
  by_cases h : q
  · simp [h]
  · simp [h]

theorem ite_error_eq_ok_iff {ε α : Type} {q : Prop} [Decidable q] {x : ε} {y : Except ε α} {a : α} :
    (if q then .error x else y) = .ok a ↔ ¬ q ∧ y = .ok a := by
  by_cases h : q
  · simp [h]
  · simp [h]

theorem map_eq_ok_iff {ε α β : Type} {f : α → β} {x : Except ε α} {b : β} :
    x.map f = .ok b ↔ ∃ a, x = .ok a ∧ f a = b := by
  cases x with
  | error e =>
      constructor
      · intro h
        cases h
      · rintro ⟨a, h, -⟩
        cases h
  | ok a =>
      constructor
      · intro h
        cases h
        exact ⟨a, rfl, rfl⟩
      · rintro ⟨a', h, rfl⟩
        cases h
        rfl

namespace Channel

/-- Create a message that changes our end. -/
def create (c : Channel) : ChannelRequest → Except ChannelError (ChannelMessage × Channel)
  | .transfer terms now => (c.sendTransfer terms now).map fun r => (.transfer r.1, r.2)
  | .unlock paymentId secret => (c.sendUnlock paymentId secret).map fun r => (.unlock r.1, r.2)
  | .removal secretHash now => (c.sendRemoval secretHash now).map fun r => (.removal r.1, r.2)

/-- Accept a message that changes the partner's end. -/
def accept (c : Channel) (m : ChannelMessage) (now : Height) : Except ChannelError Channel :=
  match m with
  | .transfer m => c.receiveTransfer m now
  | .unlock m => c.receiveUnlock m
  | .removal m => c.receiveRemoval m now

theorem checkProof_eq_none_iff {c : Channel} {sender : ChannelEnd} {p : BalanceProof}
    {expected : Commitment} :
    c.checkProof sender p expected = none ↔
      p.channelId = c.id ∧ p.tokenNetwork = c.tokenNetwork ∧ sender.nonce < p.nonce ∧
      p.transferredAmount = expected.transferredAmount ∧
      p.lockedAmount = expected.lockedAmount ∧ p.locksroot = expected.locksroot := by
  rw [checkProof, ite_some_eq_none_iff, ite_some_eq_none_iff, ite_some_eq_none_iff,
    ite_some_eq_none_iff, ite_some_eq_none_iff, Word.not_le]
  simp only [not_or, Decidable.not_not, and_true, and_assoc]

/-- A receiver that computed its expectation from the old locks finds what
    `Recommits` asks for in terms of the new ones. -/
theorem checkProof_eq_none_iff_recommits {c : Channel} {change : LockChange} {p : BalanceProof}
    {expected : Commitment} (hallowed : change.Allowed c.partner c.ours)
    (ht : expected.transferredAmount.val
      = c.partner.transferredAmount.val + change.claimedAmount)
    (hl : expected.lockedAmount.val = (c.partner.recommit change p).pendingTotal)
    (hr : expected.locksroot = (c.partner.recommit change p).locksroot) :
    c.checkProof c.partner p expected = none ↔
      c.partner.nonce < p.nonce ∧
      c.partner.Recommits c.id c.tokenNetwork c.ours change p := by
  rw [checkProof_eq_none_iff, Word.ext_iff, Word.ext_iff, ht, hl, hr]
  constructor
  · rintro ⟨hid, hnetwork, hnonce, htransferred, hlocked, hroot⟩
    exact ⟨hnonce, hallowed, hid, hnetwork, htransferred, hlocked, hroot⟩
  · rintro ⟨hnonce, h⟩
    exact ⟨h.channelId_eq, h.tokenNetwork_eq, hnonce, h.transferred, h.locked, h.root⟩

theorem receiveTransfer_eq_ok_iff {c c' : Channel} {m : LockedTransfer} {now : Height}
    (hs : c.partner.Sound) :
    c.receiveTransfer m now = .ok c' ↔
      c.isOpen = true ∧ now < m.lock.expiration ∧ c.partner.nonce < m.balanceProof.nonce ∧
      c.partner.Recommits c.id c.tokenNetwork c.ours (.added m.lock) m.balanceProof ∧
      c' = { c with partner := c.partner.recommit (.added m.lock) m.balanceProof } := by
  have hnew : ¬ c.partner.pendingLocks.contains m.lock.secretHash = true ↔
      c.partner.pendingLocks.get? m.lock.secretHash = none := by
    rw [SortedMap.contains, Option.not_isSome_iff_eq_none]
  rw [receiveTransfer, ite_error_eq_ok_iff, ite_error_eq_ok_iff, ite_error_eq_ok_iff, hnew,
    Word.not_le, Bool.not_eq_true', Bool.not_eq_false]
  refine and_congr_right (fun _ => ?_)
  constructor
  -- The channel checks the proof first and the balance last.
  · rintro ⟨hnone, hnow, h⟩
    simp only at h
    split at h
    · cases h
    · rename_i locked hadd
      have hlocked : locked.val
          = (c.partner.recommit (.added m.lock) m.balanceProof).pendingTotal := by
        rw [← Word.add?_eq_some_iff.mp hadd, hs.lockedAmount_add hnone]
        rfl
      split at h
      · cases h
      · rename_i hcheck
        rw [ite_error_eq_ok_iff, Word.not_lt] at h
        have hallowed : (LockChange.added m.lock).Allowed c.partner c.ours := ⟨hnone, h.1⟩
        have hproof := (checkProof_eq_none_iff_recommits hallowed rfl hlocked rfl).mp hcheck
        cases h.2
        exact ⟨hnow, hproof.1, hproof.2, rfl⟩
  · rintro ⟨hnow, hnonce, hrecommits, rfl⟩
    have hnone := hrecommits.allowed.1
    have hadd : c.partner.lockedAmount.add? m.lock.amount = some m.balanceProof.lockedAmount := by
      rw [Word.add?_eq_some_iff, hs.lockedAmount_add hnone, hrecommits.locked]
      rfl
    have hcheck : c.checkProof c.partner m.balanceProof
        ⟨c.partner.transferredAmount, m.balanceProof.lockedAmount, PaymentNetwork.locksroot
          (c.partner.pendingLocks.insert m.lock.secretHash m.lock).values⟩ = none :=
      (checkProof_eq_none_iff_recommits hrecommits.allowed rfl hrecommits.locked rfl).mpr
        ⟨hnonce, hrecommits⟩
    refine ⟨hnone, hnow, ?_⟩
    simp only [hadd, hcheck]
    rw [ite_error_eq_ok_iff]
    exact ⟨Word.not_lt.mpr hrecommits.allowed.2, rfl⟩

theorem receiveUnlock_eq_ok_iff {c c' : Channel} {m : Unlock} (hs : c.partner.Sound) :
    c.receiveUnlock m = .ok c' ↔
      c.isOpen = true ∧ c.partner.nonce < m.balanceProof.nonce ∧
      ∃ l, hashSecret m.secret = l.secretHash ∧
        c.partner.Recommits c.id c.tokenNetwork c.ours (.claimed l) m.balanceProof ∧
        c' = { c with partner := c.partner.recommit (.claimed l) m.balanceProof } := by
  rw [receiveUnlock, ite_error_eq_ok_iff, Bool.not_eq_true', Bool.not_eq_false]
  refine and_congr_right (fun _ => ?_)
  constructor
  · intro h
    simp only at h
    split at h
    · cases h
    · rename_i l hl
      -- The lock is found by the hash of the secret, and speaks of itself by its own.
      have hkey := hs.keyed _ _ hl
      rw [← hkey] at hl h
      split at h
      · cases h
      · rename_i transferred hadd
        split at h
        · cases h
        · rename_i hcheck
          have hallowed : (LockChange.claimed l).Allowed c.partner c.ours := hl
          have hproof := (checkProof_eq_none_iff_recommits hallowed
            (Word.add?_eq_some_iff.mp hadd).symm (hs.val_lockedAmount_sub hl) rfl).mp hcheck
          cases h
          exact ⟨hproof.1, l, hkey.symm, hproof.2, rfl⟩
  · rintro ⟨hnonce, l, hkey, hrecommits, rfl⟩
    have hl : c.partner.pendingLocks.get? l.secretHash = some l := hrecommits.allowed
    have hcheck : c.checkProof c.partner m.balanceProof
        ⟨m.balanceProof.transferredAmount, c.partner.lockedAmount.satSub l.amount,
          PaymentNetwork.locksroot (c.partner.pendingLocks.erase l.secretHash).values⟩ = none :=
      (checkProof_eq_none_iff_recommits hrecommits.allowed hrecommits.transferred
        (hs.val_lockedAmount_sub hl) rfl).mpr ⟨hnonce, hrecommits⟩
    simp only [hkey, hl, Word.add?_eq_some_iff.mpr hrecommits.transferred.symm, hcheck]
    rfl

theorem receiveRemoval_eq_ok_iff {c c' : Channel} {m : LockRemoval} {now : Height}
    (hs : c.partner.Sound) :
    c.receiveRemoval m now = .ok c' ↔
      c.isOpen = true ∧ c.partner.nonce < m.balanceProof.nonce ∧
      ∃ l, m.secretHash = l.secretHash ∧ l.expiration ≤ now ∧
        c.partner.Recommits c.id c.tokenNetwork c.ours (.removed l) m.balanceProof ∧
        c' = { c with partner := c.partner.recommit (.removed l) m.balanceProof } := by
  rw [receiveRemoval, ite_error_eq_ok_iff, Bool.not_eq_true', Bool.not_eq_false]
  refine and_congr_right (fun _ => ?_)
  constructor
  · intro h
    split at h
    · cases h
    · rename_i l hl
      have hkey := hs.keyed _ _ hl
      rw [← hkey] at hl h
      rw [ite_error_eq_ok_iff, Word.not_lt] at h
      rcases h with ⟨hnow, h⟩
      simp only at h
      split at h
      · cases h
      · rename_i hcheck
        have hallowed : (LockChange.removed l).Allowed c.partner c.ours := hl
        have hproof := (checkProof_eq_none_iff_recommits hallowed rfl
          (hs.val_lockedAmount_sub hl) rfl).mp hcheck
        cases h
        exact ⟨hproof.1, l, hkey.symm, hnow, hproof.2, rfl⟩
  · rintro ⟨hnonce, l, hkey, hnow, hrecommits, rfl⟩
    have hl : c.partner.pendingLocks.get? l.secretHash = some l := hrecommits.allowed
    have hcheck : c.checkProof c.partner m.balanceProof
        ⟨c.partner.transferredAmount, c.partner.lockedAmount.satSub l.amount,
          PaymentNetwork.locksroot (c.partner.pendingLocks.erase l.secretHash).values⟩ = none :=
      (checkProof_eq_none_iff_recommits hrecommits.allowed rfl
        (hs.val_lockedAmount_sub hl) rfl).mpr ⟨hnonce, hrecommits⟩
    simp only [hkey, hl, if_neg (Word.not_lt.mpr hnow), hcheck]
    rfl

/-- A message is accepted exactly if it is in time, has a larger nonce, and
    recommits the partner's end by the change that it shows. -/
theorem accept_eq_ok_iff {c c' : Channel} {m : ChannelMessage} {now : Height}
    (hs : c.partner.Sound) :
    c.accept m now = .ok c' ↔
      c.isOpen = true ∧ m.Timely c.partner now ∧ c.partner.nonce < m.balanceProof.nonce ∧
      ∃ change, m.Shows change ∧
        c.partner.Recommits c.id c.tokenNetwork c.ours change m.balanceProof ∧
        c' = { c with partner := c.partner.recommit change m.balanceProof } := by
  cases m with
  | transfer m =>
      rw [accept, receiveTransfer_eq_ok_iff hs]
      refine and_congr_right (fun _ => and_congr_right (fun _ => and_congr_right (fun _ => ?_)))
      constructor
      · rintro ⟨h, rfl⟩
        exact ⟨.added m.lock, rfl, h, rfl⟩
      · rintro ⟨change, hshows, h, rfl⟩
        cases change with
        | added l =>
            -- A message shows one kind of change, so the other two are absurd.
            cases hshows
            exact ⟨h, rfl⟩
        | claimed l => exact hshows.elim
        | removed l => exact hshows.elim
  | unlock m =>
      rw [accept, receiveUnlock_eq_ok_iff hs]
      constructor
      · rintro ⟨hopen, hnonce, l, hkey, h, rfl⟩
        exact ⟨hopen, trivial, hnonce, .claimed l, hkey, h, rfl⟩
      · rintro ⟨hopen, -, hnonce, change, hshows, h, rfl⟩
        cases change with
        | added l => exact hshows.elim
        | claimed l => exact ⟨hopen, hnonce, l, hshows, h, rfl⟩
        | removed l => exact hshows.elim
  | removal m =>
      rw [accept, receiveRemoval_eq_ok_iff hs]
      constructor
      · rintro ⟨hopen, hnonce, l, hkey, hnow, h, rfl⟩
        refine ⟨hopen, ?_, hnonce, .removed l, hkey, h, rfl⟩
        intro l' hl'
        have hl : c.partner.pendingLocks.get? l.secretHash = some l := h.allowed
        rw [hkey, hl, Option.mem_some] at hl'
        rwa [← hl']
      · rintro ⟨hopen, htimely, hnonce, change, hshows, h, rfl⟩
        cases change with
        | added l => exact hshows.elim
        | claimed l => exact hshows.elim
        | removed l =>
            have hkey : m.secretHash = l.secretHash := hshows
            have hl : c.partner.pendingLocks.get? l.secretHash = some l := h.allowed
            exact ⟨hopen, hnonce, l, hkey, htimely l (by rw [hkey]; exact hl), h, rfl⟩

/-- Our balance proof over changed locks says what `Recommits` asks for, if the
    sum of the locks is a word. -/
theorem nextProof_recommits {c : Channel} {change : LockChange} {transferred : Amount}
    {locks : SortedMap SecretHash Lock} (hallowed : change.Allowed c.ours c.partner)
    (hlocks : (c.ours.apply change.toEndChange).pendingLocks = locks)
    (ht : transferred.val = c.ours.transferredAmount.val + change.claimedAmount)
    (hfits : (c.ours.apply change.toEndChange).pendingTotal < 2 ^ 128) :
    c.ours.Recommits c.id c.tokenNetwork c.partner change (c.nextProof transferred locks) where
  allowed := hallowed
  channelId_eq := rfl
  tokenNetwork_eq := rfl
  transferred := ht
  locked := by
    -- What is committed to is the saturating sum, which is not clipped here.
    rw [nextProof, ChannelEnd.recommit_pendingTotal, ChannelEnd.pendingTotal, ← hlocks,
      val_lockedSum]
    unfold ChannelEnd.pendingTotal at hfits
    omega
  root := by
    rw [nextProof, ← hlocks]
    rfl

/-- A lock that is covered leaves the sum of the locks a word. -/
theorem fits_of_le_distributable {e other : ChannelEnd} {l : Lock} (hs : e.Sound)
    (hnone : e.pendingLocks.get? l.secretHash = none)
    (h : l.amount ≤ ChannelEnd.distributable e other) :
    (e.apply (.insertLock l)).pendingTotal < 2 ^ 128 := by
  rw [ChannelEnd.pendingTotal_insertLock hnone]
  rcases Nat.eq_zero_or_pos l.amount.val with hzero | hpos
  -- A lock of no amount needs no cover, and adds nothing.
  · have := hs.fits
    omega
  · have := ChannelEnd.room_of_le_distributable hs h hpos
    omega

/-- An open channel sends a lock on a new hash if we have the amount and there is time left.
    The message and the change of our end say the same. -/
theorem sendTransfer_eq_ok_iff {c c' : Channel} {t : TransferTerms} {now : Height}
    {m : LockedTransfer} :
    c.sendTransfer t now = .ok (m, c') ↔
      c.isOpen = true ∧ c.ours.pendingLocks.get? t.secretHash = none ∧ now < t.expiration ∧
      t.amount ≤ c.ourDistributable ∧
      m = ⟨t.paymentId, t.initiator, t.target, c.ours.address, c.partner.address, t.lock,
        c.nextProof c.ours.transferredAmount
          (c.ours.pendingLocks.insert t.secretHash t.lock)⟩ ∧
      c' = { c with ours := c.ours.recommit (.added t.lock) m.balanceProof } := by
  rw [sendTransfer, ite_error_eq_ok_iff, ite_error_eq_ok_iff, ite_error_eq_ok_iff,
    ite_error_eq_ok_iff, Word.not_lt, Word.not_le, Bool.not_eq_true', Bool.not_eq_false,
    SortedMap.contains, Option.not_isSome_iff_eq_none]
  constructor
  · rintro ⟨hopen, hnone, hnow, hroom, heq⟩
    cases heq
    exact ⟨hopen, hnone, hnow, hroom, rfl, rfl⟩
  · rintro ⟨hopen, hnone, hnow, hroom, rfl, rfl⟩
    exact ⟨hopen, hnone, hnow, hroom, rfl⟩

theorem sendTransfer_spec {c c' : Channel} {t : TransferTerms} {now : Height}
    {m : LockedTransfer} (hs : c.ours.Sound) (h : c.sendTransfer t now = .ok (m, c')) :
    c.isOpen = true ∧ m.balanceProof.nonce = c.ours.nonce.succWrap ∧ m.lock = t.lock ∧
    c.ours.Recommits c.id c.tokenNetwork c.partner (.added t.lock) m.balanceProof ∧
    c' = { c with ours := c.ours.recommit (.added t.lock) m.balanceProof } := by
  obtain ⟨hopen, hnone, -, hroom, rfl, rfl⟩ := sendTransfer_eq_ok_iff.mp h
  have hallowed : (LockChange.added t.lock).Allowed c.ours c.partner := ⟨hnone, hroom⟩
  exact ⟨hopen, rfl, rfl, nextProof_recommits hallowed rfl rfl
    (fits_of_le_distributable hs hnone hroom), rfl⟩

theorem sendUnlock_spec {c c' : Channel} {paymentId : PaymentId} {secret : Secret} {m : Unlock}
    (hs : c.ours.Sound) (h : c.sendUnlock paymentId secret = .ok (m, c')) :
    c.isOpen = true ∧ m.balanceProof.nonce = c.ours.nonce.succWrap ∧ m.secret = secret ∧
    ∃ l, hashSecret secret = l.secretHash ∧
      c.ours.Recommits c.id c.tokenNetwork c.partner (.claimed l) m.balanceProof ∧
      c' = { c with ours := c.ours.recommit (.claimed l) m.balanceProof } := by
  rw [sendUnlock, ite_error_eq_ok_iff, Bool.not_eq_true', Bool.not_eq_false] at h
  rcases h with ⟨hopen, h⟩
  simp only at h
  split at h
  · cases h
  · rename_i l hl
    have hkey := hs.keyed _ _ hl
    rw [← hkey] at hl h
    split at h
    · cases h
    · rename_i transferred hadd
      have hallowed : (LockChange.claimed l).Allowed c.ours c.partner := hl
      cases h
      exact ⟨hopen, rfl, rfl, l, hkey.symm, nextProof_recommits hallowed rfl
        (Word.add?_eq_some_iff.mp hadd).symm (hs.removeLock l.secretHash).fits, rfl⟩

theorem sendRemoval_spec {c c' : Channel} {secretHash : SecretHash} {now : Height}
    {m : LockRemoval} (hs : c.ours.Sound) (h : c.sendRemoval secretHash now = .ok (m, c')) :
    c.isOpen = true ∧ m.balanceProof.nonce = c.ours.nonce.succWrap ∧ m.secretHash = secretHash ∧
    ∃ l, secretHash = l.secretHash ∧ l.expiration ≤ now ∧
      c.ours.Recommits c.id c.tokenNetwork c.partner (.removed l) m.balanceProof ∧
      c' = { c with ours := c.ours.recommit (.removed l) m.balanceProof } := by
  rw [sendRemoval, ite_error_eq_ok_iff, Bool.not_eq_true', Bool.not_eq_false] at h
  rcases h with ⟨hopen, h⟩
  split at h
  · cases h
  · rename_i l hl
    have hkey := hs.keyed _ _ hl
    subst hkey
    rw [ite_error_eq_ok_iff, Word.not_lt] at h
    rcases h with ⟨hnow, h⟩
    have hallowed : (LockChange.removed l).Allowed c.ours c.partner := hl
    cases h
    exact ⟨hopen, rfl, rfl, l, rfl, hnow, nextProof_recommits hallowed rfl rfl
      (hs.removeLock l.secretHash).fits, rfl⟩

/-- What a created message does to our end: it recommits it by a change that the
    request asks for and the message shows, with the next nonce. -/
theorem create_spec {c c' : Channel} {r : ChannelRequest} {m : ChannelMessage}
    (hs : c.ours.Sound) (h : c.create r = .ok (m, c')) :
    c.isOpen = true ∧ m.balanceProof.nonce = c.ours.nonce.succWrap ∧
    ∃ change, r.Shows change ∧ m.Shows change ∧
      c.ours.Recommits c.id c.tokenNetwork c.partner change m.balanceProof ∧
      c' = { c with ours := c.ours.recommit change m.balanceProof } := by
  cases r with
  | transfer t now =>
      rw [create, map_eq_ok_iff] at h
      rcases h with ⟨x, hsend, heq⟩
      cases heq
      rcases sendTransfer_spec hs hsend with ⟨hopen, hnonce, hlock, hrecommits, hc⟩
      exact ⟨hopen, hnonce, .added t.lock, rfl, hlock, hrecommits, hc⟩
  | unlock paymentId secret =>
      rw [create, map_eq_ok_iff] at h
      rcases h with ⟨x, hsend, heq⟩
      cases heq
      rcases sendUnlock_spec hs hsend with ⟨hopen, hnonce, hsecret, l, hkey, hrecommits, hc⟩
      refine ⟨hopen, hnonce, .claimed l, hkey, ?_, hrecommits, hc⟩
      -- The secret that was asked for is the one that the message shows.
      rw [← hsecret] at hkey
      exact hkey
  | removal secretHash now =>
      rw [create, map_eq_ok_iff] at h
      rcases h with ⟨x, hsend, heq⟩
      cases heq
      rcases sendRemoval_spec hs hsend with ⟨hopen, hnonce, hhash, l, hkey, -, hrecommits, hc⟩
      exact ⟨hopen, hnonce, .removed l, hkey, hhash.trans hkey, hrecommits, hc⟩

end Channel

end PaymentNetwork

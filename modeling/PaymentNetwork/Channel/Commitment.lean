import PaymentNetwork.Channel.Basic

/-!
# Changing What a Channel Commits To

The six operations that put a new balance proof on one end of a channel: a
lock is added, unlocked, or removed after it expired, by us or by the partner.

For an operation of the partner we compute on our own what its balance proof
has to say, and refuse the message unless it says exactly that with a larger
nonce. For an operation of ours the proof is made from the same computation,
with the next nonce. A refused operation leaves the channel as it was, which
the types express: the new channel is only there on success.

Where two things are wrong with an operation, the error is that of the check
that comes first. The order of checks is part of the rule: the channel is open,
the lock is known or new, the block suits, the sums fit, the proof matches, the
balance suffices.

## Main definitions

* `ChannelError`: Why an operation is refused.
* `Channel.checkProof`: The rule that a balance proof of the partner must meet.
* `Channel.receiveTransfer`, `Channel.receiveUnlock`, `Channel.receiveRemoval`:
  Operations of the partner.
* `Channel.sendTransfer`, `Channel.sendUnlock`, `Channel.sendRemoval`:
  Operations of ours, with the message to send.
-/

namespace PaymentNetwork

/-- Why an operation on a channel is refused. -/
inductive ChannelError where
  | channelNotOpen
  | wrongChannel
  | nonceNotIncreasing (previous received : Nonce)
  | duplicateSecretHash
  | unknownLock
  | lockExpired
  | lockNotExpired
  | transferredAmountMismatch
  | lockedAmountMismatch
  | locksrootMismatch
  | insufficientBalance
  | amountOverflow
deriving DecidableEq

namespace ChannelError

/-- The name of the error. -/
def name : ChannelError → String
  | channelNotOpen => "ChannelNotOpen"
  | wrongChannel => "WrongChannel"
  | nonceNotIncreasing .. => "NonceNotIncreasing"
  | duplicateSecretHash => "DuplicateSecretHash"
  | unknownLock => "UnknownLock"
  | lockExpired => "LockExpired"
  | lockNotExpired => "LockNotExpired"
  | transferredAmountMismatch => "TransferredAmountMismatch"
  | lockedAmountMismatch => "LockedAmountMismatch"
  | locksrootMismatch => "LocksrootMismatch"
  | insufficientBalance => "InsufficientBalance"
  | amountOverflow => "AmountOverflow"

/-- The error as notices and refusals quote it: its name, and what it holds. -/
def describe (e : ChannelError) : String :=
  match e with
  | nonceNotIncreasing previous received =>
    e.name ++ " \x7b previous: " ++ previous.toText ++ ", received: " ++ received.toText ++ " \x7d"
  | _ => e.name

end ChannelError

/-- What a balance proof has to say of the end it belongs to. -/
structure Commitment where
  transferredAmount : Amount
  lockedAmount : Amount
  locksroot : Locksroot
deriving DecidableEq

namespace Channel

/-- What is wrong with a balance proof of `sender` that should say `expected`,
    if anything. -/
def checkProof (c : Channel) (sender : ChannelEnd) (p : BalanceProof) (expected : Commitment) :
    Option ChannelError :=
  if p.channelId ≠ c.id ∨ p.tokenNetwork ≠ c.tokenNetwork then some .wrongChannel
  else if p.nonce ≤ sender.nonce then some (.nonceNotIncreasing sender.nonce p.nonce)
  else if p.transferredAmount ≠ expected.transferredAmount then some .transferredAmountMismatch
  else if p.lockedAmount ≠ expected.lockedAmount then some .lockedAmountMismatch
  else if p.locksroot ≠ expected.locksroot then some .locksrootMismatch
  else none

/-- The partner offers us a lock. -/
def receiveTransfer (c : Channel) (m : LockedTransfer) (now : Height) :
    Except ChannelError Channel :=
  if !c.isOpen then .error .channelNotOpen
  else if c.partner.pendingLocks.contains m.lock.secretHash then .error .duplicateSecretHash
  else if m.lock.expiration ≤ now then .error .lockExpired
  else
    match c.partner.lockedAmount.add? m.lock.amount with
    | none => .error .amountOverflow
    | some locked =>
      let locks := c.partner.pendingLocks.insert m.lock.secretHash m.lock
      let expected := ⟨c.partner.transferredAmount, locked, PaymentNetwork.locksroot locks.values⟩
      match c.checkProof c.partner m.balanceProof expected with
      | some e => .error e
      | none =>
        -- The funds are looked at last, when the proof is known to be good.
        if c.partnerDistributable < m.lock.amount then .error .insufficientBalance
        else .ok ((c.applyAt .partner (.insertLock m.lock)).applyAt .partner
          (.proof m.balanceProof))

/-- The partner turns a lock of its own into a transferred amount. -/
def receiveUnlock (c : Channel) (m : Unlock) : Except ChannelError Channel :=
  if !c.isOpen then .error .channelNotOpen
  else
    let secretHash := hashSecret m.secret
    match c.partner.pendingLocks.get? secretHash with
    | none => .error .unknownLock
    | some lock =>
      match c.partner.transferredAmount.add? lock.amount with
      | none => .error .amountOverflow
      | some transferred =>
        let locks := c.partner.pendingLocks.erase secretHash
        let expected := ⟨transferred, c.partner.lockedAmount.satSub lock.amount,
          PaymentNetwork.locksroot locks.values⟩
        match c.checkProof c.partner m.balanceProof expected with
        | some e => .error e
        | none =>
          .ok ((c.applyAt .partner (.removeLock secretHash)).applyAt .partner
            (.proof m.balanceProof))

/-- The partner takes back a lock of its own that expired. -/
def receiveRemoval (c : Channel) (m : LockRemoval) (now : Height) :
    Except ChannelError Channel :=
  if !c.isOpen then .error .channelNotOpen
  else
    match c.partner.pendingLocks.get? m.secretHash with
    | none => .error .unknownLock
    | some lock =>
      if now < lock.expiration then .error .lockNotExpired
      else
        let locks := c.partner.pendingLocks.erase m.secretHash
        let expected := ⟨c.partner.transferredAmount, c.partner.lockedAmount.satSub lock.amount,
          PaymentNetwork.locksroot locks.values⟩
        match c.checkProof c.partner m.balanceProof expected with
        | some e => .error e
        | none =>
          .ok ((c.applyAt .partner (.removeLock m.secretHash)).applyAt .partner
            (.proof m.balanceProof))

/-- The next balance proof of ours, over the given pending locks. -/
def nextProof (c : Channel) (transferredAmount : Amount) (locks : SortedMap SecretHash Lock) :
    BalanceProof where
  tokenNetwork := c.tokenNetwork
  channelId := c.id
  nonce := c.ours.nonce.succWrap
  transferredAmount := transferredAmount
  lockedAmount := lockedSum locks.values
  locksroot := PaymentNetwork.locksroot locks.values

/-- Lock an amount of ours for the partner. -/
def sendTransfer (c : Channel) (t : TransferTerms) (now : Height) :
    Except ChannelError (LockedTransfer × Channel) :=
  if !c.isOpen then .error .channelNotOpen
  else if c.ours.pendingLocks.contains t.secretHash then .error .duplicateSecretHash
  else if t.expiration ≤ now then .error .lockExpired
  else if c.ourDistributable < t.amount then .error .insufficientBalance
  else
    let proof := c.nextProof c.ours.transferredAmount
      (c.ours.pendingLocks.insert t.secretHash t.lock)
    .ok (
      { paymentId := t.paymentId
        initiator := t.initiator
        target := t.target
        sender := c.ours.address
        recipient := c.partner.address
        lock := t.lock
        balanceProof := proof },
      (c.applyAt .ours (.insertLock t.lock)).applyAt .ours (.proof proof))

/-- Turn a lock of ours into a transferred amount. -/
def sendUnlock (c : Channel) (paymentId : PaymentId) (secret : Secret) :
    Except ChannelError (Unlock × Channel) :=
  if !c.isOpen then .error .channelNotOpen
  else
    let secretHash := hashSecret secret
    match c.ours.pendingLocks.get? secretHash with
    | none => .error .unknownLock
    | some lock =>
      match c.ours.transferredAmount.add? lock.amount with
      | none => .error .amountOverflow
      | some transferred =>
        let proof := c.nextProof transferred (c.ours.pendingLocks.erase secretHash)
        .ok (⟨paymentId, secret, proof⟩,
          (c.applyAt .ours (.removeLock secretHash)).applyAt .ours (.proof proof))

/-- Take back a lock of ours that expired. -/
def sendRemoval (c : Channel) (secretHash : SecretHash) (now : Height) :
    Except ChannelError (LockRemoval × Channel) :=
  if !c.isOpen then .error .channelNotOpen
  else
    match c.ours.pendingLocks.get? secretHash with
    | none => .error .unknownLock
    | some lock =>
      if now < lock.expiration then .error .lockNotExpired
      else
        let proof := c.nextProof c.ours.transferredAmount (c.ours.pendingLocks.erase secretHash)
        .ok (⟨secretHash, proof⟩,
          (c.applyAt .ours (.removeLock secretHash)).applyAt .ours (.proof proof))

end Channel

end PaymentNetwork

import PaymentNetwork.Lock

/-!
# Messages Between Nodes

What two nodes tell each other about a transfer.

A locked transfer offers a lock to the next hop. The target asks the initiator
for the secret, and the secret travels back along the route. Each hop then
turns its lock into a transferred amount with an unlock, or takes an expired
lock back with a removal, or gives a lock up with a disposal. Locked transfers,
unlocks and removals change what the sender of a channel direction is committed
to, so each of them carries a new balance proof.

## Main definitions

* `BalanceProof`: What the sender of a channel direction is committed to.
* `TransferTerms`: A transfer as one node of the route sees it.
* `Message`: The six messages.
* `TransferTerms.ofMessage`: The terms that the receiver of a locked transfer
  sees.
-/

namespace PaymentNetwork

/-- The commitment of the sender of a channel direction: all it ever
    transferred, and the locks that are pending. -/
structure BalanceProof where
  tokenNetwork : Address
  channelId : ChannelId
  nonce : Nonce
  transferredAmount : Amount
  lockedAmount : Amount
  locksroot : Locksroot
deriving DecidableEq

/-- The offer of a lock to the next hop. -/
structure LockedTransfer where
  paymentId : PaymentId
  initiator : Address
  target : Address
  sender : Address
  recipient : Address
  lock : Lock
  balanceProof : BalanceProof
deriving DecidableEq

/-- The target asks the initiator for the secret of a lock. -/
structure SecretRequest where
  paymentId : PaymentId
  secretHash : SecretHash
  amount : Amount
deriving DecidableEq

/-- A secret, told to a neighbour on the route. -/
structure SecretReveal where
  secret : Secret
deriving DecidableEq

/-- The amount of a lock whose secret is known becomes a transferred amount. -/
structure Unlock where
  paymentId : PaymentId
  secret : Secret
  balanceProof : BalanceProof
deriving DecidableEq

/-- An expired lock is taken back. -/
structure LockRemoval where
  secretHash : SecretHash
  balanceProof : BalanceProof
deriving DecidableEq

/-- The receiver of a lock gives it up and will never claim it. -/
structure Disposal where
  channelId : ChannelId
  lock : Lock
deriving DecidableEq

/-- A message from one node to another. -/
inductive Message where
  | lockedTransfer (m : LockedTransfer)
  | secretRequest (m : SecretRequest)
  | secretReveal (m : SecretReveal)
  | unlock (m : Unlock)
  | lockRemoval (m : LockRemoval)
  | disposal (m : Disposal)
deriving DecidableEq

/-- A transfer as one node of the route sees it. Only the initiator knows the
    secret from the start. -/
structure TransferTerms where
  paymentId : PaymentId
  tokenNetwork : Address
  amount : Amount
  initiator : Address
  target : Address
  expiration : Height
  secretHash : SecretHash
  secret? : Option Secret
deriving DecidableEq

namespace TransferTerms

/-- The lock that carries the transfer. -/
def lock (t : TransferTerms) : Lock := ⟨t.amount, t.expiration, t.secretHash⟩

/-- The terms that the receiver of a locked transfer sees. -/
def ofMessage (m : LockedTransfer) : TransferTerms where
  paymentId := m.paymentId
  tokenNetwork := m.balanceProof.tokenNetwork
  amount := m.lock.amount
  initiator := m.initiator
  target := m.target
  expiration := m.lock.expiration
  secretHash := m.lock.secretHash
  secret? := none

end TransferTerms

end PaymentNetwork

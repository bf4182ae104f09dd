import PaymentNetwork.Chain.Event
import PaymentNetwork.Report
import PaymentNetwork.Route

/-!
# What Transfers React To and Ask For

The closed sets of facts that reach a transfer and of effects that it has.

A transfer is a pure machine. It never looks at a channel, a clock or a peer:
whatever it has to know arrives as an `Input`, and whatever has to happen
because of it leaves as an `Effect`. Messages are asked for without their
balance proofs, which only the channel can make.

## Main definitions

* `StartInitiator`, `StartMediator`, `StartTarget`: How a transfer begins, for
  each of the three parts a node can play.
* `Input`: A fact that reaches a transfer.
* `Effect`: Something that a transfer asks for.
* `Effect.lockedTransfers`: How many locked transfers are asked for.

## Theorems

* `Effect.lockedTransfers_cons`, `Effect.lockedTransfers_append`: Counting them
  piece by piece.
-/

namespace PaymentNetwork

/-- We were asked to pay. The terms hold the secret. -/
structure StartInitiator where
  ourAddress : Address
  terms : TransferTerms
  candidates : List Route
deriving DecidableEq

/-- A locked transfer arrived that we have to pass on. -/
structure StartMediator where
  ourAddress : Address
  /-- The channel it arrived on. -/
  payerRoute : Route
  message : LockedTransfer
  candidates : List Route
deriving DecidableEq

/-- A locked transfer arrived whose target we are. -/
structure StartTarget where
  ourAddress : Address
  /-- The channel it arrived on. -/
  payerRoute : Route
  message : LockedTransfer
deriving DecidableEq

/-- The channel of a route refused to carry the lock. -/
structure RouteRefusal where
  secretHash : SecretHash
  channelId : ChannelId
  reason : String
deriving DecidableEq

/-- A peer asked for the secret of a payment. -/
structure SecretRequested where
  sender : Address
  paymentId : PaymentId
  amount : Amount
  secretHash : SecretHash
deriving DecidableEq

/-- A peer told us a secret. -/
structure SecretRevealed where
  sender : Address
  secret : Secret
  /-- The hash of the secret, computed on arrival. -/
  secretHash : SecretHash
deriving DecidableEq

/-- A peer gave up a lock of ours. -/
structure LockDisposed where
  sender : Address
  channelId : ChannelId
  lock : Lock
deriving DecidableEq

/-- The message by which a peer changed its end of a channel. -/
inductive ProofMessage where
  | unlock (m : Unlock)
  | removal (m : LockRemoval)
deriving DecidableEq

/-- A peer changed its end of a channel. -/
structure ProofReceived where
  sender : Address
  /-- The lock that the change is about. -/
  secretHash : SecretHash
  message : ProofMessage
deriving DecidableEq

/-- A fact that reaches a transfer. -/
inductive Input where
  | block (number : Height)
  | startInitiator (start : StartInitiator)
  | startMediator (start : StartMediator)
  | startTarget (start : StartTarget)
  | routeRefused (refusal : RouteRefusal)
  | secretRequested (request : SecretRequested)
  | secretRevealed (reveal : SecretRevealed)
  | lockDisposed (disposed : LockDisposed)
  | proofReceived (proof : ProofReceived)
  | chain (event : ChainEvent)
deriving DecidableEq

namespace Input

/-- The block that the fact speaks of: that of a ledger event, or the new
    one. -/
def block? : Input → Option Height
  | block number => some number
  | chain event => some event.block
  | _ => none

end Input

/-- Something that a transfer asks for. -/
inductive Effect where
  | sendLockedTransfer (recipient : Address) (channelId : ChannelId) (terms : TransferTerms)
  | sendSecretRequest (recipient : Address) (paymentId : PaymentId) (amount : Amount)
      (secretHash : SecretHash)
  | sendSecretReveal (recipient : Address) (secret : Secret)
  | sendUnlock (recipient : Address) (channelId : ChannelId) (paymentId : PaymentId)
      (secret : Secret) (secretHash : SecretHash)
  | sendLockRemoval (recipient : Address) (channelId : ChannelId) (secretHash : SecretHash)
  | sendDisposal (recipient : Address) (channelId : ChannelId) (lock : Lock)
  | call (c : ChainCall)
  | sentSuccess (paymentId : PaymentId) (tokenNetwork target : Address) (amount : Amount)
      (secretHash : SecretHash)
  | sentFailed (paymentId : PaymentId) (tokenNetwork target : Address) (amount : Amount)
      (secretHash : SecretHash) (status : TransferStatus) (reason : String)
  | receivedSuccess (paymentId : PaymentId) (tokenNetwork initiator : Address) (amount : Amount)
      (secretHash : SecretHash)
  | unlockSuccess (paymentId : PaymentId) (secretHash : SecretHash)
  | unlockFailed (paymentId : PaymentId) (secretHash : SecretHash) (reason : String)
  | notice (level : NoticeLevel) (info : String)
deriving DecidableEq

namespace Effect

/-- Is the effect a locked transfer to be sent? -/
def isLockedTransfer : Effect → Bool
  | sendLockedTransfer .. => true
  | _ => false

/-- The number of locked transfers to be sent among some effects. -/
def lockedTransfers (effects : List Effect) : Nat := effects.countP isLockedTransfer

theorem lockedTransfers_cons (e : Effect) (es : List Effect) :
    lockedTransfers (e :: es) = lockedTransfers es + if e.isLockedTransfer then 1 else 0 := by
  rw [lockedTransfers, List.countP_cons, ← lockedTransfers]

theorem lockedTransfers_append (es fs : List Effect) :
    lockedTransfers (es ++ fs) = lockedTransfers es + lockedTransfers fs :=
  List.countP_append

end Effect

end PaymentNetwork

import PaymentNetwork.Message
import PaymentNetwork.Route

/-!
# Payment Channels

A channel between us and a partner, as we see it.

Either end holds what its owner deposited and withdrew on the ledger, the
latest balance proof its owner sent, and the locks its owner sent that are
still pending. What an end owns is its deposit and what the other end
transferred to it, less what it withdrew and transferred itself. What it can
still lock is that amount less its pending locks. Every sum saturates, so a
balance is always defined, whatever the two ends claim.

## Main definitions

* `ChannelEnd`: The state of one participant.
* `Channel`: The state of both, and of the channel on the ledger.
* `ChannelEnd.balance`, `ChannelEnd.distributable`: What an end owns and can
  lock.
* `Channel.route`: The channel as the next hop of a payment.

## Theorems

* `ChannelEnd.val_balance`: The balance, over plain numbers.
-/

namespace PaymentNetwork

-- Powers are those of the core library, whichever other instance is in scope.
attribute [local instance (high)] instPowNat

/-- What the ledger knows of a channel. -/
inductive ChannelStatus where
  | opened
  | closed (block : Height)
  | settled (block : Height)
deriving DecidableEq

/-- The state of one participant of a channel. -/
structure ChannelEnd where
  address : Address
  /-- All that was deposited on the ledger. -/
  contractBalance : Amount
  /-- All that was withdrawn on the ledger. -/
  withdrawn : Amount
  /-- The latest balance proof of this participant. -/
  proof? : Option BalanceProof
  /-- The locks of this participant that were neither unlocked nor removed. -/
  pendingLocks : SortedMap SecretHash Lock
deriving DecidableEq

/-- A single change of the state of a participant. -/
inductive EndChange where
  | contractBalance (amount : Amount)
  | withdrawn (amount : Amount)
  | proof (p : BalanceProof)
  | insertLock (l : Lock)
  | removeLock (secretHash : SecretHash)
deriving DecidableEq

/-- The sum of the amounts of some locks. -/
def lockedSum (locks : List Lock) : Amount :=
  locks.foldl (fun acc l => acc.satAdd l.amount) 0

namespace ChannelEnd

/-- A participant that did nothing yet. -/
def fresh (address : Address) : ChannelEnd where
  address := address
  contractBalance := 0
  withdrawn := 0
  proof? := none
  pendingLocks := SortedMap.empty

/-- The nonce of the latest balance proof, zero before the first one. -/
def nonce (e : ChannelEnd) : Nonce :=
  match e.proof? with
  | some p => p.nonce
  | none => 0

/-- All that the participant ever transferred. -/
def transferredAmount (e : ChannelEnd) : Amount :=
  match e.proof? with
  | some p => p.transferredAmount
  | none => 0

/-- The sum of the pending locks. -/
def lockedAmount (e : ChannelEnd) : Amount := lockedSum e.pendingLocks.values

/-- The root over the pending locks. -/
def locksroot (e : ChannelEnd) : Locksroot := PaymentNetwork.locksroot e.pendingLocks.values

/-- Carry out a change. -/
def apply (e : ChannelEnd) : EndChange → ChannelEnd
  | .contractBalance a => { e with contractBalance := a }
  | .withdrawn a => { e with withdrawn := a }
  | .proof p => { e with proof? := some p }
  | .insertLock l => { e with pendingLocks := e.pendingLocks.insert l.secretHash l }
  | .removeLock h => { e with pendingLocks := e.pendingLocks.erase h }

/-- What `sender` owns in a channel with `receiver`, pending locks included. -/
def balance (sender receiver : ChannelEnd) : Amount :=
  (sender.contractBalance.satAdd receiver.transferredAmount).satSub
    (sender.withdrawn.satAdd sender.transferredAmount)

/-- What `sender` can still lock for `receiver`. -/
def distributable (sender receiver : ChannelEnd) : Amount :=
  (balance sender receiver).satSub sender.lockedAmount

theorem val_balance (sender receiver : ChannelEnd) :
    (balance sender receiver).val =
      min (sender.contractBalance.val + receiver.transferredAmount.val) (2 ^ (128 : Nat) - 1)
        - min (sender.withdrawn.val + sender.transferredAmount.val) (2 ^ (128 : Nat) - 1) := rfl

end ChannelEnd

/-- One of the two ends of a channel. -/
inductive Side where
  | ours
  | partner
deriving DecidableEq

/-- A channel between us and a partner. -/
structure Channel where
  id : ChannelId
  tokenNetwork : Address
  ours : ChannelEnd
  partner : ChannelEnd
  revealTimeout : Height
  settleTimeout : Height
  openedBlock : Height
  status : ChannelStatus
deriving DecidableEq

namespace Channel

/-- A channel that was just opened. -/
def fresh (id : ChannelId) (tokenNetwork ourAddress partnerAddress : Address)
    (revealTimeout settleTimeout openedBlock : Height) : Channel where
  id := id
  tokenNetwork := tokenNetwork
  ours := ChannelEnd.fresh ourAddress
  partner := ChannelEnd.fresh partnerAddress
  revealTimeout := revealTimeout
  settleTimeout := settleTimeout
  openedBlock := openedBlock
  status := .opened

/-- May the channel still carry transfers? -/
def isOpen (c : Channel) : Bool := decide (c.status = .opened)

/-- Is the dispute about the channel over? -/
def isSettled (c : Channel) : Bool :=
  match c.status with
  | .settled _ => true
  | _ => false

/-- The block at which the channel was closed or settled, if it was. -/
def closedBlock? (c : Channel) : Option Height :=
  match c.status with
  | .opened => none
  | .closed b => some b
  | .settled b => some b

/-- What we can still lock for the partner. -/
def ourDistributable (c : Channel) : Amount := ChannelEnd.distributable c.ours c.partner

/-- What the partner can still lock for us. -/
def partnerDistributable (c : Channel) : Amount := ChannelEnd.distributable c.partner c.ours

/-- Did the partner ever send us anything? -/
def hasReceivedTransfers (c : Channel) : Bool := c.partner.proof?.isSome

/-- The channel as the next hop of a payment. -/
def route (c : Channel) : Route where
  node := c.partner.address
  channelId := c.id
  availableBalance := c.ourDistributable
  revealTimeout := c.revealTimeout
  settleTimeout := c.settleTimeout
  closedBlock? := c.closedBlock?

/-- Carry out a change of one end. -/
def applyAt (c : Channel) : Side → EndChange → Channel
  | .ours, change => { c with ours := c.ours.apply change }
  | .partner, change => { c with partner := c.partner.apply change }

end Channel

end PaymentNetwork

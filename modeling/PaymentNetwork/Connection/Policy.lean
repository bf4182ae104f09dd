import PaymentNetwork.Connection.Share
import PaymentNetwork.NetworkView

/-!
# Funding a Token Network

How many channels a node wants in a token network, with whom, and how much goes
into each of them.

The policy is set when the node joins a network: the funds to spend, the number
of channels to aim at, and the fraction of the funds to keep for channels that
others open. Everything else follows from the policy and from the channels in
view.

## Main definitions

* `ConnectionSettings`: What stays the same for a token network.
* `Policy`: What the node that joins decides.
* `Policy.perPartner`: What goes into one channel.
* `ConnectionSettings.newPartners`: Who a channel could be opened with.
* `ConnectionSettings.minSettleBlocks?`: How long leaving takes at least.
-/

namespace PaymentNetwork

/-- What stays the same as long as a node deals with a token network. -/
structure ConnectionSettings where
  tokenNetwork : Address
  ourAddress : Address
  /-- The partner that stands in for a network without participants. -/
  bootstrapAddress : Address
  settleTimeout : Height
  /-- Ticks between two looks at channels that are to be settled. -/
  settlePollTicks : Count
  /-- Ticks between two looks for a channel that was opened. -/
  openPollTicks : Count
  /-- How often to wait for a channel that was opened. -/
  openMaxPolls : Count

/-- What the node that joins a network decides. -/
structure Policy where
  funds : Amount
  channelTarget : Count
  /-- The fraction of the funds that is kept for channels opened by others. -/
  reserve : Float

namespace Policy

/-- The policy of a node that did not join. -/
def empty : Policy := ⟨0, 0, 0.0⟩

instance : Inhabited Policy := ⟨empty⟩

/-- What goes into one channel. -/
def perPartner (p : Policy) : Amount := (fractionShare p.funds p.reserve p.channelTarget).getD 0

/-- Are these arguments that a node can join with? -/
def isValid (p : Policy) : Bool :=
  decide (p.funds ≠ 0) && decide (p.channelTarget ≠ 0) && isFraction p.reserve

end Policy

namespace ConnectionSettings

variable (s : ConnectionSettings) (view : NetworkView)

/-- All that we deposited into open channels. -/
def sumDeposits : Amount :=
  (view.openChannels s.tokenNetwork).foldl (fun acc c => acc.satAdd c.ours.contractBalance) 0

/-- The funds that are not in open channels. -/
def fundsRemaining (p : Policy) : Amount := p.funds.satSub (s.sumDeposits view)

/-- Does the policy ask for more channels? -/
def wantsMoreChannels (p : Policy) : Bool :=
  decide (s.fundsRemaining view p ≠ 0) && !view.isBlocked s.tokenNetwork
    && decide ((view.openChannels s.tokenNetwork).length < p.channelTarget.val)

/-- The open channels over which a partner sent us something. -/
def receivingChannels : List Channel :=
  (view.openChannels s.tokenNetwork).filter Channel.hasReceivedTransfers

/-- Could a channel with this participant be opened? It is neither us nor the
    stand-in, and has no open channel with us. -/
def isEligible (participant : Address) : Bool :=
  decide (participant ≠ s.ourAddress) && decide (participant ≠ s.bootstrapAddress)
    && match view.channelByPartner? s.tokenNetwork participant with
      | some c => !c.isOpen
      | none => true

/-- Up to `number` participants that a channel could be opened with. -/
def newPartners (number : Nat) : List Address :=
  ((view.participants s.tokenNetwork).filter (s.isEligible view)).take number

/-- The number of channels that are missing. -/
def missing (p : Policy) : Nat :=
  p.channelTarget.val - (view.openChannels s.tokenNetwork).length

/-- The blocks until a channel can be settled if it is closed now, unless the sum
    exceeds all heights. Closing takes a block. -/
def settleBlocks? (block : Height) (c : Channel) : Option Height :=
  match c.closedBlock? with
  | some closed => some (c.settleTimeout.satSub (block.satSub closed))
  | none => c.settleTimeout.add? 1

/-- The blocks until every channel that received something can be settled, unless
    a sum exceeds all heights. -/
def minSettleBlocks? (block : Height) : Option Height := do
  let concerned := (view.channels s.tokenNetwork).filter fun c =>
    c.hasReceivedTransfers && !c.isSettled
  let waits ← concerned.mapM (settleBlocks? block)
  return waits.foldl Word.max 0

end ConnectionSettings

end PaymentNetwork

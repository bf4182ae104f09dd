import PaymentNetwork.Channel.Commitment
import PaymentNetwork.Channel.OnChain

/-!
# The Networks a Node Sees

The token networks a node knows, with their participants and with the channels
that the node itself takes part in.

The view grows by ledger events alone. An opening teaches two participants, and
a channel if one of them is us. From then on the events of a channel find it by
its identifier, whatever network they name. The latest channel with every
partner is remembered, so that a channel can be found by its partner too.

All lists are in key order: participants by address, channels and routes by
identifier.

## Main definitions

* `TokenNetwork`: One token network.
* `NetworkView`: All of them, and where each channel is found.
* `NetworkView.apply`: The view after an event.
* `NetworkView.withChannel`: Carry out an operation on one channel.
* `NetworkView.withPartnerChannel`: The same, if the partner is the right one.
-/

namespace PaymentNetwork

/-- One token network. -/
structure TokenNetwork where
  participants : SortedMap Address Unit
  channels : SortedMap ChannelId Channel
  /-- Our latest channel with every partner. -/
  partnerChannels : SortedMap Address ChannelId
  /-- Is automatic connection switched off? -/
  blocked : Bool

namespace TokenNetwork

/-- A token network of which nothing is known. -/
def fresh : TokenNetwork := ⟨.empty, .empty, .empty, false⟩

instance : Inhabited TokenNetwork := ⟨fresh⟩

end TokenNetwork

/-- The token networks that a node sees. -/
structure NetworkView where
  ourAddress : Address
  revealTimeout : Height
  networks : SortedMap Address TokenNetwork
  /-- The token network of every channel of ours. -/
  channelNetworks : SortedMap ChannelId Address

namespace NetworkView

/-- The view of a node that saw nothing yet. -/
def fresh (ourAddress : Address) (revealTimeout : Height) : NetworkView :=
  ⟨ourAddress, revealTimeout, .empty, .empty⟩

instance : Inhabited NetworkView := ⟨fresh default default⟩

/-- What is known of a token network. -/
def network (v : NetworkView) (tokenNetwork : Address) : TokenNetwork :=
  (v.networks.get? tokenNetwork).getD .fresh

/-- Replace what is known of a token network. -/
def setNetwork (v : NetworkView) (tokenNetwork : Address) (n : TokenNetwork) : NetworkView :=
  { v with networks := v.networks.insert tokenNetwork n }

/-- Learn of a participant of a token network. -/
def addParticipant (v : NetworkView) (tokenNetwork participant : Address) : NetworkView :=
  let n := v.network tokenNetwork
  v.setNetwork tokenNetwork { n with participants := n.participants.insert participant () }

/-- Our partner in a channel of two participants, if we are one of them. -/
def partnerOf? (v : NetworkView) (participant1 participant2 : Address) : Option Address :=
  if participant1 = v.ourAddress then some participant2
  else if participant2 = v.ourAddress then some participant1
  else none

/-- Add a channel of ours to a token network. -/
def addChannel (v : NetworkView) (c : Channel) : NetworkView :=
  let n := v.network c.tokenNetwork
  let n' := { n with
    channels := n.channels.insert c.id c
    partnerChannels := n.partnerChannels.insert c.partner.address c.id }
  { v.setNetwork c.tokenNetwork n' with
    channelNetworks := v.channelNetworks.insert c.id c.tokenNetwork }

/-- The channel of an identifier, with its token network. -/
def find? (v : NetworkView) (channelId : ChannelId) : Option (Address × Channel) :=
  match v.channelNetworks.get? channelId with
  | none => none
  | some tokenNetwork =>
    match (v.network tokenNetwork).channels.get? channelId with
    | none => none
    | some c => some (tokenNetwork, c)

/-- The channel of an identifier. -/
def channel? (v : NetworkView) (channelId : ChannelId) : Option Channel :=
  (v.find? channelId).map Prod.snd

/-- Replace a channel of a token network. -/
def putChannel (v : NetworkView) (tokenNetwork : Address) (channelId : ChannelId) (c : Channel) :
    NetworkView :=
  let n := v.network tokenNetwork
  v.setNetwork tokenNetwork { n with channels := n.channels.insert channelId c }

/-- The view after an event of the ledger. -/
def apply (v : NetworkView) (e : ChainEvent) : NetworkView :=
  match e with
  | .tokenNetworkCreated _ tokenNetwork _ => v.setNetwork tokenNetwork (v.network tokenNetwork)
  | .channelOpened tokenNetwork channelId participant1 participant2 settleTimeout block =>
    let v' := (v.addParticipant tokenNetwork participant1).addParticipant tokenNetwork participant2
    match v.partnerOf? participant1 participant2 with
    | none => v'
    | some partner =>
      if (v.network tokenNetwork).channels.contains channelId then v'
      else
        v'.addChannel (Channel.fresh channelId tokenNetwork v.ourAddress partner v.revealTimeout
          settleTimeout block)
  | .secretRegistered .. => v
  | e =>
    match e.channelId? with
    | none => v
    | some channelId =>
      match v.find? channelId with
      | none => v
      | some (tokenNetwork, c) => v.putChannel tokenNetwork channelId (c.applyEvent e)

/-- Carry out an operation on one of our channels. A failed one changes
    nothing. -/
def withChannel {ε α : Type} (v : NetworkView) (channelId : ChannelId)
    (operation : Channel → Except ε (α × Channel)) : Option (Except ε (α × NetworkView)) :=
  match v.find? channelId with
  | none => none
  | some (tokenNetwork, c) =>
    match operation c with
    | .error e => some (.error e)
    | .ok (a, c') => some (.ok (a, v.putChannel tokenNetwork channelId c'))

/-- Carry out an operation on one of our channels, if it is one with
    `partner`. -/
def withPartnerChannel {α : Type} (v : NetworkView) (channelId : ChannelId) (partner : Address)
    (operation : Channel → Except ChannelError (α × Channel)) :
    Except ChannelError (α × NetworkView) :=
  let checked := fun (c : Channel) =>
    if c.partner.address ≠ partner then .error .wrongChannel else operation c
  match v.withChannel channelId checked with
  | none => .error .wrongChannel
  | some result => result

/-- The participants of a token network that we know of, ourselves included. -/
def participants (v : NetworkView) (tokenNetwork : Address) : List Address :=
  (v.network tokenNetwork).participants.keys

/-- Our channels in a token network. -/
def channels (v : NetworkView) (tokenNetwork : Address) : List Channel :=
  (v.network tokenNetwork).channels.values

/-- Our open channels in a token network. -/
def openChannels (v : NetworkView) (tokenNetwork : Address) : List Channel :=
  (v.channels tokenNetwork).filter Channel.isOpen

/-- Our latest channel with a partner, whatever its status. -/
def channelByPartner? (v : NetworkView) (tokenNetwork partner : Address) : Option Channel :=
  let n := v.network tokenNetwork
  match n.partnerChannels.get? partner with
  | none => none
  | some channelId => n.channels.get? channelId

/-- Our open channels in a token network, as next hops of a payment. -/
def routes (v : NetworkView) (tokenNetwork : Address) : List Route :=
  (v.openChannels tokenNetwork).map Channel.route

/-- Is automatic connection to a token network switched off? -/
def isBlocked (v : NetworkView) (tokenNetwork : Address) : Bool := (v.network tokenNetwork).blocked

/-- Switch automatic connection to a token network off or on. -/
def setBlocked (v : NetworkView) (tokenNetwork : Address) (blocked : Bool) : NetworkView :=
  v.setNetwork tokenNetwork { v.network tokenNetwork with blocked := blocked }

/-- A lock of ours in an open channel: the channel, its partner and the secret
    hash. -/
structure SentLock where
  channelId : ChannelId
  partner : Address
  secretHash : SecretHash
deriving DecidableEq

namespace SentLock

/-- Locks are compared by channel, then by partner, then by secret hash. -/
instance : Ord SentLock :=
  ⟨compareLex (compareOn channelId) (compareLex (compareOn partner) (compareOn secretHash))⟩

end SentLock

/-- The locks of ours in a channel that expired at a block, none if the channel
    is not open. -/
def expiredIn (c : Channel) (block : Height) : List SentLock :=
  if c.isOpen then
    (c.ours.pendingLocks.values.filter (fun l => decide (l.expiration ≤ block))).map
      fun l => ⟨c.id, c.partner.address, l.secretHash⟩
  else []

/-- All locks of ours in open channels that expired at a block, in order. -/
def expiredLocks (v : NetworkView) (block : Height) : List SentLock :=
  sortOn id (v.networks.values.flatMap fun n =>
    n.channels.values.flatMap fun c => expiredIn c block)

end NetworkView

end PaymentNetwork

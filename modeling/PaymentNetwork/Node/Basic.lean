import PaymentNetwork.Broker
import PaymentNetwork.Chain.Confirmation
import PaymentNetwork.Connection.Task
import PaymentNetwork.Node.Config

/-!
# The Node

Brings the parts together: events of the ledger, the broker and the memberships
in token networks.

Events wait until they are confirmed and are handled when a new block comes, in
their order, before the block itself is. Afterwards every membership gets a
chance to open the channels that it misses. What the node cannot do at once, a
call to the ledger or an operation on a membership, it hands out as a duty.
Everything here is pure, so a node is a function of what it was told.

A partner that funds a channel which we did not fund yet invites us to fund it
too. Only a network that we ever dealt with is answered.

## Main definitions

* `Duty`: Something to do that takes time, or goes elsewhere.
* `Node`: The state of a node.
* `Node.advance`: A new block.
* `Node.receive`: A message of a peer.
* `Node.pay`: A payment.
* `Node.membership`, `Node.withMembership`: What an operation on a token network
  works on.
-/

namespace PaymentNetwork

/-- Something to do that takes time, or goes elsewhere. -/
inductive Duty where
  | act (a : Action)
  /-- Fund a channel that a partner opened and funded. -/
  | join (tokenNetwork partner : Address) (deposit : Amount)
  /-- Open the channels that are missing. -/
  | retry (tokenNetwork : Address)
deriving DecidableEq

/-- The state of a node. -/
structure Node where
  config : NodeConfig
  broker : Broker
  confirmation : Confirmation
  /-- The funding policy of every token network that the node ever dealt with. -/
  policies : SortedMap Address Policy

namespace Node

/-- A node that was told nothing yet. -/
def fresh (c : NodeConfig) : Node where
  config := c
  broker := .fresh (.fresh c.ourAddress c.revealTimeout) 0
  confirmation := .fresh c.confirmBlocks c.settleHoldBlocks
  policies := .empty

instance : Inhabited Node := ⟨fresh default⟩

/-- The channels in view. -/
def view (n : Node) : NetworkView := n.broker.view

/-- Replace the view. -/
def setView (n : Node) (view : NetworkView) : Node :=
  { n with broker := { n.broker with view := view } }

/-- Deal with a token network from now on. -/
def manage (n : Node) (tokenNetwork : Address) : Node :=
  if n.policies.contains tokenNetwork then n
  else { n with policies := n.policies.insert tokenNetwork .empty }

/-- What an operation on a token network works on. -/
def membership (n : Node) (tokenNetwork : Address) : Membership :=
  ⟨n.view, (n.policies.get? tokenNetwork).getD .empty⟩

/-- The node after a step of an operation on a token network. -/
def withMembership (n : Node) (tokenNetwork : Address) (m : Membership) : Node :=
  { n.setView m.view with policies := n.policies.insert tokenNetwork m.policy }

/-- An event of the ledger arrives. It is handled once it is confirmed. -/
def push (n : Node) (e : ChainEvent) : Node :=
  { n with confirmation := (n.confirmation.push e).1 }

/-- Is this an open channel that we put nothing into? -/
def isUnfunded (n : Node) (channelId : ChannelId) : Bool :=
  match n.view.channel? channelId with
  | some c => c.isOpen && decide (c.ours.contractBalance = 0)
  | none => false

/-- The answer to a partner that funds a channel. -/
def answerDeposit (n : Node) (e : ChainEvent) : List Duty :=
  match e with
  | .channelNewDeposit tokenNetwork channelId participant totalDeposit _ =>
    if participant ≠ n.config.ourAddress ∧ n.isUnfunded channelId
        ∧ n.policies.contains tokenNetwork then
      [.join tokenNetwork participant totalDeposit]
    else []
  | _ => []

/-- Handle an event that is confirmed. -/
def handle (n : Node) (e : ChainEvent) : Node × List Duty :=
  let (broker, actions) := { n.broker with view := n.view.apply e }.observe e
  let n' := { n with broker := broker }
  (n', actions.map .act ++ n'.answerDeposit e)

/-- Handle some events, one after the other. -/
def handleAll (n : Node) : List ChainEvent → Node × List Duty
  | [] => (n, [])
  | e :: rest =>
    let (n₁, first) := n.handle e
    let (n₂, later) := n₁.handleAll rest
    (n₂, first ++ later)

/-- A new block: first the events that are confirmed by it, then the transfers
    in progress, then the memberships. -/
def advance (n : Node) (block : Height) : Node × List Duty :=
  let (confirmation, events, _) := n.confirmation.release block
  let (n', first) := handleAll { n with confirmation := confirmation } events
  let (broker, actions) := n'.broker.advance block
  ({ n' with broker := broker },
    first ++ actions.map .act ++ n'.policies.keys.map .retry)

/-- A message of a peer. -/
def receive (n : Node) (sender : Address) (m : Message) : Node × List Duty :=
  let (broker, actions) := n.broker.receive sender m
  ({ n with broker := broker }, actions.map .act)

/-- The terms of a payment that starts now. It expires after half of the settle
    timeout; there are no terms if that is beyond all heights. -/
def termsOf? (n : Node) (tokenNetwork target : Address) (amount : Amount) (paymentId : PaymentId)
    (secret : Secret) : Option TransferTerms :=
  match n.broker.block.add? n.config.settleTimeout.half with
  | none => none
  | some expiration => some {
    paymentId := paymentId
    tokenNetwork := tokenNetwork
    amount := amount
    initiator := n.config.ourAddress
    target := target
    expiration := expiration
    secretHash := hashSecret secret
    secret? := some secret }

/-- Start a payment. -/
def pay (n : Node) (terms : TransferTerms) : Except PayError (Node × List Duty) :=
  match n.broker.pay terms with
  | .error e => .error e
  | .ok (broker, actions) => .ok ({ n with broker := broker }, actions.map .act)

end Node

end PaymentNetwork

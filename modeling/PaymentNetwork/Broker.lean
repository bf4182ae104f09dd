import PaymentNetwork.NetworkView
import PaymentNetwork.Transfer.Basic

/-!
# The Broker

Runs the transfers of a node over its channels.

The broker stands between the transfers, which know no channels, and the
channels, which know no transfers. A message of a peer is checked by its channel
before any transfer sees it, and a message that a transfer asks for is built by
its channel. A locked transfer that its channel refuses comes back to the
transfer as a refusal, and the transfer may try another route.

A transfer is in progress under its role and its secret hash, and is forgotten
when it is over. All operations are pure: they return the broker and what has to
be done, in order.

That a refusal is fed back until no effect is left cannot go on forever. A
refusal either uses up a candidate route or asks for no further locked transfer,
so the locked transfers waiting and the routes left together become fewer.

## Main definitions

* `Action`: What the node has to do on behalf of a transfer.
* `Broker`: The transfers in progress, and the channels they run over.
* `Broker.drain`: Carry out the effects of a transfer.
* `Broker.pay`: Start a payment.
* `Broker.receive`: A message of a peer.
* `Broker.advance`: A new block.
* `Broker.observe`: An event of the ledger.
-/

namespace PaymentNetwork

/-- The role and the secret hash that a transfer is in progress under. -/
structure TransferKey where
  role : Role
  secretHash : SecretHash
deriving DecidableEq

namespace TransferKey

/-- Keys are compared by role, then by secret hash. -/
instance : Ord TransferKey := ⟨compareLex (compareOn (·.role.rank)) (compareOn secretHash)⟩

instance : Std.TransOrd TransferKey :=
  inferInstanceAs (Std.TransCmp
    (compareLex (compareOn (fun k : TransferKey => k.role.rank)) (compareOn secretHash)))

instance : Std.LawfulEqOrd TransferKey where
  eq_of_compare {a b} h := by
    have h' := Ordering.then_eq_eq.mp h
    have hr : a.role.rank = b.role.rank := Std.LawfulEqOrd.eq_of_compare h'.1
    have hs : a.secretHash = b.secretHash := Std.LawfulEqOrd.eq_of_compare h'.2
    cases a
    cases b
    cases Role.rank_injective hr
    cases hs
    rfl

end TransferKey

/-- What the node has to do on behalf of a transfer. -/
inductive Action where
  | send (recipient : Address) (message : Message)
  | call (c : ChainCall)
  | report (r : Report)
deriving DecidableEq

/-- A transfer on this secret hash, in this role, is in progress already. -/
inductive PayError where
  | duplicateTransfer
deriving DecidableEq

/-- The transfers in progress and the channels that they run over. -/
structure Broker where
  view : NetworkView
  block : Height
  transfers : SortedMap TransferKey Transfer

namespace Broker

/-- A broker without transfers. -/
def fresh (view : NetworkView) (block : Height) : Broker := ⟨view, block, .empty⟩

/-- What came of an effect: the view, and what has to be done. -/
structure Outcome where
  view : NetworkView
  actions : List Action

/-- The action that reports something. -/
def notice (level : NoticeLevel) (info : String) : Action := .report (.notice ⟨level, info⟩)

/-- The reports of a notice. A notice without words is none. -/
def noticeOf (level : NoticeLevel) (info : String) : List Action :=
  if info.isEmpty then [] else [notice level info]

/-- Have a channel build the message of an effect. If it refuses to, the
    complaint says what is done instead. -/
def build {α : Type} (view : NetworkView) (channelId : ChannelId) (recipient : Address)
    (operation : Channel → Except ChannelError (α × Channel)) (message : α → Message)
    (complaint : ChannelError → List Action) : Outcome :=
  match view.withPartnerChannel channelId recipient operation with
  | .ok (m, view') => ⟨view', [.send recipient (message m)]⟩
  | .error e => ⟨view, complaint e⟩

/-- Carry out an effect other than a locked transfer. -/
def perform (view : NetworkView) (block : Height) : Effect → Outcome
  | .sendLockedTransfer .. => ⟨view, []⟩
  | .sendSecretRequest recipient paymentId amount secretHash =>
    ⟨view, [.send recipient (.secretRequest ⟨paymentId, secretHash, amount⟩)]⟩
  | .sendSecretReveal recipient secret => ⟨view, [.send recipient (.secretReveal ⟨secret⟩)]⟩
  | .sendUnlock recipient channelId paymentId secret secretHash =>
    build view channelId recipient (·.sendUnlock paymentId secret) .unlock fun e =>
      noticeOf .error ("could not unlock " ++ secretHash.toText ++ ": " ++ e.describe)
  | .sendLockRemoval recipient channelId secretHash =>
    build view channelId recipient (·.sendRemoval secretHash block) .lockRemoval fun _ => []
  | .sendDisposal recipient channelId lock =>
    ⟨view, [.send recipient (.disposal ⟨channelId, lock⟩)]⟩
  | .call c => ⟨view, [.call c]⟩
  | .sentSuccess paymentId tokenNetwork target amount secretHash =>
    ⟨view, [.report (.sent ⟨paymentId, tokenNetwork, target, amount, secretHash, .completed,
      none⟩)]⟩
  | .sentFailed paymentId tokenNetwork target amount secretHash status reason =>
    ⟨view, [.report (.sent ⟨paymentId, tokenNetwork, target, amount, secretHash, status,
      some reason⟩)]⟩
  | .receivedSuccess paymentId tokenNetwork initiator amount secretHash =>
    ⟨view, [.report (.received ⟨paymentId, tokenNetwork, initiator, amount, secretHash⟩)]⟩
  | .unlockSuccess .. => ⟨view, []⟩
  | .unlockFailed paymentId secretHash reason =>
    ⟨view, noticeOf .warning ("unlock of " ++ secretHash.toText ++ " (payment "
      ++ paymentId.toText ++ ") failed: " ++ reason)⟩
  | .notice level info => ⟨view, noticeOf level info⟩

/-- Carry out the effects of a transfer, first come first served. The effects
    that a refused locked transfer causes go to the end of the queue. -/
def drain (view : NetworkView) (block : Height) (t : Transfer) (effects : List Effect) :
    Transfer × Outcome :=
  match effects with
  | [] => (t, ⟨view, []⟩)
  | .sendLockedTransfer recipient channelId terms :: rest =>
    match view.withPartnerChannel channelId recipient (·.sendTransfer terms block) with
    | .ok (m, view') =>
      let (t', o) := drain view' block t rest
      (t', { o with actions := .send recipient (.lockedTransfer m) :: o.actions })
    | .error e =>
      let refusal : RouteRefusal := ⟨terms.secretHash, channelId, e.describe⟩
      drain view block (t.step (.routeRefused refusal)).1
        (rest ++ (t.step (.routeRefused refusal)).2)
  | effect :: rest =>
    let done := perform view block effect
    let (t', o) := drain done.view block t rest
    (t', { o with actions := done.actions ++ o.actions })
termination_by (t.routesLeft + Effect.lockedTransfers effects, effects.length)
decreasing_by
  -- Sent: one locked transfer less waits.
  · exact Prod.Lex.left _ _ (by simp [Effect.lockedTransfers_cons, Effect.isLockedTransfer])
  -- Refused: whatever locked transfer comes back was paid for with a route.
  · have h := t.step_routeRefused_cost ⟨terms.secretHash, channelId, e.describe⟩
    refine Prod.Lex.left _ _ ?_
    rw [Effect.lockedTransfers_append, Effect.lockedTransfers_cons]
    simp only [Effect.isLockedTransfer, if_true]
    omega
  -- Any other effect leaves the locked transfers alone, so the queue decides.
  · by_cases h : effect.isLockedTransfer
    · exact Prod.Lex.left _ _ (by simp [Effect.lockedTransfers_cons, h])
    · rw [Effect.lockedTransfers_cons, if_neg h]
      exact Prod.Lex.right _ (Nat.lt_succ_self _)

/-- Keep a transfer that is in progress, and forget one that is over. -/
def keep (b : Broker) (t : Transfer) : Broker :=
  let key : TransferKey := ⟨t.role, t.secretHash⟩
  if t.isTerminal then { b with transfers := b.transfers.erase key }
  else { b with transfers := b.transfers.insert key t }

/-- Carry out the effects of a transfer and keep what became of it. -/
def settle (b : Broker) (t : Transfer) (effects : List Effect) : Broker × List Action :=
  let (t', o) := drain b.view b.block t effects
  (keep { b with view := o.view } t', o.actions)

/-- Begin a transfer, unless one is in progress on the same secret hash in the
    same role. -/
def begin? (b : Broker) (t : Transfer) (effects : List Effect) :
    Except PayError (Broker × List Action) :=
  if b.transfers.contains ⟨t.role, t.secretHash⟩ then .error .duplicateTransfer
  else .ok (b.settle t effects)

/-- Start a payment. The terms have to hold the secret. -/
def pay (b : Broker) (terms : TransferTerms) : Except PayError (Broker × List Action) :=
  let (s, effects) := Initiator.start
    ⟨b.view.ourAddress, terms, b.view.routes terms.tokenNetwork⟩ b.block
  b.begin? (.initiator s) effects

/-- Let the transfer of a key, if there is one, react to a fact. -/
def feed (b : Broker) (i : Input) (key : TransferKey) : Broker × List Action :=
  match b.transfers.get? key with
  | none => (b, [])
  | some t =>
    let (t', effects) := t.step i
    b.settle t' effects

/-- Let the transfers of some keys react to a fact, one after the other. -/
def feedAll (b : Broker) (i : Input) : List TransferKey → Broker × List Action
  | [] => (b, [])
  | key :: keys =>
    let (b₁, first) := b.feed i key
    let (b₂, later) := b₁.feedAll i keys
    (b₂, first ++ later)

/-- Let the transfers on a secret hash, in some roles, react to a fact. -/
def dispatch (b : Broker) (roles : List Role) (secretHash : SecretHash) (i : Input) :
    Broker × List Action :=
  b.feedAll i (roles.map fun role => ⟨role, secretHash⟩)

/-- Take back expired locks of ours, one after the other. -/
def removeLocks (view : NetworkView) (block : Height) : List NetworkView.SentLock → Outcome
  | [] => ⟨view, []⟩
  | l :: rest =>
    let done := build view l.channelId l.partner (·.sendRemoval l.secretHash block) .lockRemoval
      fun _ => []
    let o := removeLocks done.view block rest
    { o with actions := done.actions ++ o.actions }

/-- A new block, with the transfers visited in the given order. Afterwards the
    expired locks that no transfer took back are taken back. A block that is not
    above the current one is no news. -/
def advanceInOrder (b : Broker) (block : Height) (order : List TransferKey) :
    Broker × List Action :=
  if block ≤ b.block then (b, [])
  else
    let (b', actions) := feedAll { b with block := block } (.block block) order
    let o := removeLocks b'.view block (b'.view.expiredLocks block)
    ({ b' with view := o.view }, actions ++ o.actions)

/-- A new block. -/
def advance (b : Broker) (block : Height) : Broker × List Action :=
  b.advanceInOrder block b.transfers.keys

/-- An event of the ledger that the view knows of already. -/
def observe (b : Broker) (e : ChainEvent) : Broker × List Action :=
  match e with
  | .secretRegistered _ secretHash _ =>
    b.dispatch [.initiator, .mediator, .target] secretHash (.chain e)
  | .channelClosed .. => b.feedAll (.chain e) b.transfers.keys
  | _ => (b, [])

/-- The answer to a message that its channel rejects: a notice, and nothing
    else. -/
def reject (b : Broker) (sender : Address) (what : String) (e : ChannelError) :
    Broker × List Action :=
  (b, [notice .warning ("rejected " ++ what ++ " from " ++ sender.toText ++ ": " ++ e.describe)])

/-- The first state and effects of a transfer that a peer offered us. -/
def beginOffered (view : NetworkView) (block : Height) (payerRoute : Route) (m : LockedTransfer) :
    Transfer × List Effect :=
  if m.target = view.ourAddress then
    (Target.start ⟨view.ourAddress, payerRoute, m⟩ block).map .target id
  else
    (Mediator.start ⟨view.ourAddress, payerRoute, m, view.routes m.balanceProof.tokenNetwork⟩
      block).map .mediator id

/-- A peer offers us a lock. If a transfer on its secret hash is in progress,
    the lock goes back at once. -/
def receiveTransfer (b : Broker) (sender : Address) (m : LockedTransfer) :
    Broker × List Action :=
  if m.sender ≠ sender ∨ m.recipient ≠ b.view.ourAddress then
    b.reject sender "locked transfer" .wrongChannel
  else
    let accept := fun (c : Channel) => (c.receiveTransfer m b.block).map fun c' => (c'.route, c')
    match b.view.withPartnerChannel m.balanceProof.channelId sender accept with
    | .error e => b.reject sender "locked transfer" e
    | .ok (payerRoute, view) =>
      let b' := { b with view := view }
      let arrival := Action.report (.notice (.ofLockedTransfer m))
      let (t, effects) := beginOffered view b.block payerRoute m
      match b'.begin? t effects with
      | .ok (b'', actions) => (b'', arrival :: actions)
      -- The channel took the lock already, so the peer is told that we give it up.
      | .error .duplicateTransfer =>
        (b', [arrival,
          notice .warning ("transfer " ++ m.lock.secretHash.toText
            ++ " is already in progress, disposing the new lock"),
          .send sender (.disposal ⟨payerRoute.channelId, m.lock⟩)])

/-- A peer changed its end of a channel by an unlock or a removal. Its channel
    checks the message, and the transfers on the lock are told. -/
def receiveProof (b : Broker) (sender : Address) (what : String) (channelId : ChannelId)
    (secretHash : SecretHash) (message : ProofMessage)
    (operation : Channel → Except ChannelError Channel) : Broker × List Action :=
  let accept := fun (c : Channel) => (operation c).map fun c' => ((), c')
  match b.view.withPartnerChannel channelId sender accept with
  | .error e => b.reject sender what e
  | .ok (_, view) =>
    dispatch { b with view := view } [.mediator, .target] secretHash
      (.proofReceived ⟨sender, secretHash, message⟩)

/-- A message of a peer. -/
def receive (b : Broker) (sender : Address) (m : Message) : Broker × List Action :=
  match m with
  | .lockedTransfer m => b.receiveTransfer sender m
  | .secretRequest m =>
    b.dispatch [.initiator] m.secretHash
      (.secretRequested ⟨sender, m.paymentId, m.amount, m.secretHash⟩)
  | .secretReveal m =>
    b.dispatch [.initiator, .mediator, .target] (hashSecret m.secret)
      (.secretRevealed ⟨sender, m.secret, hashSecret m.secret⟩)
  | .unlock m =>
    b.receiveProof sender "unlock" m.balanceProof.channelId (hashSecret m.secret) (.unlock m)
      (·.receiveUnlock m)
  | .lockRemoval m =>
    b.receiveProof sender "expired lock removal" m.balanceProof.channelId m.secretHash (.removal m)
      (·.receiveRemoval m b.block)
  | .disposal m =>
    b.dispatch [.initiator, .mediator] m.lock.secretHash
      (.lockDisposed ⟨sender, m.channelId, m.lock⟩)

end Broker

end PaymentNetwork

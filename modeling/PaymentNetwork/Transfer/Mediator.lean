import PaymentNetwork.Transfer.Input

/-!
# A Mediator of a Payment

The part of a node in the middle of a route.

The mediator receives a lock from its payer and offers a lock on the same hash
to a payee. The lock it offers expires a reveal timeout before the one it
received, so that a secret learned at the last moment from the payee can still
be shown to the payer. Without the secret, a refused or disposed lock moves on
to the next route, and when none is left the lock goes back to the payer. With
the secret, the payee is paid at once and the payer is asked to pay. A payer
that lets the reveal timeout begin is left to the ledger.

## Main definitions

* `Mediator`: The state of a transfer that we pass on.
* `Mediator.start`: Take on a transfer.
* `Mediator.step`: React to a fact.

## Theorems

* `Mediator.step_routeRefused_cost`: A refusal pays for every locked transfer that it
  causes with an available route.
-/

namespace PaymentNetwork

/-- How far a transfer that we pass on got. -/
inductive MediatorStatus where
  /-- A lock was offered to the payee, and nobody knows the secret. -/
  | forwardedToNextHop
  /-- We know the secret, and the payer did not unlock yet. -/
  | waitingSecretPropagation
  | completed
  /-- Both locks expired without the secret. -/
  | expiredBoth
  /-- The payer did not unlock in time. Its lock is claimed on the ledger. -/
  | partialUnlockOnChain
  /-- No route could carry the transfer. The lock went back to the payer. -/
  | canceled
deriving DecidableEq

namespace MediatorStatus

/-- Is the transfer over? -/
def isTerminal : MediatorStatus → Bool
  | forwardedToNextHop => false
  | waitingSecretPropagation => false
  | completed => true
  | expiredBoth => true
  | partialUnlockOnChain => true
  | canceled => true

end MediatorStatus

/-- A transfer that we pass on. -/
structure Mediator where
  ourAddress : Address
  /-- The channel with the payer. -/
  payerRoute : Route
  /-- The terms of the lock that we received. -/
  received : TransferTerms
  routes : Routes
  /-- The channel with the payee. -/
  payeeRoute? : Option Route
  /-- The terms of the lock that we offered. -/
  offered? : Option TransferTerms
  secret? : Option Secret
  blockNumber : Height
  status : MediatorStatus
  downstreamLockRemoved : Bool
  /-- Was the channel with the payer closed? -/
  payerOnChain : Bool
deriving DecidableEq

namespace Mediator

/-- The expiration of the lock that we offer. -/
def downstreamExpiration (s : Mediator) : Height :=
  s.received.expiration.satSub s.payerRoute.revealTimeout

/-- The block at which we stop waiting for the payer and go to the ledger. -/
def payerDeadline (s : Mediator) : Height :=
  s.received.expiration.satSub s.payerRoute.revealTimeout

/-- Is this node the payee? -/
def isPayee (s : Mediator) (node : Address) : Bool :=
  match s.payeeRoute? with
  | some r => decide (r.node = node)
  | none => false

/-- A warning. -/
def warning (info : String) : Effect := .notice .warning info

/-- Can the transfer go over the route? The channel is open, does not lead back
    to the payer and can carry the amount, the lock that we offer expires before
    the one we received, and its reveal timeout ends before that. -/
def usable (s : Mediator) (r : Route) : Bool :=
  r.isOpen && decide (r.node ≠ s.payerRoute.node)
    && decide (s.received.amount ≤ r.availableBalance)
    && decide (s.downstreamExpiration < s.received.expiration)
    && decide (s.blockNumber.satAdd r.revealTimeout < s.downstreamExpiration)

/-- The terms of the lock that we offer. -/
def offer (s : Mediator) : TransferTerms :=
  { s.received with expiration := s.downstreamExpiration, secret? := none }

/-- Offer a lock over the best route that is left, or give the received lock
    back. -/
def tryNextRoute (s : Mediator) : Mediator × List Effect :=
  match s.routes.popBest s.usable with
  | (some r, routes) =>
    ({ s with
        routes := routes
        payeeRoute? := some r
        offered? := some s.offer
        downstreamLockRemoved := false
        status := .forwardedToNextHop },
      [.sendLockedTransfer r.node r.channelId s.offer])
  | (none, routes) =>
    ({ s with
        routes := routes
        payeeRoute? := none
        offered? := none
        status := .canceled },
      [.sendDisposal s.payerRoute.node s.payerRoute.channelId s.received.lock,
        .notice .info ("no route for mediated transfer " ++ s.received.secretHash.toText
          ++ ", disposed upstream")])

/-- Take on a transfer. -/
def start (a : StartMediator) (block : Height) : Mediator × List Effect :=
  tryNextRoute
    { ourAddress := a.ourAddress
      payerRoute := a.payerRoute
      received := TransferTerms.ofMessage a.message
      routes := Routes.ofCandidates a.candidates
      payeeRoute? := none
      offered? := none
      secret? := none
      blockNumber := block
      status := .forwardedToNextHop
      downstreamLockRemoved := false
      payerOnChain := false }

/-- Put the current route with the failed ones and try the next. -/
def abandonRoute (s : Mediator) : Mediator × List Effect :=
  match s.payeeRoute? with
  | some r => tryNextRoute { s with routes := s.routes.cancel r, payeeRoute? := none }
  | none => s.tryNextRoute

/-- Was the lock offered over this channel? -/
def goesOver (s : Mediator) (channelId : ChannelId) : Bool :=
  match s.payeeRoute? with
  | some r => decide (r.channelId = channelId)
  | none => false

/-- Is this the lock that was offered? -/
def offeredLock (s : Mediator) (lock : Lock) : Bool :=
  match s.offered? with
  | some t => decide (t.lock = lock)
  | none => false

/-- The channel refused the lock. -/
def onRefusal (s : Mediator) (refusal : RouteRefusal) : Mediator × List Effect :=
  if refusal.secretHash = s.received.secretHash ∧ s.goesOver refusal.channelId then
    s.abandonRoute
  else (s, [])

/-- The payee gave up the lock, and the secret is not known. -/
def onDisposal (s : Mediator) (d : LockDisposed) : Mediator × List Effect :=
  if s.isPayee d.sender && s.goesOver d.channelId && s.offeredLock d.lock then s.abandonRoute
  else (s, [])

/-- Is there still time to leave the payee's claim to the channel? Its route is
    open and its lock did not expire. -/
def unlocksPayee (s : Mediator) (r : Route) (t : TransferTerms) : Bool :=
  r.isOpen && decide (s.blockNumber < t.expiration)

/-- The payment of the payee, as long as the channel with it allows one. -/
def payPayee (s : Mediator) (secret : Secret) : List Effect :=
  match s.payeeRoute?, s.offered? with
  | some r, some t =>
    if s.unlocksPayee r t then
      [.sendUnlock r.node r.channelId t.paymentId secret t.secretHash,
        .unlockSuccess t.paymentId t.secretHash]
    else []
  | _, _ => []

/-- The claim of the received lock on the ledger. -/
def claim (s : Mediator) (secret : Secret) : List Effect :=
  let deadline := s.received.expiration.satSub 1
  -- A channel that was closed is not closed again.
  let close := if s.payerOnChain then [] else
    [Effect.call (.closeChannel s.received.tokenNetwork s.payerRoute.channelId s.payerRoute.node
      deadline)]
  [.call (.registerSecret secret deadline)] ++ close ++
    [.call (.unlock s.received.tokenNetwork s.payerRoute.channelId s.payerRoute.node
      s.received.secretHash (deadline.satAdd s.payerRoute.settleTimeout)),
    warning ("payer did not unlock transfer " ++ s.received.secretHash.toText
      ++ ", claiming on-chain")]

/-- Go to the ledger if the payer did not unlock in time. -/
def checkPayerDeadline (s : Mediator) : Mediator × List Effect :=
  match s.secret? with
  | some secret =>
    if s.status = .waitingSecretPropagation ∧ s.payerDeadline ≤ s.blockNumber then
      ({ s with status := .partialUnlockOnChain }, s.claim secret)
    else (s, [])
  | none => (s, [])

/-- We know the secret: show it to the payer and pay the payee. -/
def learnSecret (s : Mediator) (secret : Secret) : Mediator × List Effect :=
  -- The secret may come so late that the payer gets no time at all.
  let (s', claimed) := checkPayerDeadline
    { s with secret? := some secret, status := .waitingSecretPropagation }
  (s', .sendSecretReveal s.payerRoute.node secret :: s.payPayee secret ++ claimed)

/-- Somebody told us a secret. Only the payee is listened to. -/
def onSecretReveal (s : Mediator) (r : SecretRevealed) : Mediator × List Effect :=
  if !s.isPayee r.sender then (s, [])
  else if r.secretHash ≠ s.received.secretHash then
    (s, [warning ("ignoring wrong secret from " ++ r.sender.toText)])
  else s.learnSecret r.secret

/-- The payer changed its end of a channel. -/
def onProof (s : Mediator) (p : ProofReceived) : Mediator × List Effect :=
  if p.sender ≠ s.payerRoute.node ∨ p.secretHash ≠ s.received.secretHash then (s, [])
  else
    match p.message with
    | .unlock _ => ({ s with status := .completed }, [])
    | .removal _ =>
      (s, [.notice .error ("payer removed lock " ++ s.received.secretHash.toText
        ++ " although the secret is known")])

/-- Take the offered lock back if it expired. -/
def removeDownstream (s : Mediator) : Mediator × List Effect :=
  match s.payeeRoute?, s.offered? with
  | some r, some t =>
    if !s.downstreamLockRemoved && decide (t.expiration ≤ s.blockNumber) then
      ({ s with downstreamLockRemoved := true },
        [.sendLockRemoval r.node r.channelId t.secretHash])
    else (s, [])
  | _, _ => (s, [])

/-- Give the transfer up if the received lock expired. -/
def expire (s : Mediator) : Mediator × List Effect :=
  if s.received.expiration ≤ s.blockNumber then
    ({ s with status := .expiredBoth },
      [.unlockFailed s.received.paymentId s.received.secretHash "lock expired without secret"])
  else (s, [])

/-- A new block. -/
def onBlock (s : Mediator) (block : Height) : Mediator × List Effect :=
  let s₀ := { s with blockNumber := block }
  match s.status with
  | .forwardedToNextHop =>
    let (s₁, removed) := s₀.removeDownstream
    let (s₂, expired) := s₁.expire
    (s₂, removed ++ expired)
  | .waitingSecretPropagation => s₀.checkPayerDeadline
  | _ => (s₀, [])

/-- The route with its channel marked as closed at a block. -/
def closeRoute (r : Route) (channelId : ChannelId) (block : Height) : Route :=
  if r.channelId = channelId then { r with closedBlock? := some block } else r

/-- An event of the ledger. -/
def onChain (s : Mediator) (e : ChainEvent) : Mediator × List Effect :=
  match e with
  | .channelClosed _ channelId _ block =>
    if channelId = s.payerRoute.channelId then
      ({ s with
          payerOnChain := true
          payerRoute := { s.payerRoute with closedBlock? := some block } }, [])
    else ({ s with payeeRoute? := s.payeeRoute?.map (closeRoute · channelId block) }, [])
  | .secretRegistered secret secretHash _ =>
    if secretHash = s.received.secretHash ∧ s.status = .forwardedToNextHop then
      s.learnSecret secret
    else (s, [])
  | _ => (s, [])

/-- React to a fact. -/
def step (s : Mediator) (i : Input) : Mediator × List Effect :=
  if s.status.isTerminal then (s, [])
  else
    match s.status, i with
    | _, .block number => s.onBlock number
    | .forwardedToNextHop, .routeRefused refusal => s.onRefusal refusal
    | .forwardedToNextHop, .lockDisposed disposed => s.onDisposal disposed
    | .waitingSecretPropagation, .lockDisposed _ =>
      (s, [warning ("ignoring dispose of transfer " ++ s.received.secretHash.toText
        ++ ": secret is known")])
    | .forwardedToNextHop, .secretRevealed reveal => s.onSecretReveal reveal
    | .waitingSecretPropagation, .proofReceived proof => s.onProof proof
    | _, .chain event => s.onChain event
    | _, _ => (s, [])

/-- The next route is paid for with the available ones: each locked transfer
    that is asked for takes one of them away. -/
theorem tryNextRoute_cost (s : Mediator) :
    s.tryNextRoute.1.routes.available.length + Effect.lockedTransfers s.tryNextRoute.2
      ≤ s.routes.available.length := by
  have h := s.routes.popBest_length s.usable
  unfold tryNextRoute
  cases hp : s.routes.popBest s.usable with
  | mk found routes =>
      rw [hp] at h
      cases found with
      | none => simpa [Effect.lockedTransfers, Effect.isLockedTransfer] using h
      | some r => simpa [Effect.lockedTransfers, Effect.isLockedTransfer] using h

theorem abandonRoute_cost (s : Mediator) :
    s.abandonRoute.1.routes.available.length + Effect.lockedTransfers s.abandonRoute.2
      ≤ s.routes.available.length := by
  unfold abandonRoute
  split
  · exact tryNextRoute_cost _
  · exact tryNextRoute_cost _

/-- Only a transfer that waits for the secret listens to refusals. -/
theorem step_routeRefused (s : Mediator) (refusal : RouteRefusal) :
    s.step (.routeRefused refusal)
      = if s.status = .forwardedToNextHop then s.onRefusal refusal else (s, []) := by
  cases h : s.status <;> simp [step, h, MediatorStatus.isTerminal]

theorem step_routeRefused_cost (s : Mediator) (refusal : RouteRefusal) :
    (s.step (.routeRefused refusal)).1.routes.available.length
        + Effect.lockedTransfers (s.step (.routeRefused refusal)).2
      ≤ s.routes.available.length := by
  rw [step_routeRefused]
  split
  · unfold onRefusal
    split
    · exact s.abandonRoute_cost
    · exact Nat.le_refl _
  · exact Nat.le_refl _

end Mediator

end PaymentNetwork

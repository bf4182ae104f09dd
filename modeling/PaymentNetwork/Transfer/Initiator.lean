import PaymentNetwork.Transfer.Input

/-!
# The Initiator of a Payment

The part of the node that pays.

The initiator offers a lock over the best route and waits for the target to ask
for the secret. As long as the secret was not released, a refused or disposed
lock moves the payment to the next route. Once it was released there is no way
back: the payment completes when the next hop shows the secret or when the
ledger does, and fails only when the lock expires.

A payment whose next hop went to the ledger has its secret registered there in
good time, since the next hop may claim the lock there.

## Main definitions

* `Initiator`: The state of a payment that we started.
* `Initiator.start`: Begin a payment.
* `Initiator.step`: React to a fact.

## Theorems

* `Initiator.step_routeRefused_cost`: A refusal pays for every locked transfer that it
  causes with an available route.
-/

namespace PaymentNetwork

/-- How far a payment that we started got. -/
inductive InitiatorStatus where
  /-- The lock was sent, and the target did not ask for the secret yet. -/
  | waitingSecretRequest
  /-- The secret was released, and the next hop did not show it yet. -/
  | waitingUnlock
  | completed
  | expired
  | canceled
deriving DecidableEq

namespace InitiatorStatus

/-- Is the payment over? -/
def isTerminal : InitiatorStatus → Bool
  | waitingSecretRequest => false
  | waitingUnlock => false
  | completed => true
  | expired => true
  | canceled => true

end InitiatorStatus

/-- A payment that we started. -/
structure Initiator where
  ourAddress : Address
  /-- The terms, with the secret. -/
  terms : TransferTerms
  routes : Routes
  /-- The route that our lock goes over. -/
  route? : Option Route
  blockNumber : Height
  status : InitiatorStatus
  /-- Was the channel of the route closed? -/
  counterpartOnChain : Bool
  /-- Did we ask to register the secret? -/
  secretRegistered : Bool
deriving DecidableEq

namespace Initiator

/-- The report that a payment failed. -/
def failed (t : TransferTerms) (status : TransferStatus) (reason : String) : Effect :=
  .sentFailed t.paymentId t.tokenNetwork t.target t.amount t.secretHash status reason

/-- The report that a payment succeeded. -/
def succeeded (t : TransferTerms) : Effect :=
  .sentSuccess t.paymentId t.tokenNetwork t.target t.amount t.secretHash

/-- A warning. -/
def warning (info : String) : Effect := .notice .warning info

/-- Can the payment go over the route? The channel is open and can carry the
    amount, and its reveal timeout ends before the lock does. -/
def usable (s : Initiator) (r : Route) : Bool :=
  r.isOpen && decide (s.terms.amount ≤ r.availableBalance)
    && decide (s.blockNumber.satAdd r.revealTimeout < s.terms.expiration)

/-- Send the lock over the best route that is left, or give the payment up. -/
def tryNextRoute (s : Initiator) : Initiator × List Effect :=
  match s.routes.popBest s.usable with
  | (some r, routes) =>
    ({ s with
        routes := routes
        route? := some r
        counterpartOnChain := false
        status := .waitingSecretRequest },
      [.sendLockedTransfer r.node r.channelId { s.terms with secret? := none }])
  | (none, routes) =>
    ({ s with routes := routes, route? := none, status := .canceled },
      [failed s.terms .canceled "no usable route"])

/-- Does the secret in the terms open the lock? -/
def secretMatches (t : TransferTerms) : Bool :=
  match t.secret? with
  | some secret => opens secret t.secretHash
  | none => false

/-- Begin a payment. -/
def start (a : StartInitiator) (block : Height) : Initiator × List Effect :=
  let s : Initiator :=
    { ourAddress := a.ourAddress
      terms := a.terms
      routes := Routes.ofCandidates a.candidates
      route? := none
      blockNumber := block
      status := .waitingSecretRequest
      counterpartOnChain := false
      secretRegistered := false }
  -- Nobody could ever unlock a lock on another hash.
  if !secretMatches s.terms then
    ({ s with status := .canceled },
      [failed s.terms .canceled "secret does not match the secret hash"])
  else if s.terms.expiration ≤ block then
    ({ s with status := .canceled },
      [failed s.terms .canceled "lock expiration is in the past"])
  else s.tryNextRoute

/-- Put the current route with the failed ones and try the next. -/
def abandonRoute (s : Initiator) : Initiator × List Effect :=
  match s.route? with
  | some r => tryNextRoute { s with routes := s.routes.cancel r, route? := none }
  | none => s.tryNextRoute

/-- Does the lock go over this channel? -/
def goesOver (s : Initiator) (channelId : ChannelId) : Bool :=
  match s.route? with
  | some r => decide (r.channelId = channelId)
  | none => false

/-- Does the lock go to this node over this channel? -/
def goesTo (s : Initiator) (node : Address) (channelId : ChannelId) : Bool :=
  match s.route? with
  | some r => decide (r.node = node) && decide (r.channelId = channelId)
  | none => false

/-- The channel refused the lock. -/
def onRefusal (s : Initiator) (refusal : RouteRefusal) : Initiator × List Effect :=
  if refusal.secretHash = s.terms.secretHash ∧ s.goesOver refusal.channelId then s.abandonRoute
  else (s, [])

/-- The next hop gave up the lock, and the secret was not released yet. -/
def onDisposal (s : Initiator) (d : LockDisposed) : Initiator × List Effect :=
  if d.lock.secretHash ≠ s.terms.secretHash ∨ !s.goesTo d.sender d.channelId then (s, [])
  else if d.lock ≠ s.terms.lock then
    (s, [warning ("ignoring dispose of transfer " ++ s.terms.secretHash.toText
      ++ ": lock does not match")])
  else s.abandonRoute

/-- Is this the request that the target of the payment has to make? -/
def isValidRequest (t : TransferTerms) (r : SecretRequested) : Bool :=
  decide (r.sender = t.target) && decide (r.secretHash = t.secretHash)
    && decide (r.amount = t.amount) && decide (r.paymentId = t.paymentId)

/-- Somebody asked for the secret. Only the target gets it. -/
def onSecretRequest (s : Initiator) (r : SecretRequested) : Initiator × List Effect :=
  let refused := (s, [warning ("ignoring invalid secret request from " ++ r.sender.toText
    ++ " for transfer " ++ s.terms.secretHash.toText)])
  match s.terms.secret? with
  | some secret =>
    if isValidRequest s.terms r then
      ({ s with status := .waitingUnlock }, [.sendSecretReveal s.terms.target secret])
    else refused
  | none => refused

/-- The next hop showed the secret, so it gets paid. -/
def onSecretReveal (s : Initiator) (r : SecretRevealed) : Initiator × List Effect :=
  match s.route? with
  | some route =>
    if route.node ≠ r.sender then (s, [])
    else if r.secretHash ≠ s.terms.secretHash then
      (s, [warning ("ignoring wrong secret from " ++ r.sender.toText)])
    else
      ({ s with status := .completed },
        [.sendUnlock route.node route.channelId s.terms.paymentId r.secret s.terms.secretHash,
          succeeded s.terms,
          .unlockSuccess s.terms.paymentId s.terms.secretHash])
  | none => (s, [])

/-- The reveal timeout of the current route. -/
def revealTimeout (s : Initiator) : Height :=
  match s.route? with
  | some r => r.revealTimeout
  | none => 0

/-- Has the secret to be registered now? The next hop went to the ledger, and
    there is little time left to the expiration. -/
def mustRegister (s : Initiator) : Bool :=
  decide (s.status = .waitingUnlock) && s.counterpartOnChain && !s.secretRegistered
    && decide (s.terms.expiration.satSub s.revealTimeout ≤ s.blockNumber)
    && decide (s.blockNumber < s.terms.expiration)

/-- Register the secret if it has to be registered now. -/
def registerSecret (s : Initiator) : Initiator × List Effect :=
  match s.terms.secret? with
  | some secret =>
    if s.mustRegister then
      ({ s with secretRegistered := true },
        [.call (.registerSecret secret (s.terms.expiration.satSub 1))])
    else (s, [])
  | none => (s, [])

/-- The removal of our lock, unless its channel was closed. -/
def removal (s : Initiator) : List Effect :=
  match s.route? with
  | some r =>
    if s.counterpartOnChain then [] else [.sendLockRemoval r.node r.channelId s.terms.secretHash]
  | none => []

/-- Give the payment up if its lock expired. -/
def expire (s : Initiator) : Initiator × List Effect :=
  if s.terms.expiration ≤ s.blockNumber then
    ({ s with status := .expired },
      s.removal ++ [failed s.terms .expired "lock expired",
        .unlockFailed s.terms.paymentId s.terms.secretHash "lock expired"])
  else (s, [])

/-- A new block. -/
def onBlock (s : Initiator) (block : Height) : Initiator × List Effect :=
  let (s₁, registered) := registerSecret { s with blockNumber := block }
  let (s₂, expired) := s₁.expire
  (s₂, registered ++ expired)

/-- An event of the ledger. -/
def onChain (s : Initiator) (e : ChainEvent) : Initiator × List Effect :=
  match e with
  | .channelClosed _ channelId _ _ =>
    if s.goesOver channelId then ({ s with counterpartOnChain := true }, []) else (s, [])
  | .secretRegistered _ secretHash _ =>
    if secretHash = s.terms.secretHash ∧ s.status = .waitingUnlock then
      ({ s with status := .completed }, [succeeded s.terms])
    else (s, [])
  | _ => (s, [])

/-- React to a fact. -/
def step (s : Initiator) (i : Input) : Initiator × List Effect :=
  if s.status.isTerminal then (s, [])
  else
    match s.status, i with
    | _, .block number => s.onBlock number
    | .waitingSecretRequest, .routeRefused refusal => s.onRefusal refusal
    | .waitingSecretRequest, .secretRequested request => s.onSecretRequest request
    | .waitingSecretRequest, .lockDisposed disposed => s.onDisposal disposed
    | .waitingUnlock, .lockDisposed _ =>
      (s, [warning ("ignoring dispose of transfer " ++ s.terms.secretHash.toText
        ++ ": secret was already released")])
    | .waitingUnlock, .secretRevealed reveal => s.onSecretReveal reveal
    | _, .chain event => s.onChain event
    | _, _ => (s, [])

/-- The next route is paid for with the available ones: each locked transfer
    that is asked for takes one of them away. -/
theorem tryNextRoute_cost (s : Initiator) :
    s.tryNextRoute.1.routes.available.length + Effect.lockedTransfers s.tryNextRoute.2
      ≤ s.routes.available.length := by
  have h := s.routes.popBest_length s.usable
  unfold tryNextRoute
  cases hp : s.routes.popBest s.usable with
  | mk found routes =>
      rw [hp] at h
      cases found with
      | none => simpa [Effect.lockedTransfers, Effect.isLockedTransfer, failed] using h
      | some r => simpa [Effect.lockedTransfers, Effect.isLockedTransfer] using h

theorem abandonRoute_cost (s : Initiator) :
    s.abandonRoute.1.routes.available.length + Effect.lockedTransfers s.abandonRoute.2
      ≤ s.routes.available.length := by
  unfold abandonRoute
  split
  · exact tryNextRoute_cost _
  · exact tryNextRoute_cost _

/-- Only a transfer that waits for the secret request listens to refusals. -/
theorem step_routeRefused (s : Initiator) (refusal : RouteRefusal) :
    s.step (.routeRefused refusal)
      = if s.status = .waitingSecretRequest then s.onRefusal refusal else (s, []) := by
  cases h : s.status <;> simp [step, h, InitiatorStatus.isTerminal]

theorem step_routeRefused_cost (s : Initiator) (refusal : RouteRefusal) :
    (s.step (.routeRefused refusal)).1.routes.available.length
        + Effect.lockedTransfers (s.step (.routeRefused refusal)).2
      ≤ s.routes.available.length := by
  rw [step_routeRefused]
  split
  · unfold onRefusal
    split
    · exact s.abandonRoute_cost
    · exact Nat.le_refl _
  · exact Nat.le_refl _

end Initiator

end PaymentNetwork

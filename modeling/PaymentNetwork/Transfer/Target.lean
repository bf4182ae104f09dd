import PaymentNetwork.Transfer.Input

/-!
# The Target of a Payment

The part of the node that is paid.

The target asks the initiator for the secret, unless the lock it received
expires too soon: then the lock goes back to the payer at once. When the secret
is known the payment is received, and what remains is to collect it. The secret
is shown to the payer, and a payer that lets the reveal timeout begin is left
to the ledger.

## Main definitions

* `Target`: The state of a transfer to us.
* `Target.start`: Receive a transfer.
* `Target.step`: React to a fact.
-/

namespace PaymentNetwork

/-- How far a transfer to us got. -/
inductive TargetStatus where
  /-- The lock leaves no time to learn the secret. We wait for its end. -/
  | idle
  | requestedSecret
  /-- We know the secret, and the payer did not unlock yet. -/
  | waitingUnlock
  | completed
  | expired
deriving DecidableEq

namespace TargetStatus

/-- Is the transfer over? -/
def isTerminal : TargetStatus → Bool
  | idle => false
  | requestedSecret => false
  | waitingUnlock => false
  | completed => true
  | expired => true

end TargetStatus

/-- A transfer to us. -/
structure Target where
  ourAddress : Address
  /-- The channel with the payer. -/
  payerRoute : Route
  /-- The terms, with the secret as soon as we know it. -/
  terms : TransferTerms
  blockNumber : Height
  status : TargetStatus
  /-- Was the channel with the payer closed? -/
  payerOnChain : Bool
deriving DecidableEq

namespace Target

/-- The block at which we stop waiting for the payer and go to the ledger. -/
def unlockDeadline (s : Target) : Height :=
  s.terms.expiration.satSub s.payerRoute.revealTimeout

/-- A warning. -/
def warning (info : String) : Effect := .notice .warning info

/-- Receive a transfer. -/
def start (a : StartTarget) (block : Height) : Target × List Effect :=
  let s : Target :=
    { ourAddress := a.ourAddress
      payerRoute := a.payerRoute
      terms := TransferTerms.ofMessage a.message
      blockNumber := block
      status := .idle
      payerOnChain := false }
  if s.terms.expiration ≤ block.satAdd s.payerRoute.revealTimeout then
    (s, [.sendDisposal s.payerRoute.node s.payerRoute.channelId s.terms.lock,
      warning ("lock " ++ s.terms.secretHash.toText
        ++ " expires too soon to request the secret, disposed upstream")])
  else
    ({ s with status := .requestedSecret },
      [.sendSecretRequest s.terms.initiator s.terms.paymentId s.terms.amount s.terms.secretHash])

/-- The claim of the received lock on the ledger. -/
def claim (s : Target) (secret : Secret) : List Effect :=
  let deadline := s.terms.expiration.satSub 1
  -- A channel that was closed is not closed again.
  let close := if s.payerOnChain then [] else
    [Effect.call (.closeChannel s.terms.tokenNetwork s.payerRoute.channelId s.payerRoute.node
      deadline)]
  [.call (.registerSecret secret deadline)] ++ close ++
    [.call (.unlock s.terms.tokenNetwork s.payerRoute.channelId s.payerRoute.node
      s.terms.secretHash (deadline.satAdd s.payerRoute.settleTimeout))]

/-- Go to the ledger if the payer did not unlock in time. -/
def checkUnlockDeadline (s : Target) : Target × List Effect :=
  match s.terms.secret? with
  | some secret =>
    if s.status = .waitingUnlock ∧ s.unlockDeadline ≤ s.blockNumber then
      ({ s with status := .completed }, s.claim secret)
    else (s, [])
  | none => (s, [])

/-- We know the secret: the payment is received, and the payer has to unlock. -/
def learnSecret (s : Target) (secret : Secret) : Target × List Effect :=
  -- The secret may come so late that the payer gets no time at all.
  let (s', claimed) := checkUnlockDeadline
    { s with terms := { s.terms with secret? := some secret }, status := .waitingUnlock }
  (s', .receivedSuccess s.terms.paymentId s.terms.tokenNetwork s.terms.initiator s.terms.amount
      s.terms.secretHash
    :: .sendSecretReveal s.payerRoute.node secret :: claimed)

/-- Somebody told us a secret. -/
def onSecretReveal (s : Target) (r : SecretRevealed) : Target × List Effect :=
  if r.secretHash ≠ s.terms.secretHash then
    (s, [warning ("ignoring wrong secret from " ++ r.sender.toText)])
  else s.learnSecret r.secret

/-- The payer changed its end of a channel. -/
def onProof (s : Target) (p : ProofReceived) : Target × List Effect :=
  if p.sender ≠ s.payerRoute.node ∨ p.secretHash ≠ s.terms.secretHash then (s, [])
  else
    match p.message with
    | .unlock _ =>
      ({ s with status := .completed }, [.unlockSuccess s.terms.paymentId s.terms.secretHash])
    | .removal _ =>
      (s, [.notice .error ("payer removed lock " ++ s.terms.secretHash.toText
        ++ " although the secret is known")])

/-- Give the transfer up if the lock expired. -/
def expire (s : Target) : Target × List Effect :=
  if s.terms.expiration ≤ s.blockNumber then
    ({ s with status := .expired },
      [.unlockFailed s.terms.paymentId s.terms.secretHash "lock expired"])
  else (s, [])

/-- A new block. -/
def onBlock (s : Target) (block : Height) : Target × List Effect :=
  let s₀ := { s with blockNumber := block }
  match s.status with
  | .idle => s₀.expire
  | .requestedSecret => s₀.expire
  | .waitingUnlock => s₀.checkUnlockDeadline
  | _ => (s₀, [])

/-- An event of the ledger. -/
def onChain (s : Target) (e : ChainEvent) : Target × List Effect :=
  match e with
  | .channelClosed _ channelId _ block =>
    if channelId = s.payerRoute.channelId then
      ({ s with
          payerOnChain := true
          payerRoute := { s.payerRoute with closedBlock? := some block } }, [])
    else (s, [])
  | .secretRegistered secret secretHash _ =>
    if secretHash = s.terms.secretHash ∧ s.status ≠ .waitingUnlock
        ∧ s.blockNumber < s.terms.expiration then
      s.learnSecret secret
    else (s, [])
  | _ => (s, [])

/-- React to a fact. -/
def step (s : Target) (i : Input) : Target × List Effect :=
  if s.status.isTerminal then (s, [])
  else
    match s.status, i with
    | _, .block number => s.onBlock number
    | .requestedSecret, .secretRevealed reveal => s.onSecretReveal reveal
    | .waitingUnlock, .proofReceived proof => s.onProof proof
    | _, .chain event => s.onChain event
    | _, _ => (s, [])

end Target

end PaymentNetwork

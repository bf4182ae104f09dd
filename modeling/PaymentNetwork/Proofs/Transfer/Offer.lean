import PaymentNetwork.Transfer.Basic

/-!
# The Lock Behind a Transfer

What a transfer remembers of the lock that it began with.

A mediator and a target begin with a lock that a peer offered on one of our
channels. The terms of that lock and the channel stay with the transfer until it is
over: all that is ever changed is whether the channel was closed, and for a target
whether the secret is known. The payer's unlock is matched against the node and the
secret hash of the lock, and against nothing else that `Offer` holds.

## Main definitions

* `Mediator.SameDeal`, `Target.SameDeal`: Only what may change of the received lock
  and its channel has changed.
* `Offer`: A lock that a peer offered on a channel.
* `Transfer.offer?`, `Transfer.tokenNetwork`: The offer that a transfer began with, and
  the network that it is in.
* `Transfer.awaitsUnlock`, `Transfer.Expects`: Does the transfer wait for its payer
  to unlock, and for this node?
* `Transfer.isCompleted`: Did it end with its lock unlocked?
* `Effect.isQuiet`: Does the effect leave the channels alone?

## Theorems

* `Transfer.step_role`, `Transfer.step_secretHash`, `Transfer.step_offer?`,
  `Transfer.step_tokenNetwork`: No fact changes what a transfer is about.
* `Transfer.step_unlock_of_expects`, `Transfer.step_unlock_of_not_expects`: What an
  unlock does to a transfer.
-/

namespace PaymentNetwork

namespace Initiator

/-! ### The terms of an initiator -/

theorem tryNextRoute_terms (s : Initiator) : s.tryNextRoute.1.terms = s.terms := by
  unfold tryNextRoute
  split
  · rfl
  · rfl

theorem abandonRoute_terms (s : Initiator) : s.abandonRoute.1.terms = s.terms := by
  unfold abandonRoute
  split
  · exact tryNextRoute_terms _
  · exact tryNextRoute_terms s

theorem onRefusal_terms (s : Initiator) (refusal : RouteRefusal) :
    (s.onRefusal refusal).1.terms = s.terms := by
  unfold onRefusal
  split
  · exact abandonRoute_terms s
  · rfl

theorem onDisposal_terms (s : Initiator) (d : LockDisposed) :
    (s.onDisposal d).1.terms = s.terms := by
  unfold onDisposal
  split
  · rfl
  · split
    · rfl
    · exact abandonRoute_terms s

theorem onSecretRequest_terms (s : Initiator) (r : SecretRequested) :
    (s.onSecretRequest r).1.terms = s.terms := by
  unfold onSecretRequest
  dsimp only
  split
  · split
    · rfl
    · rfl
  · rfl

theorem onSecretReveal_terms (s : Initiator) (r : SecretRevealed) :
    (s.onSecretReveal r).1.terms = s.terms := by
  unfold onSecretReveal
  split
  · split
    · rfl
    · split
      · rfl
      · rfl
  · rfl

theorem registerSecret_terms (s : Initiator) : s.registerSecret.1.terms = s.terms := by
  unfold registerSecret
  split
  · split
    · rfl
    · rfl
  · rfl

theorem expire_terms (s : Initiator) : s.expire.1.terms = s.terms := by
  unfold expire
  split
  · rfl
  · rfl

theorem onBlock_terms (s : Initiator) (block : Height) :
    (s.onBlock block).1.terms = s.terms := by
  rw [onBlock]
  exact (expire_terms _).trans (registerSecret_terms _)

theorem onChain_terms (s : Initiator) (e : ChainEvent) : (s.onChain e).1.terms = s.terms := by
  unfold onChain
  split
  · split
    · rfl
    · rfl
  · split
    · rfl
    · rfl
  · rfl

theorem step_terms (s : Initiator) (i : Input) : (s.step i).1.terms = s.terms := by
  unfold step
  split
  · rfl
  · split
    · exact onBlock_terms s _
    · exact onRefusal_terms s _
    · exact onSecretRequest_terms s _
    · exact onDisposal_terms s _
    · rfl
    · exact onSecretReveal_terms s _
    · exact onChain_terms s _
    · rfl

end Initiator

namespace Mediator

/-! ### The received lock of a mediator -/

/-- The same lock, received over the same channel, which may have been closed. -/
structure SameDeal (s s' : Mediator) : Prop where
  received : s'.received = s.received
  payerRoute : s'.payerRoute = { s.payerRoute with closedBlock? := s'.payerRoute.closedBlock? }

theorem SameDeal.refl (s : Mediator) : s.SameDeal s := ⟨rfl, rfl⟩

theorem SameDeal.trans {s s' s'' : Mediator} (h : s.SameDeal s') (h' : s'.SameDeal s'') :
    s.SameDeal s'' where
  received := h'.received.trans h.received
  payerRoute := by
    rw [h'.payerRoute, h.payerRoute]

theorem tryNextRoute_sameDeal (s : Mediator) : s.SameDeal s.tryNextRoute.1 := by
  unfold tryNextRoute
  split
  · exact ⟨rfl, rfl⟩
  · exact ⟨rfl, rfl⟩

theorem abandonRoute_sameDeal (s : Mediator) : s.SameDeal s.abandonRoute.1 := by
  unfold abandonRoute
  split
  · rename_i r hr
    -- Routes to the payee come and go, and the route to the payer stays.
    have hcancel : s.SameDeal { s with routes := s.routes.cancel r, payeeRoute? := none } :=
      ⟨rfl, rfl⟩
    exact hcancel.trans (tryNextRoute_sameDeal _)
  · exact tryNextRoute_sameDeal s

theorem onRefusal_sameDeal (s : Mediator) (refusal : RouteRefusal) :
    s.SameDeal (s.onRefusal refusal).1 := by
  unfold onRefusal
  split
  · exact abandonRoute_sameDeal s
  · exact SameDeal.refl s

theorem onDisposal_sameDeal (s : Mediator) (d : LockDisposed) :
    s.SameDeal (s.onDisposal d).1 := by
  unfold onDisposal
  split
  · exact abandonRoute_sameDeal s
  · exact SameDeal.refl s

theorem checkPayerDeadline_sameDeal (s : Mediator) : s.SameDeal s.checkPayerDeadline.1 := by
  unfold checkPayerDeadline
  split
  · split
    · exact ⟨rfl, rfl⟩
    · exact SameDeal.refl s
  · exact SameDeal.refl s

theorem learnSecret_sameDeal (s : Mediator) (secret : Secret) :
    s.SameDeal (s.learnSecret secret).1 := by
  -- Learning the secret may be followed by a look at the deadline.
  have hlearned : s.SameDeal
      { s with secret? := some secret, status := .waitingSecretPropagation } := ⟨rfl, rfl⟩
  exact hlearned.trans (checkPayerDeadline_sameDeal _)

theorem onSecretReveal_sameDeal (s : Mediator) (r : SecretRevealed) :
    s.SameDeal (s.onSecretReveal r).1 := by
  unfold onSecretReveal
  split
  · exact SameDeal.refl s
  · split
    · exact SameDeal.refl s
    · exact learnSecret_sameDeal s r.secret

theorem onProof_sameDeal (s : Mediator) (p : ProofReceived) : s.SameDeal (s.onProof p).1 := by
  unfold onProof
  split
  · exact SameDeal.refl s
  · split
    · exact ⟨rfl, rfl⟩
    · exact SameDeal.refl s

theorem removeDownstream_sameDeal (s : Mediator) : s.SameDeal s.removeDownstream.1 := by
  unfold removeDownstream
  split
  · split
    · exact ⟨rfl, rfl⟩
    · exact SameDeal.refl s
  · exact SameDeal.refl s

theorem expire_sameDeal (s : Mediator) : s.SameDeal s.expire.1 := by
  unfold expire
  split
  · exact ⟨rfl, rfl⟩
  · exact SameDeal.refl s

theorem onBlock_sameDeal (s : Mediator) (block : Height) : s.SameDeal (s.onBlock block).1 := by
  have hblock : s.SameDeal { s with blockNumber := block } := ⟨rfl, rfl⟩
  unfold onBlock
  dsimp only
  split
  -- The status decides which deadlines a block is compared with.
  · exact hblock.trans ((removeDownstream_sameDeal _).trans (expire_sameDeal _))
  · exact hblock.trans (checkPayerDeadline_sameDeal _)
  · exact hblock

theorem onChain_sameDeal (s : Mediator) (e : ChainEvent) : s.SameDeal (s.onChain e).1 := by
  unfold onChain
  split
  · split
    · exact ⟨rfl, rfl⟩
    · exact ⟨rfl, rfl⟩
  · split
    · exact learnSecret_sameDeal s _
    · exact SameDeal.refl s
  · exact SameDeal.refl s

theorem step_sameDeal (s : Mediator) (i : Input) : s.SameDeal (s.step i).1 := by
  unfold step
  split
  · exact SameDeal.refl s
  · split
    · exact onBlock_sameDeal s _
    · exact onRefusal_sameDeal s _
    · exact onDisposal_sameDeal s _
    · exact SameDeal.refl s
    · exact onSecretReveal_sameDeal s _
    · exact onProof_sameDeal s _
    · exact onChain_sameDeal s _
    · exact SameDeal.refl s

end Mediator

namespace Target

/-! ### The received lock of a target -/

/-- The same lock, received over the same channel. The secret may be known by now,
    and the channel closed. -/
structure SameDeal (s s' : Target) : Prop where
  terms : s'.terms = { s.terms with secret? := s'.terms.secret? }
  payerRoute : s'.payerRoute = { s.payerRoute with closedBlock? := s'.payerRoute.closedBlock? }

theorem SameDeal.refl (s : Target) : s.SameDeal s := ⟨rfl, rfl⟩

theorem SameDeal.trans {s s' s'' : Target} (h : s.SameDeal s') (h' : s'.SameDeal s'') :
    s.SameDeal s'' where
  terms := by
    rw [h'.terms, h.terms]
  payerRoute := by
    rw [h'.payerRoute, h.payerRoute]

theorem checkUnlockDeadline_sameDeal (s : Target) : s.SameDeal s.checkUnlockDeadline.1 := by
  unfold checkUnlockDeadline
  split
  · split
    · exact ⟨rfl, rfl⟩
    · exact SameDeal.refl s
  · exact SameDeal.refl s

theorem learnSecret_sameDeal (s : Target) (secret : Secret) :
    s.SameDeal (s.learnSecret secret).1 := by
  -- The secret is the one part of the terms that a target adds to.
  have hlearned : s.SameDeal
      { s with terms := { s.terms with secret? := some secret }, status := .waitingUnlock } :=
    ⟨rfl, rfl⟩
  exact hlearned.trans (checkUnlockDeadline_sameDeal _)

theorem onSecretReveal_sameDeal (s : Target) (r : SecretRevealed) :
    s.SameDeal (s.onSecretReveal r).1 := by
  unfold onSecretReveal
  split
  · exact SameDeal.refl s
  · exact learnSecret_sameDeal s r.secret

theorem onProof_sameDeal (s : Target) (p : ProofReceived) : s.SameDeal (s.onProof p).1 := by
  unfold onProof
  split
  · exact SameDeal.refl s
  · split
    · exact ⟨rfl, rfl⟩
    · exact SameDeal.refl s

theorem expire_sameDeal (s : Target) : s.SameDeal s.expire.1 := by
  unfold expire
  split
  · exact ⟨rfl, rfl⟩
  · exact SameDeal.refl s

theorem onBlock_sameDeal (s : Target) (block : Height) : s.SameDeal (s.onBlock block).1 := by
  have hblock : s.SameDeal { s with blockNumber := block } := ⟨rfl, rfl⟩
  unfold onBlock
  dsimp only
  split
  · exact hblock.trans (expire_sameDeal _)
  · exact hblock.trans (expire_sameDeal _)
  · exact hblock.trans (checkUnlockDeadline_sameDeal _)
  · exact hblock

theorem onChain_sameDeal (s : Target) (e : ChainEvent) : s.SameDeal (s.onChain e).1 := by
  unfold onChain
  split
  · split
    · exact ⟨rfl, rfl⟩
    · exact SameDeal.refl s
  · split
    · exact learnSecret_sameDeal s _
    · exact SameDeal.refl s
  · exact SameDeal.refl s

theorem step_sameDeal (s : Target) (i : Input) : s.SameDeal (s.step i).1 := by
  unfold step
  split
  · exact SameDeal.refl s
  · split
    · exact onBlock_sameDeal s _
    · exact onSecretReveal_sameDeal s _
    · exact onProof_sameDeal s _
    · exact onChain_sameDeal s _
    · exact SameDeal.refl s

end Target

/-- A lock that a peer offered us on a channel. -/
structure Offer where
  sender : Address
  channelId : ChannelId
  lock : Lock
deriving DecidableEq

namespace Transfer

/-! ### What a transfer is about -/

/-- The offer that the transfer began with. An initiator received none. -/
def offer? : Transfer → Option Offer
  | initiator _ => none
  | mediator s => some ⟨s.payerRoute.node, s.payerRoute.channelId, s.received.lock⟩
  | target s => some ⟨s.payerRoute.node, s.payerRoute.channelId, s.terms.lock⟩

/-- Does the transfer know the secret and wait for its payer to unlock? -/
def awaitsUnlock : Transfer → Bool
  | initiator _ => false
  | mediator s => decide (s.status = .waitingSecretPropagation)
  | target s => decide (s.status = .waitingUnlock)

/-- Did the transfer end with its lock unlocked? -/
def isCompleted : Transfer → Bool
  | initiator s => decide (s.status = .completed)
  | mediator s => decide (s.status = .completed)
  | target s => decide (s.status = .completed)

/-- Does the transfer wait for this node to unlock? -/
def Expects (t : Transfer) (sender : Address) : Prop :=
  t.awaitsUnlock = true ∧ ∃ o, t.offer? = some o ∧ o.sender = sender

theorem isTerminal_of_isCompleted {t : Transfer} (h : t.isCompleted = true) :
    t.isTerminal = true := by
  cases t with
  | initiator s => rw [isTerminal, of_decide_eq_true h, InitiatorStatus.isTerminal]
  | mediator s => rw [isTerminal, of_decide_eq_true h, MediatorStatus.isTerminal]
  | target s => rw [isTerminal, of_decide_eq_true h, TargetStatus.isTerminal]

theorem secretHash_of_offer? {t : Transfer} {o : Offer} (h : t.offer? = some o) :
    o.lock.secretHash = t.secretHash := by
  cases t with
  | initiator s => cases h
  | mediator s =>
      cases h
      rfl
  | target s =>
      cases h
      rfl

theorem step_role (t : Transfer) (i : Input) : (t.step i).1.role = t.role := by
  cases t with
  | initiator s => rfl
  | mediator s => rfl
  | target s => rfl

theorem step_secretHash (t : Transfer) (i : Input) : (t.step i).1.secretHash = t.secretHash := by
  cases t with
  | initiator s => exact congrArg TransferTerms.secretHash (s.step_terms i)
  | mediator s => exact congrArg TransferTerms.secretHash (s.step_sameDeal i).received
  | target s =>
      have h := congrArg TransferTerms.secretHash (s.step_sameDeal i).terms
      exact h

theorem offer?_of_mediator_sameDeal {s s' : Mediator} (h : s.SameDeal s') :
    (mediator s').offer? = (mediator s).offer? := by
  have hnode := congrArg Route.node h.payerRoute
  have hchannel := congrArg Route.channelId h.payerRoute
  have hlock := congrArg TransferTerms.lock h.received
  rw [offer?, offer?, Option.some.injEq, Offer.mk.injEq]
  exact ⟨hnode, hchannel, hlock⟩

theorem offer?_of_target_sameDeal {s s' : Target} (h : s.SameDeal s') :
    (target s').offer? = (target s).offer? := by
  have hnode := congrArg Route.node h.payerRoute
  have hchannel := congrArg Route.channelId h.payerRoute
  have hlock := congrArg TransferTerms.lock h.terms
  rw [offer?, offer?, Option.some.injEq, Offer.mk.injEq]
  exact ⟨hnode, hchannel, hlock⟩

theorem step_offer? (t : Transfer) (i : Input) : (t.step i).1.offer? = t.offer? := by
  cases t with
  | initiator s => rfl
  | mediator s => exact offer?_of_mediator_sameDeal (s.step_sameDeal i)
  | target s => exact offer?_of_target_sameDeal (s.step_sameDeal i)

/-- The network that the transfer is in. -/
def tokenNetwork : Transfer → Address
  | initiator s => s.terms.tokenNetwork
  | mediator s => s.received.tokenNetwork
  | target s => s.terms.tokenNetwork

theorem step_tokenNetwork (t : Transfer) (i : Input) :
    (t.step i).1.tokenNetwork = t.tokenNetwork := by
  cases t with
  | initiator s => exact congrArg TransferTerms.tokenNetwork (s.step_terms i)
  | mediator s => exact congrArg TransferTerms.tokenNetwork (s.step_sameDeal i).received
  | target s =>
      have h := congrArg TransferTerms.tokenNetwork (s.step_sameDeal i).terms
      exact h

end Transfer

namespace Effect

/-- Does the effect leave the channels alone? -/
def isQuiet : Effect → Bool
  | sendLockedTransfer .. => false
  | sendUnlock .. => false
  | sendLockRemoval .. => false
  | _ => true

end Effect

namespace Transfer

/-! ### The unlock of a payer -/

/-- An unlock of the node that it waits for completes a transfer. Which of the
    node's channels the unlock came over is not asked. -/
theorem step_unlock_of_expects {t : Transfer} {sender : Address} (u : Unlock)
    (h : t.Expects sender) :
    (t.step (.proofReceived ⟨sender, t.secretHash, .unlock u⟩)).1.isCompleted = true ∧
    (t.step (.proofReceived ⟨sender, t.secretHash, .unlock u⟩)).2.all Effect.isQuiet = true := by
  rcases h with ⟨hawaits, o, ho, rfl⟩
  cases t with
  | initiator s => cases hawaits
  | mediator s =>
      cases ho
      -- The check compares the sender and the hash of the secret, and both agree.
      have hstatus : s.status = .waitingSecretPropagation := of_decide_eq_true hawaits
      simp [step, Mediator.step, hstatus, MediatorStatus.isTerminal, Mediator.onProof, secretHash,
        isCompleted]
  | target s =>
      cases ho
      have hstatus : s.status = .waitingUnlock := of_decide_eq_true hawaits
      simp [step, Target.step, hstatus, TargetStatus.isTerminal, Target.onProof, secretHash,
        isCompleted, Effect.isQuiet]

/-- Any other unlock is ignored. -/
theorem step_unlock_of_not_expects {t : Transfer} {sender : Address} (u : Unlock)
    (h : ¬ t.Expects sender) :
    t.step (.proofReceived ⟨sender, t.secretHash, .unlock u⟩) = (t, []) := by
  cases t with
  | initiator s =>
      -- An initiator pays and is not paid, so no status makes a difference.
      cases hstatus : s.status <;> simp [step, Initiator.step, hstatus,
        InitiatorStatus.isTerminal]
  | mediator s =>
      by_cases hawaits : s.status = .waitingSecretPropagation
      -- A mediator that waits is unlocked by its payer only.
      · have hsender : sender ≠ s.payerRoute.node := by
          intro heq
          exact h ⟨decide_eq_true hawaits, _, rfl, heq.symm⟩
        simp [step, Mediator.step, hawaits, MediatorStatus.isTerminal, Mediator.onProof, hsender]
      · cases hstatus : s.status <;> simp_all [step, Mediator.step, MediatorStatus.isTerminal]
  | target s =>
      by_cases hawaits : s.status = .waitingUnlock
      · have hsender : sender ≠ s.payerRoute.node := by
          intro heq
          exact h ⟨decide_eq_true hawaits, _, rfl, heq.symm⟩
        simp [step, Target.step, hawaits, TargetStatus.isTerminal, Target.onProof, hsender]
      · cases hstatus : s.status <;> simp_all [step, Target.step, TargetStatus.isTerminal]

end Transfer

end PaymentNetwork

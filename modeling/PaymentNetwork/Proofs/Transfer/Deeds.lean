import PaymentNetwork.Proofs.Transfer.Mediation

/-!
# What a Transfer Does to Collect

The deeds of a transfer: the calls of the ledger that it asks for, and the report that
a payment was received.

Everything else that a transfer asks for can be taken back or does no harm. A deed
spends what the lock is worth, so it has to be known whose lock it is for. A mediator
and a target claim the lock that they began with, in the channel that they began in,
and an initiator, who has no lock to claim, can only register a secret. Only a target
receives, and what it reports is its own payment.

## Main definitions

* `Deed`, `Effect.deeds`: Deeds, as they are asked for.
* `Target.receipt`: The report of a received payment.
* `Transfer.claimDeeds`: The deeds of a claim.
* `Transfer.Owns`: The deed is for the lock of this transfer.

## Theorems

* `Transfer.step_routeRefused_deeds`: A refusal is answered without a deed.
* `Transfer.step_deeds`: A transfer does its own deeds only.
* `Transfer.step_proofReceived_deeds`: A change of the payer's end is no cause for one.
-/

namespace PaymentNetwork

/-- Something that a node does to collect a payment. -/
inductive Deed where
  | call (c : ChainCall)
  | received (r : ReceivedTransfer)
deriving DecidableEq

namespace Effect

/-- The deed that the effect asks for, if it asks for one. -/
def deed? : Effect → Option Deed
  | call c => some (.call c)
  | receivedSuccess paymentId tokenNetwork initiator amount secretHash =>
    some (.received ⟨paymentId, tokenNetwork, initiator, amount, secretHash⟩)
  | _ => none

/-- The deeds that some effects ask for. -/
def deeds (es : List Effect) : List Deed := es.filterMap deed?

theorem deeds_append (es fs : List Effect) : deeds (es ++ fs) = deeds es ++ deeds fs :=
  List.filterMap_append

theorem deeds_of_no_secret {es : List Effect} (h : ∀ e ∈ es, e.needsSecret = false) :
    deeds es = [] := by
  refine List.filterMap_eq_nil_iff.mpr (fun e he => ?_)
  have hneeds := h e he
  -- Each deed needs the secret, so these effects hold none.
  cases e with
  | call c => cases hneeds
  | receivedSuccess => cases hneeds
  | _ => rfl

end Effect

/-! ### Beginnings and refusals -/

theorem Initiator.tryNextRoute_deeds (s : Initiator) : Effect.deeds s.tryNextRoute.2 = [] := by
  unfold Initiator.tryNextRoute
  split
  · rfl
  · rfl

theorem Initiator.abandonRoute_deeds (s : Initiator) : Effect.deeds s.abandonRoute.2 = [] := by
  unfold Initiator.abandonRoute
  split
  · exact Initiator.tryNextRoute_deeds _
  · exact Initiator.tryNextRoute_deeds s

theorem Initiator.onRefusal_deeds (s : Initiator) (refusal : RouteRefusal) :
    Effect.deeds (s.onRefusal refusal).2 = [] := by
  unfold Initiator.onRefusal
  split
  · exact Initiator.abandonRoute_deeds s
  · rfl

theorem Initiator.start_deeds (a : StartInitiator) (block : Height) :
    Effect.deeds (Initiator.start a block).2 = [] := by
  unfold Initiator.start
  dsimp only
  split
  · rfl
  · split
    · rfl
    · exact Initiator.tryNextRoute_deeds _

theorem Target.start_deeds (a : StartTarget) (block : Height) :
    Effect.deeds (Target.start a block).2 = [] := by
  unfold Target.start
  dsimp only
  split
  · rfl
  · rfl

theorem Target.step_routeRefused (s : Target) (refusal : RouteRefusal) :
    s.step (.routeRefused refusal) = (s, []) := by
  unfold Target.step
  split
  · rfl
  · rfl

namespace Transfer

/-- A refusal is answered without a deed. -/
theorem step_routeRefused_deeds (t : Transfer) (refusal : RouteRefusal) :
    Effect.deeds (t.step (.routeRefused refusal)).2 = [] := by
  cases t with
  | initiator s =>
      change Effect.deeds (s.step (.routeRefused refusal)).2 = []
      rw [Initiator.step_routeRefused]
      split
      · exact s.onRefusal_deeds refusal
      · rfl
  | mediator s =>
      change Effect.deeds (s.step (.routeRefused refusal)).2 = []
      rw [Mediator.step_routeRefused]
      split
      · rename_i hstatus
        -- A mediator is refused a route only before it knows the secret.
        have hunaware : s.status.knowsSecret = false := by
          rw [hstatus]
          rfl
        exact Effect.deeds_of_no_secret (Mediator.onRefusal_uninformed hunaware refusal).quiet
      · rfl
  | target s =>
      change Effect.deeds (s.step (.routeRefused refusal)).2 = []
      rw [Target.step_routeRefused]
      rfl

end Transfer

/-! ### Whose deeds they are -/

namespace Initiator

theorem expire_deeds (s : Initiator) : Effect.deeds s.expire.2 = [] := by
  unfold expire
  split
  · -- The reports and the removal of the lock are no deeds.
    rw [Effect.deeds_append]
    unfold removal
    split
    · split
      · rfl
      · rfl
    · rfl
  · rfl

theorem registerSecret_deeds (s : Initiator) :
    Effect.deeds s.registerSecret.2 = [] ∨
    ∃ secret deadline,
      Effect.deeds s.registerSecret.2 = [.call (.registerSecret secret deadline)] := by
  unfold registerSecret
  split
  · split
    · exact Or.inr ⟨_, _, rfl⟩
    · exact Or.inl rfl
  · exact Or.inl rfl

theorem onDisposal_deeds (s : Initiator) (d : LockDisposed) :
    Effect.deeds (s.onDisposal d).2 = [] := by
  unfold onDisposal
  split
  · rfl
  · split
    · rfl
    · exact abandonRoute_deeds s

theorem onSecretRequest_deeds (s : Initiator) (r : SecretRequested) :
    Effect.deeds (s.onSecretRequest r).2 = [] := by
  unfold onSecretRequest
  dsimp only
  split
  · split
    · rfl
    · rfl
  · rfl

theorem onSecretReveal_deeds (s : Initiator) (r : SecretRevealed) :
    Effect.deeds (s.onSecretReveal r).2 = [] := by
  unfold onSecretReveal
  split
  · split
    · rfl
    · split
      · rfl
      · rfl
  · rfl

theorem onChain_deeds (s : Initiator) (e : ChainEvent) : Effect.deeds (s.onChain e).2 = [] := by
  unfold onChain
  split
  · split
    · rfl
    · rfl
  · split
    · rfl
    · rfl
  · rfl

/-- An initiator can only register a secret. -/
theorem step_deeds (s : Initiator) (i : Input) :
    Effect.deeds (s.step i).2 = [] ∨
    ∃ secret deadline, Effect.deeds (s.step i).2 = [.call (.registerSecret secret deadline)] := by
  unfold step
  split
  · exact Or.inl rfl
  · split
    · unfold onBlock
      dsimp only
      rw [Effect.deeds_append, expire_deeds, List.append_nil]
      exact registerSecret_deeds _
    · exact Or.inl (onRefusal_deeds s _)
    · exact Or.inl (onSecretRequest_deeds s _)
    · exact Or.inl (onDisposal_deeds s _)
    · exact Or.inl rfl
    · exact Or.inl (onSecretReveal_deeds s _)
    · exact Or.inl (onChain_deeds s _)
    · exact Or.inl rfl

end Initiator

namespace Mediator

/-- The deeds of a claim do not depend on how far the transfer got. -/
theorem checkPayerDeadline_deeds (s : Mediator) :
    Effect.deeds s.checkPayerDeadline.2 = [] ∨
    ∃ secret, Effect.deeds s.checkPayerDeadline.2 = Effect.deeds (s.claim secret) := by
  unfold checkPayerDeadline
  split
  · split
    · exact Or.inr ⟨_, rfl⟩
    · exact Or.inl rfl
  · exact Or.inl rfl

theorem learnSecret_deeds (s : Mediator) (secret : Secret) :
    Effect.deeds (s.learnSecret secret).2
      = Effect.deeds (checkPayerDeadline
          { s with secret? := some secret, status := .waitingSecretPropagation }).2 := by
  rw [learnSecret_snd, Effect.deeds_append]
  -- Showing the secret and passing it on is not yet a claim.
  have hpaid : Effect.deeds (.sendSecretReveal s.payerRoute.node secret :: s.payPayee secret)
      = [] := by
    rcases payPayee_cases s secret with heq | ⟨r, t, -, -, -, heq⟩
    · rw [heq]
      rfl
    · rw [heq]
      rfl
  rw [hpaid, List.nil_append]

/-- A mediator can only claim the lock that it received. -/
theorem step_deeds (s : Mediator) (i : Input) :
    Effect.deeds (s.step i).2 = [] ∨
    ∃ secret, Effect.deeds (s.step i).2 = Effect.deeds (s.claim secret) := by
  rcases s.step_cases i with hterminal | hwaiting | ⟨hforwarded, htold⟩ | ⟨secret, hlearns⟩
  · rw [step_of_isTerminal hterminal]
    exact Or.inl rfl
  · rcases step_waiting_cases hwaiting i with ⟨number, -, heq⟩ | ⟨-, heq⟩ | ⟨-, hwaits⟩
    · rw [heq]
      exact checkPayerDeadline_deeds { s with blockNumber := number }
    · rw [heq]
      exact Or.inl rfl
    · exact Or.inl (Effect.deeds_of_no_secret hwaits.quiet)
  · exact Or.inl (Effect.deeds_of_no_secret (step_uninformed hforwarded htold).quiet)
  · rw [hlearns.step_eq, learnSecret_deeds]
    exact checkPayerDeadline_deeds
      { s with secret? := some secret, status := .waitingSecretPropagation }

theorem step_proofReceived_deeds (s : Mediator) (p : ProofReceived) :
    Effect.deeds (s.step (.proofReceived p)).2 = [] := by
  -- A proof counts only while the payer is waited for.
  have hstep : s.step (.proofReceived p) = (s, []) ∨
      s.step (.proofReceived p) = s.onProof p := by
    unfold step
    cases s.status with
    | waitingSecretPropagation => exact Or.inr rfl
    | _ => exact Or.inl rfl
  rcases hstep with heq | heq
  · rw [heq]
    rfl
  · rw [heq]
    unfold onProof
    split
    · rfl
    · split
      · rfl
      · rfl

end Mediator

namespace Target

/-- The report that the payment was received. -/
def receipt (s : Target) : ReceivedTransfer :=
  ⟨s.terms.paymentId, s.terms.tokenNetwork, s.terms.initiator, s.terms.amount,
    s.terms.secretHash⟩

theorem SameDeal.receipt {s s' : Target} (h : s.SameDeal s') : s'.receipt = s.receipt := by
  rw [Target.receipt, h.terms]
  rfl

/-- What a target does to collect: it reports its payment, or claims its lock. -/
def OwnDeed (s : Target) (d : Deed) : Prop :=
  d = .received s.receipt ∨ ∃ secret, d ∈ Effect.deeds (s.claim secret)

theorem checkUnlockDeadline_deeds (s : Target) {d : Deed}
    (hd : d ∈ Effect.deeds s.checkUnlockDeadline.2) : s.OwnDeed d := by
  rcases checkUnlockDeadline_cases s with heq | ⟨secret, -, heq⟩
  · rw [heq] at hd
    cases hd
  · rw [heq] at hd
    exact Or.inr ⟨secret, hd⟩

theorem learnSecret_deeds (s : Target) (secret : Secret) {d : Deed}
    (hd : d ∈ Effect.deeds (s.learnSecret secret).2) : s.OwnDeed d := by
  have hsnd : Effect.deeds (s.learnSecret secret).2
      = .received s.receipt :: Effect.deeds (checkUnlockDeadline { s with
          terms := { s.terms with secret? := some secret }, status := .waitingUnlock }).2 := rfl
  rw [hsnd, List.mem_cons] at hd
  rcases hd with heq | hd
  · exact Or.inl heq
  · exact checkUnlockDeadline_deeds { s with
      terms := { s.terms with secret? := some secret }, status := .waitingUnlock } hd

theorem expire_deeds (s : Target) : Effect.deeds s.expire.2 = [] := by
  unfold expire
  split
  · rfl
  · rfl

theorem Keeps.deeds {s : Target} {r : Target × List Effect} (h : s.Keeps r) :
    Effect.deeds r.2 = [] := by
  refine Effect.deeds_of_no_secret (fun e he => ?_)
  rcases h.notices e he with ⟨level, info, rfl⟩
  rfl

/-- A target reports its own payment, and claims its own lock. -/
theorem step_deeds (s : Target) (i : Input) {d : Deed} (hd : d ∈ Effect.deeds (s.step i).2) :
    s.OwnDeed d := by
  rcases s.step_cases i with ⟨number, -, -, heq⟩ | ⟨number, -, -, heq⟩ | ⟨secret, -, heq⟩ |
    ⟨-, heq⟩ | hkeeps
  · rw [heq, expire_deeds] at hd
    cases hd
  · rw [heq] at hd
    have hown := checkUnlockDeadline_deeds _ hd
    exact hown
  · rw [heq] at hd
    exact learnSecret_deeds s secret hd
  · rw [heq] at hd
    cases hd
  · rw [hkeeps.deeds] at hd
    cases hd

theorem step_proofReceived_deeds (s : Target) (p : ProofReceived) :
    Effect.deeds (s.step (.proofReceived p)).2 = [] := by
  have hstep : s.step (.proofReceived p) = (s, []) ∨
      s.step (.proofReceived p) = s.onProof p := by
    unfold step
    cases s.status with
    | waitingUnlock => exact Or.inr rfl
    | _ => exact Or.inl rfl
  rcases hstep with heq | heq
  · rw [heq]
    rfl
  · rw [heq]
    rcases s.onProof_cases p with hdone | hkeeps
    · rw [hdone]
      rfl
    · exact hkeeps.deeds

end Target

namespace Transfer

/-- Is the deed for this transfer? Registering a secret is for nobody in particular. -/
def Owns (t : Transfer) : Deed → Prop
  | .received r => ∃ s, t = target s ∧ r = s.receipt
  | .call (.registerSecret _ _) => True
  | .call (.closeChannel network id partner _) => ∃ o, t.offer? = some o ∧
      network = t.tokenNetwork ∧ id = o.channelId ∧ partner = o.sender
  | .call (.unlock network id partner secretHash _) => ∃ o, t.offer? = some o ∧
      network = t.tokenNetwork ∧ id = o.channelId ∧ partner = o.sender ∧
      secretHash = o.lock.secretHash

/-- No fact changes which deeds are for a transfer. -/
theorem owns_of_step (t : Transfer) (i : Input) {d : Deed} (h : (t.step i).1.Owns d) :
    t.Owns d := by
  cases d with
  | received r =>
      cases t with
      | initiator s =>
          obtain ⟨s', heq, -⟩ := h
          cases heq
      | mediator s =>
          obtain ⟨s', heq, -⟩ := h
          cases heq
      | target s =>
          obtain ⟨s', heq, hr⟩ := h
          have hs : s' = (s.step i).1 := Transfer.target.inj heq.symm
          refine ⟨s, rfl, hr.trans ?_⟩
          rw [hs]
          exact (s.step_sameDeal i).receipt
  | call c =>
      -- The other deeds are judged by the lock and the channel of the beginning.
      have hoffer := t.step_offer? i
      have hnetwork := t.step_tokenNetwork i
      cases c with
      | closeChannel =>
          rw [Owns, hoffer, hnetwork] at h
          exact h
      | unlock =>
          rw [Owns, hoffer, hnetwork] at h
          exact h
      | _ => exact h

/-- The deeds of a claim of the lock that the transfer began with. -/
def claimDeeds (t : Transfer) (o : Offer) (secret : Secret) (closed : Bool)
    (deadline unlockDeadline : Height) : List Deed :=
  [.call (.registerSecret secret deadline)]
    ++ (if closed then [] else
      [.call (.closeChannel t.tokenNetwork o.channelId o.sender deadline)])
    ++ [.call (.unlock t.tokenNetwork o.channelId o.sender o.lock.secretHash unlockDeadline)]

theorem owns_of_mem_claimDeeds {t : Transfer} {o : Offer} (ho : t.offer? = some o)
    {secret : Secret} {closed : Bool} {deadline unlockDeadline : Height} {d : Deed}
    (hd : d ∈ t.claimDeeds o secret closed deadline unlockDeadline) : t.Owns d := by
  rw [claimDeeds, List.mem_append, List.mem_append, List.mem_singleton, List.mem_singleton] at hd
  rcases hd with (rfl | hd) | rfl
  · trivial
  · -- The channel is only closed if it was not closed before.
    split at hd
    · cases hd
    · rw [List.mem_singleton] at hd
      rw [hd]
      exact ⟨o, ho, rfl, rfl, rfl⟩
  · exact ⟨o, ho, rfl, rfl, rfl, rfl⟩

theorem mediator_claim_deeds (s : Mediator) (secret : Secret) :
    Effect.deeds (s.claim secret)
      = (mediator s).claimDeeds ⟨s.payerRoute.node, s.payerRoute.channelId, s.received.lock⟩ secret
        s.payerOnChain (s.received.expiration.satSub 1)
        ((s.received.expiration.satSub 1).satAdd s.payerRoute.settleTimeout) := by
  unfold Mediator.claim claimDeeds
  cases s.payerOnChain with
  | false => rfl
  | true => rfl

theorem target_claim_deeds (s : Target) (secret : Secret) :
    Effect.deeds (s.claim secret)
      = (target s).claimDeeds ⟨s.payerRoute.node, s.payerRoute.channelId, s.terms.lock⟩ secret
        s.payerOnChain (s.terms.expiration.satSub 1)
        ((s.terms.expiration.satSub 1).satAdd s.payerRoute.settleTimeout) := by
  unfold Target.claim claimDeeds
  cases s.payerOnChain with
  | false => rfl
  | true => rfl

/-- A transfer does its own deeds only. -/
theorem step_deeds (t : Transfer) (i : Input) {d : Deed} (hd : d ∈ Effect.deeds (t.step i).2) :
    t.Owns d := by
  cases t with
  | initiator s =>
      have hd' : d ∈ Effect.deeds (s.step i).2 := hd
      rcases s.step_deeds i with hnone | ⟨secret, deadline, hone⟩
      · rw [hnone] at hd'
        cases hd'
      · rw [hone, List.mem_singleton] at hd'
        rw [hd']
        trivial
  | mediator s =>
      have hd' : d ∈ Effect.deeds (s.step i).2 := hd
      rcases s.step_deeds i with hnone | ⟨secret, hclaim⟩
      · rw [hnone] at hd'
        cases hd'
      · rw [hclaim, mediator_claim_deeds] at hd'
        exact owns_of_mem_claimDeeds rfl hd'
  | target s =>
      rcases s.step_deeds i hd with rfl | ⟨secret, hclaim⟩
      · exact ⟨s, rfl, rfl⟩
      · rw [target_claim_deeds] at hclaim
        exact owns_of_mem_claimDeeds rfl hclaim

/-- A change of the payer's end is no cause for a deed. -/
theorem step_proofReceived_deeds (t : Transfer) (p : ProofReceived) :
    Effect.deeds (t.step (.proofReceived p)).2 = [] := by
  cases t with
  | initiator s =>
      have hstep : s.step (.proofReceived p) = (s, []) := by
        unfold Initiator.step
        split
        · rfl
        · rfl
      change Effect.deeds (s.step (.proofReceived p)).2 = []
      rw [hstep]
      rfl
  | mediator s => exact s.step_proofReceived_deeds p
  | target s => exact s.step_proofReceived_deeds p

end Transfer

end PaymentNetwork

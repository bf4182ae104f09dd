import PaymentNetwork.Proofs.Transfer.Deadline
import PaymentNetwork.Proofs.Transfer.Deeds

/-!
# The Deadline of a Transfer

A transfer in progress knows what time it is, and has time left.

How long a transfer may still wait depends on what it waits for. Without the secret
it may wait until its lock expires. With the secret it has to leave the payer of the
lock a reveal timeout less, since the ledger has to be told in time. A transfer that
reaches its deadline does not wait any longer: it is over with the same block.

So the deadline is in the future for as long as a transfer is in progress, and this
needs a look at every way of getting there. Trying another route does not change the
lock. Learning the secret moves the deadline to an earlier block, which may have
passed already, and then the claim is made at once. A claim that was made in time is
made before the last block at which the secret can be registered, if no block was
left out for longer than the reveal timeout.

## Main definitions

* `Transfer.blockNumber`, `Transfer.expiration`: The clock of a transfer, and the end of
  its lock.
* `Transfer.deadline`: Until when a transfer may wait for what it waits for.
* `Transfer.Current`: The clock shows a block, and the deadline is after it.
* `Transfer.payerTimeout?`: The reveal timeout of the channel with the payer.

## Theorems

* `Initiator.step_blockNumber`, `Mediator.step_blockNumber`, `Target.step_blockNumber`:
  Only a block moves the clock.
* `Transfer.Current.step`: A fact leaves the deadline after the block.
* `Transfer.current_initiator_start`, `Transfer.current_mediator_start`,
  `Transfer.current_target_start`: A transfer that begins has time left.
* `Transfer.Current.registers_inTime`: A secret is registered before the lock expires.
-/

namespace PaymentNetwork

namespace Input

/-- Only a block moves the clock. -/
theorem clock_of_ne {i : Input} (h : ∀ number, i = .block number → False) (now : Height) :
    i.clock now = now := by
  cases i with
  | block number => cases h number rfl
  | _ => rfl

/-- Hearing of a block twice makes no difference to the clock. -/
theorem clock_clock (i : Input) (now : Height) : i.clock (i.clock now) = i.clock now := by
  cases i with
  | _ => rfl

end Input

/-! ### The clock of an initiator -/

namespace Initiator

variable (s : Initiator)

theorem tryNextRoute_blockNumber : s.tryNextRoute.1.blockNumber = s.blockNumber := by
  unfold tryNextRoute
  split
  · rfl
  · rfl

theorem abandonRoute_blockNumber : s.abandonRoute.1.blockNumber = s.blockNumber := by
  unfold abandonRoute
  split
  · exact tryNextRoute_blockNumber _
  · exact tryNextRoute_blockNumber s

theorem onRefusal_blockNumber (refusal : RouteRefusal) :
    (s.onRefusal refusal).1.blockNumber = s.blockNumber := by
  unfold onRefusal
  split
  · exact abandonRoute_blockNumber s
  · rfl

theorem onDisposal_blockNumber (d : LockDisposed) :
    (s.onDisposal d).1.blockNumber = s.blockNumber := by
  unfold onDisposal
  split
  · rfl
  · split
    · rfl
    · exact abandonRoute_blockNumber s

theorem onSecretRequest_blockNumber (r : SecretRequested) :
    (s.onSecretRequest r).1.blockNumber = s.blockNumber := by
  unfold onSecretRequest
  dsimp only
  split
  · split
    · rfl
    · rfl
  · rfl

theorem onSecretReveal_blockNumber (r : SecretRevealed) :
    (s.onSecretReveal r).1.blockNumber = s.blockNumber := by
  unfold onSecretReveal
  split
  · split
    · rfl
    · split
      · rfl
      · rfl
  · rfl

theorem registerSecret_blockNumber : s.registerSecret.1.blockNumber = s.blockNumber := by
  unfold registerSecret
  split
  · split
    · rfl
    · rfl
  · rfl

theorem expire_blockNumber : s.expire.1.blockNumber = s.blockNumber := by
  unfold expire
  split
  · rfl
  · rfl

theorem onBlock_blockNumber (block : Height) : (s.onBlock block).1.blockNumber = block := by
  rw [onBlock]
  exact (expire_blockNumber _).trans (registerSecret_blockNumber _)

theorem onChain_blockNumber (e : ChainEvent) :
    (s.onChain e).1.blockNumber = s.blockNumber := by
  unfold onChain
  split
  · split
    · rfl
    · rfl
  · split
    · rfl
    · rfl
  · rfl

/-- A fact moves the clock to the block that it leaves announced. -/
theorem step_blockNumber {s : Initiator} (h : ¬ s.status.isTerminal = true) (i : Input) :
    (s.step i).1.blockNumber = i.clock s.blockNumber := by
  unfold step
  rw [if_neg h]
  split
  · exact onBlock_blockNumber s _
  · exact onRefusal_blockNumber s _
  · exact onSecretRequest_blockNumber s _
  · exact onDisposal_blockNumber s _
  · rfl
  · exact onSecretReveal_blockNumber s _
  · exact onChain_blockNumber s _
  · rename_i hblock _ _ _ _ _ _
    exact (Input.clock_of_ne hblock _).symm

end Initiator

/-! ### The clock of a mediator -/

namespace Mediator

variable (s : Mediator)

theorem tryNextRoute_blockNumber : s.tryNextRoute.1.blockNumber = s.blockNumber := by
  unfold tryNextRoute
  split
  · rfl
  · rfl

theorem abandonRoute_blockNumber : s.abandonRoute.1.blockNumber = s.blockNumber := by
  unfold abandonRoute
  split
  · exact tryNextRoute_blockNumber _
  · exact tryNextRoute_blockNumber s

theorem onRefusal_blockNumber (refusal : RouteRefusal) :
    (s.onRefusal refusal).1.blockNumber = s.blockNumber := by
  unfold onRefusal
  split
  · exact abandonRoute_blockNumber s
  · rfl

theorem onDisposal_blockNumber (d : LockDisposed) :
    (s.onDisposal d).1.blockNumber = s.blockNumber := by
  unfold onDisposal
  split
  · exact abandonRoute_blockNumber s
  · rfl

theorem checkPayerDeadline_blockNumber : s.checkPayerDeadline.1.blockNumber = s.blockNumber := by
  unfold checkPayerDeadline
  split
  · split
    · rfl
    · rfl
  · rfl

theorem learnSecret_blockNumber (secret : Secret) :
    (s.learnSecret secret).1.blockNumber = s.blockNumber := by
  rw [learnSecret_fst]
  exact checkPayerDeadline_blockNumber _

theorem onSecretReveal_blockNumber (r : SecretRevealed) :
    (s.onSecretReveal r).1.blockNumber = s.blockNumber := by
  unfold onSecretReveal
  split
  · rfl
  · split
    · rfl
    · exact learnSecret_blockNumber s r.secret

theorem onProof_blockNumber (p : ProofReceived) :
    (s.onProof p).1.blockNumber = s.blockNumber := by
  unfold onProof
  split
  · rfl
  · split
    · rfl
    · rfl

theorem expire_blockNumber : s.expire.1.blockNumber = s.blockNumber := by
  unfold expire
  split
  · rfl
  · rfl

theorem onBlock_blockNumber (block : Height) : (s.onBlock block).1.blockNumber = block := by
  unfold onBlock
  dsimp only
  split
  · exact (expire_blockNumber _).trans (removeDownstream_received _).2
  · exact checkPayerDeadline_blockNumber _
  · rfl

theorem onChain_blockNumber (e : ChainEvent) :
    (s.onChain e).1.blockNumber = s.blockNumber := by
  unfold onChain
  split
  · split
    · rfl
    · rfl
  · split
    · exact learnSecret_blockNumber s _
    · rfl
  · rfl

theorem step_blockNumber {s : Mediator} (h : ¬ s.status.isTerminal = true) (i : Input) :
    (s.step i).1.blockNumber = i.clock s.blockNumber := by
  unfold step
  rw [if_neg h]
  split
  · exact onBlock_blockNumber s _
  · exact onRefusal_blockNumber s _
  · exact onDisposal_blockNumber s _
  · rfl
  · exact onSecretReveal_blockNumber s _
  · exact onProof_blockNumber s _
  · exact onChain_blockNumber s _
  · rename_i hblock _ _ _ _ _ _
    exact (Input.clock_of_ne hblock _).symm

end Mediator

/-! ### The clock of a target -/

namespace Target

variable (s : Target)

theorem checkUnlockDeadline_blockNumber :
    s.checkUnlockDeadline.1.blockNumber = s.blockNumber := by
  rcases s.checkUnlockDeadline_cases with heq | ⟨secret, -, heq⟩
  · rw [heq]
  · rw [heq]

theorem learnSecret_blockNumber (secret : Secret) :
    (s.learnSecret secret).1.blockNumber = s.blockNumber := by
  rw [learnSecret_fst]
  exact checkUnlockDeadline_blockNumber _

theorem onSecretReveal_blockNumber (r : SecretRevealed) :
    (s.onSecretReveal r).1.blockNumber = s.blockNumber := by
  unfold onSecretReveal
  split
  · rfl
  · exact learnSecret_blockNumber s r.secret

theorem onProof_blockNumber (p : ProofReceived) :
    (s.onProof p).1.blockNumber = s.blockNumber := by
  unfold onProof
  split
  · rfl
  · split
    · rfl
    · rfl

theorem expire_blockNumber : s.expire.1.blockNumber = s.blockNumber := by
  unfold expire
  split
  · rfl
  · rfl

theorem onBlock_blockNumber (block : Height) : (s.onBlock block).1.blockNumber = block := by
  unfold onBlock
  dsimp only
  split
  · exact expire_blockNumber _
  · exact expire_blockNumber _
  · exact checkUnlockDeadline_blockNumber _
  · rfl

theorem onChain_blockNumber (e : ChainEvent) :
    (s.onChain e).1.blockNumber = s.blockNumber := by
  unfold onChain
  split
  · split
    · rfl
    · rfl
  · split
    · exact learnSecret_blockNumber s _
    · rfl
  · rfl

theorem step_blockNumber {s : Target} (h : ¬ s.status.isTerminal = true) (i : Input) :
    (s.step i).1.blockNumber = i.clock s.blockNumber := by
  unfold step
  rw [if_neg h]
  split
  · exact onBlock_blockNumber s _
  · exact onSecretReveal_blockNumber s _
  · exact onProof_blockNumber s _
  · exact onChain_blockNumber s _
  · rename_i hblock _ _ _
    exact (Input.clock_of_ne hblock _).symm

end Target

/-! ### Until when a transfer may wait -/

namespace Transfer

/-- The block that the transfer saw last. -/
def blockNumber : Transfer → Height
  | initiator s => s.blockNumber
  | mediator s => s.blockNumber
  | target s => s.blockNumber

/-- The expiration of the lock that the transfer is about. -/
def expiration : Transfer → Height
  | initiator s => s.terms.expiration
  | mediator s => s.received.expiration
  | target s => s.terms.expiration

/-- Until when the transfer may wait. A mediator and a target that know the secret go
    to the ledger a reveal timeout before the lock of their payer expires. -/
def deadline : Transfer → Height
  | initiator s => s.terms.expiration
  | mediator s =>
    match s.status with
    | .waitingSecretPropagation => s.received.expiration.satSub s.payerRoute.revealTimeout
    | _ => s.received.expiration
  | target s =>
    match s.status with
    | .waitingUnlock => s.terms.expiration.satSub s.payerRoute.revealTimeout
    | _ => s.terms.expiration

/-- The reveal timeout of the channel with the payer, if there is a payer. -/
def payerTimeout? : Transfer → Option Height
  | initiator _ => none
  | mediator s => some s.payerRoute.revealTimeout
  | target s => some s.payerRoute.revealTimeout

/-- The transfer is over, or it saw the block and its deadline is later. -/
structure Current (now : Height) (t : Transfer) : Prop where
  prepared : t.Prepared
  clock : ¬ t.isTerminal = true → t.blockNumber = now
  onTime : ¬ t.isTerminal = true → now < t.deadline

/-! ### A fact leaves time -/

section Deadline

theorem deadline_of_waiting {s : Mediator} (h : s.status = .waitingSecretPropagation) :
    (mediator s).deadline = s.payerDeadline := by
  rw [deadline, h]
  rfl

theorem deadline_of_not_waiting {s : Mediator} (h : s.status ≠ .waitingSecretPropagation) :
    (mediator s).deadline = s.received.expiration := by
  rw [deadline]
  split
  · rename_i hwaiting
    exact absurd hwaiting h
  · rfl

theorem deadline_of_waitingUnlock {s : Target} (h : s.status = .waitingUnlock) :
    (target s).deadline = s.unlockDeadline := by
  rw [deadline, h]
  rfl

theorem deadline_of_not_waitingUnlock {s : Target} (h : s.status ≠ .waitingUnlock) :
    (target s).deadline = s.terms.expiration := by
  rw [deadline]
  split
  · rename_i hwaiting
    exact absurd hwaiting h
  · rfl

/-- No transfer waits longer than its lock lasts. -/
theorem deadline_le_expiration (t : Transfer) : t.deadline ≤ t.expiration := by
  cases t with
  | initiator s => exact Nat.le_refl _
  | mediator s =>
      rw [deadline]
      split
      · exact Nat.sub_le _ _
      · exact Nat.le_refl _
  | target s =>
      rw [deadline]
      split
      · exact Nat.sub_le _ _
      · exact Nat.le_refl _

end Deadline

end Transfer

namespace Initiator

variable {s : Initiator} {now : Height}

/-- An initiator gives up when its lock expires. -/
theorem step_block_isTerminal {number : Height} (h : s.terms.expiration ≤ number) :
    (s.step (.block number)).1.status.isTerminal = true := by
  by_cases hterminal : s.status.isTerminal = true
  · rw [step_of_isTerminal hterminal]
    exact hterminal
  · have hstep : s.step (.block number) = s.onBlock number := by
      unfold step
      exact if_neg hterminal
    -- Registering the secret comes first, and changes neither clock nor terms.
    have hexpired : (registerSecret { s with blockNumber := number }).1.terms.expiration
        ≤ (registerSecret { s with blockNumber := number }).1.blockNumber := by
      rw [registerSecret_terms, registerSecret_blockNumber]
      exact h
    rw [hstep, onBlock]
    dsimp only
    rw [expire, if_pos hexpired]
    rfl

theorem step_onTime (h : now < s.terms.expiration) (i : Input)
    (hprogress : ¬ (s.step i).1.status.isTerminal = true) :
    i.clock now < (s.step i).1.terms.expiration := by
  rw [step_terms]
  cases i with
  | block number =>
      exact Word.not_le.mp (fun hexpired => hprogress (step_block_isTerminal hexpired))
  | _ => exact h

end Initiator

namespace Mediator

variable {s : Mediator} {now : Height}

/-- A mediator with the secret waits for its payer until the payer's deadline. -/
theorem checkPayerDeadline_onTime (hstatus : s.status = .waitingSecretPropagation)
    (hsecret : s.secret?.isSome = true)
    (hprogress : ¬ s.checkPayerDeadline.1.status.isTerminal = true) :
    s.blockNumber < (Transfer.mediator s.checkPayerDeadline.1).deadline := by
  obtain ⟨secret, hsecret⟩ := Option.isSome_iff_exists.mp hsecret
  by_cases hdue : s.payerDeadline ≤ s.blockNumber
  · rw [checkPayerDeadline_of_le hstatus hsecret hdue] at hprogress
    exact absurd rfl hprogress
  · have hearly := Word.not_le.mp hdue
    rw [checkPayerDeadline_of_lt hearly, Transfer.deadline_of_waiting hstatus]
    exact hearly

theorem step_onTime (hprepared : s.Prepared) (hclock : s.blockNumber = now)
    (htime : now < (Transfer.mediator s).deadline) (i : Input)
    (hprogress : ¬ (s.step i).1.status.isTerminal = true) :
    i.clock now < (Transfer.mediator (s.step i).1).deadline := by
  have hdeal := step_sameDeal s i
  -- Over, waiting with the secret, still without it, or about to learn it.
  rcases s.step_cases i with hterminal | hwaiting | ⟨hforwarded, htold⟩ | ⟨secret, hlearns⟩
  · rw [step_of_isTerminal hterminal] at hprogress
    exact absurd hterminal hprogress
  · rcases step_waiting_cases hwaiting i with ⟨number, rfl, heq⟩ | ⟨-, heq⟩ | ⟨-, hwaits⟩
    · rw [heq] at hprogress ⊢
      exact checkPayerDeadline_onTime (s := { s with blockNumber := number }) hwaiting
        (hprepared hwaiting) hprogress
    · rw [heq] at hprogress
      exact absurd rfl hprogress
    · -- The mediator goes on waiting, and the deadline is the same.
      have hsame : (s.step i).1.payerDeadline = s.payerDeadline := by
        rw [payerDeadline, hdeal.received, hdeal.payerRoute]
        rfl
      rw [hwaits.clock, Transfer.deadline_of_waiting hwaits.status, hsame]
      rwa [Transfer.deadline_of_waiting hwaiting] at htime
  · -- Without the secret the deadline is the expiration.
    have hunaware := step_uninformed hforwarded htold
    have hstill : (s.step i).1.status ≠ .waitingSecretPropagation := by
      intro hwaiting
      cases (congrArg MediatorStatus.knowsSecret hwaiting).symm.trans hunaware.status
    rw [Transfer.deadline_of_not_waiting hstill, hdeal.received]
    cases i with
    | block number =>
        exact Word.not_le.mp (fun hexpired => hprogress (step_block_isTerminal hprepared hexpired))
    | _ =>
        exact Nat.lt_of_lt_of_le htime (Transfer.deadline_le_expiration (.mediator s))
  · -- The secret moves the deadline, maybe to a block that passed already.
    have hstands : i.clock now = now :=
      Input.clock_of_ne (fun number heq => by subst heq; cases hlearns.2) now
    rw [hlearns.step_eq, learnSecret_fst] at hprogress ⊢
    rw [hstands, ← hclock]
    exact checkPayerDeadline_onTime
      (s := { s with secret? := some secret, status := .waitingSecretPropagation }) rfl rfl
      hprogress

end Mediator

namespace Target

variable {s : Target} {now : Height}

/-- A target with the secret waits for its payer until the payer's deadline. -/
theorem checkUnlockDeadline_onTime (hstatus : s.status = .waitingUnlock)
    (hsecret : s.terms.secret?.isSome = true)
    (hprogress : ¬ s.checkUnlockDeadline.1.status.isTerminal = true) :
    s.blockNumber < (Transfer.target s.checkUnlockDeadline.1).deadline := by
  obtain ⟨secret, hsecret⟩ := Option.isSome_iff_exists.mp hsecret
  by_cases hdue : s.unlockDeadline ≤ s.blockNumber
  · rw [checkUnlockDeadline_of_le hstatus hsecret hdue] at hprogress
    exact absurd rfl hprogress
  · have hearly := Word.not_le.mp hdue
    have hneg : ¬ (s.status = .waitingUnlock ∧ s.unlockDeadline ≤ s.blockNumber) :=
      fun h => hdue h.2
    have heq : s.checkUnlockDeadline = (s, []) := by
      simp only [checkUnlockDeadline, hsecret, if_neg hneg]
    rw [heq, Transfer.deadline_of_waitingUnlock hstatus]
    exact hearly

theorem expire_onTime (hstatus : s.status ≠ .waitingUnlock)
    (hprogress : ¬ s.expire.1.status.isTerminal = true) :
    s.blockNumber < (Transfer.target s.expire.1).deadline := by
  by_cases hexpired : s.terms.expiration ≤ s.blockNumber
  · rw [expire, if_pos hexpired] at hprogress
    exact absurd rfl hprogress
  · rw [expire, if_neg hexpired, Transfer.deadline_of_not_waitingUnlock hstatus]
    exact Word.not_le.mp hexpired

/-- On a block, a target compares it with the deadline for what it waits for. -/
theorem step_block_eq (h : ¬ s.status.isTerminal = true) (number : Height) :
    s.step (.block number) =
      if s.status = .waitingUnlock then checkUnlockDeadline { s with blockNumber := number }
      else expire { s with blockNumber := number } := by
  rw [step_block h, onBlock]
  cases hstatus : s.status with
  | idle => rfl
  | requestedSecret => rfl
  | waitingUnlock => rfl
  | completed => exact absurd (congrArg TargetStatus.isTerminal hstatus) h
  | expired => exact absurd (congrArg TargetStatus.isTerminal hstatus) h

theorem step_onTime (hprepared : s.Prepared) (hclock : s.blockNumber = now)
    (htime : now < (Transfer.target s).deadline) (i : Input)
    (hprogress : ¬ (s.step i).1.status.isTerminal = true) :
    i.clock now < (Transfer.target (s.step i).1).deadline := by
  have hdeal := step_sameDeal s i
  have hbefore : ¬ s.status.isTerminal = true := by
    intro hterminal
    rw [step_of_isTerminal hterminal] at hprogress
    exact hprogress hterminal
  -- A block is compared with the deadline, and nothing else moves the clock.
  by_cases hblock : ∃ number, i = .block number
  · obtain ⟨number, rfl⟩ := hblock
    rw [step_block_eq hbefore] at hprogress ⊢
    split at hprogress
    · rename_i hstatus
      rw [if_pos hstatus]
      exact checkUnlockDeadline_onTime (s := { s with blockNumber := number }) hstatus
        (hprepared hstatus) hprogress
    · rename_i hstatus
      rw [if_neg hstatus]
      exact expire_onTime (s := { s with blockNumber := number }) hstatus hprogress
  · rw [Input.clock_of_ne (fun number heq => hblock ⟨number, heq⟩) now]
    rcases s.step_cases i with ⟨number, rfl, -⟩ | ⟨number, rfl, -⟩ | ⟨secret, -, heq⟩ |
      ⟨-, heq⟩ | hkeeps
    · exact absurd ⟨number, rfl⟩ hblock
    · exact absurd ⟨number, rfl⟩ hblock
    · -- The secret moves the deadline, maybe to a block that passed already.
      rw [heq, learnSecret_fst] at hprogress ⊢
      rw [← hclock]
      exact checkUnlockDeadline_onTime (s := { s with
        terms := { s.terms with secret? := some secret }, status := .waitingUnlock }) rfl rfl
        hprogress
    · rw [heq] at hprogress
      exact absurd rfl hprogress
    · have hroute : (s.step i).1.payerRoute.revealTimeout = s.payerRoute.revealTimeout := by
        rw [hdeal.payerRoute]
      have hsame : (Transfer.target (s.step i).1).deadline = (Transfer.target s).deadline := by
        rw [Transfer.deadline, Transfer.deadline, hkeeps.status, hkeeps.terms, hroute]
      rwa [hsame]

end Target

namespace Transfer

section Current

variable {t : Transfer} {now : Height}

/-- Nothing happens to a transfer that is over. -/
theorem step_of_isTerminal (h : t.isTerminal = true) (i : Input) : t.step i = (t, []) := by
  cases t with
  | initiator s => exact congrArg (Prod.map initiator id) (Initiator.step_of_isTerminal h i)
  | mediator s => exact congrArg (Prod.map mediator id) (Mediator.step_of_isTerminal h i)
  | target s => exact congrArg (Prod.map target id) (Target.step_of_isTerminal h i)

theorem step_blockNumber (h : ¬ t.isTerminal = true) (i : Input) :
    (t.step i).1.blockNumber = i.clock t.blockNumber := by
  cases t with
  | initiator s => exact Initiator.step_blockNumber h i
  | mediator s => exact Mediator.step_blockNumber h i
  | target s => exact Target.step_blockNumber h i

/-- A fact leaves a transfer over, or with time until its deadline. -/
theorem Current.step (h : t.Current now) (i : Input) : (t.step i).1.Current (i.clock now) := by
  by_cases hterminal : t.isTerminal = true
  · -- Whoever is over stays so.
    have hover : (t.step i).1.isTerminal = true := by
      rw [step_of_isTerminal hterminal]
      exact hterminal
    exact ⟨h.prepared.step i, fun hprogress => absurd hover hprogress,
      fun hprogress => absurd hover hprogress⟩
  · have hclock := h.clock hterminal
    have htime := h.onTime hterminal
    refine ⟨h.prepared.step i, fun _ => ?_, fun hprogress => ?_⟩
    · rw [step_blockNumber hterminal, hclock]
    · cases t with
      | initiator s => exact Initiator.step_onTime htime i hprogress
      | mediator s => exact Mediator.step_onTime h.prepared hclock htime i hprogress
      | target s => exact Target.step_onTime h.prepared hclock htime i hprogress

/-- No fact changes the reveal timeout of the payer. -/
theorem step_payerTimeout? (t : Transfer) (i : Input) :
    (t.step i).1.payerTimeout? = t.payerTimeout? := by
  cases t with
  | initiator s => rfl
  | mediator s =>
      change some (s.step i).1.payerRoute.revealTimeout = some s.payerRoute.revealTimeout
      rw [(s.step_sameDeal i).payerRoute]
  | target s =>
      change some (s.step i).1.payerRoute.revealTimeout = some s.payerRoute.revealTimeout
      rw [(s.step_sameDeal i).payerRoute]

end Current

end Transfer

/-! ### Registering a secret in time -/

namespace Initiator

theorem registerSecret_of_mem_deeds {s : Initiator} {secret : Secret} {deadline : Height}
    (h : .call (.registerSecret secret deadline) ∈ Effect.deeds s.registerSecret.2) :
    deadline = s.terms.expiration.satSub 1 ∧ s.blockNumber < s.terms.expiration := by
  unfold registerSecret at h
  split at h
  · rename_i known hknown
    split at h
    · rename_i hmust
      rw [mustRegister, Bool.and_eq_true] at hmust
      have heq : Deed.call (.registerSecret secret deadline)
          = .call (.registerSecret known (s.terms.expiration.satSub 1)) := List.mem_singleton.mp h
      cases heq
      exact ⟨rfl, of_decide_eq_true hmust.2⟩
    · cases h
  · cases h

/-- An initiator that registers its secret does so before its lock expires. -/
theorem registers_of_mem_deeds {s : Initiator} {i : Input} {secret : Secret} {deadline : Height}
    (h : .call (.registerSecret secret deadline) ∈ Effect.deeds (s.step i).2) :
    deadline = s.terms.expiration.satSub 1 ∧
      ∃ number, i = .block number ∧ number < s.terms.expiration := by
  unfold step at h
  split at h
  · cases h
  · split at h
    · rename_i number
      rw [onBlock] at h
      dsimp only at h
      rw [Effect.deeds_append, expire_deeds, List.append_nil] at h
      obtain ⟨hdeadline, htime⟩ := registerSecret_of_mem_deeds h
      exact ⟨hdeadline, number, rfl, htime⟩
    · rw [onRefusal_deeds] at h
      cases h
    · rw [onSecretRequest_deeds] at h
      cases h
    · rw [onDisposal_deeds] at h
      cases h
    · cases h
    · rw [onSecretReveal_deeds] at h
      cases h
    · rw [onChain_deeds] at h
      cases h
    · cases h

end Initiator

namespace Transfer

variable {t : Transfer} {now : Height} {i : Input} {secret : Secret} {last : Height}

theorem registerSecret_of_mem_claimDeeds {o : Offer} {secret' : Secret} {closed : Bool}
    {deadline unlockDeadline : Height}
    (h : .call (.registerSecret secret last)
      ∈ t.claimDeeds o secret' closed deadline unlockDeadline) : last = deadline := by
  rw [claimDeeds, List.mem_append, List.mem_append, List.mem_singleton, List.mem_singleton] at h
  rcases h with (h | h) | h
  · cases h
    rfl
  · split at h
    · cases h
    · cases List.mem_singleton.mp h
  · cases h

/-- A secret is to be registered before the block at which the lock expires. -/
theorem registerSecret_deadline
    (h : .call (.registerSecret secret last) ∈ Effect.deeds (t.step i).2) :
    last = t.expiration.satSub 1 := by
  cases t with
  | initiator s => exact (Initiator.registers_of_mem_deeds h).1
  | mediator s =>
      have hmem : .call (.registerSecret secret last) ∈ Effect.deeds (s.step i).2 := h
      rcases s.step_deeds i with hnone | ⟨secret', hclaim⟩
      · rw [hnone] at hmem
        cases hmem
      · rw [hclaim, mediator_claim_deeds] at hmem
        exact registerSecret_of_mem_claimDeeds hmem
  | target s =>
      rcases s.step_deeds i h with heq | ⟨secret', hclaim⟩
      · cases heq
      · rw [target_claim_deeds] at hclaim
        exact registerSecret_of_mem_claimDeeds hclaim

/-- On a block, only a transfer that knows the secret goes to the ledger. -/
theorem awaitsUnlock_of_block {number : Height} {payerTimeout : Height}
    (hpayer : t.payerTimeout? = some payerTimeout) (hprogress : ¬ t.isTerminal = true)
    (h : .call (.registerSecret secret last) ∈ Effect.deeds (t.step (.block number)).2) :
    t.awaitsUnlock = true := by
  cases t with
  | initiator s => cases hpayer
  | mediator s =>
      have hmem : .call (.registerSecret secret last)
        ∈ Effect.deeds (s.step (.block number)).2 := h
      rcases s.step_cases (.block number) with
        hterminal | hwaiting | ⟨hforwarded, htold⟩ | ⟨secret', hlearns⟩
      · exact absurd hterminal hprogress
      · exact decide_eq_true hwaiting
      · rw [Effect.deeds_of_no_secret (Mediator.step_uninformed hforwarded htold).quiet] at hmem
        cases hmem
      · cases hlearns.2
  | target s =>
      have hmem : .call (.registerSecret secret last)
        ∈ Effect.deeds (s.step (.block number)).2 := h
      rw [Target.step_block_eq hprogress] at hmem
      split at hmem
      · rename_i hstatus
        exact decide_eq_true hstatus
      · rw [Target.expire_deeds] at hmem
        cases hmem

/-- With the secret, the deadline is a reveal timeout before the expiration. -/
theorem deadline_of_awaitsUnlock {payerTimeout : Height}
    (hpayer : t.payerTimeout? = some payerTimeout) (h : t.awaitsUnlock = true) :
    t.deadline = t.expiration.satSub payerTimeout := by
  cases t with
  | initiator s => cases hpayer
  | mediator s =>
      cases hpayer
      exact deadline_of_waiting (of_decide_eq_true h)
  | target s =>
      cases hpayer
      exact deadline_of_waitingUnlock (of_decide_eq_true h)

/-- A secret is registered at a block at which it still may be, unless the blocks
    skipped more than the reveal timeout of the payer. -/
theorem Current.registers_inTime (h : t.Current now)
    (hpace : ∀ payerTimeout, t.payerTimeout? = some payerTimeout →
      (i.clock now).val ≤ now.val + payerTimeout.val)
    (hmem : .call (.registerSecret secret last) ∈ Effect.deeds (t.step i).2) :
    i.clock now ≤ last := by
  have hprogress : ¬ t.isTerminal = true := by
    intro hterminal
    rw [step_of_isTerminal hterminal] at hmem
    cases hmem
  have htime := h.onTime hprogress
  -- Registering is asked for before the expiration, whichever fact asks for it.
  have hearly : (i.clock now).val < t.expiration.val := by
    by_cases hblock : ∃ number, i = .block number
    · obtain ⟨number, rfl⟩ := hblock
      cases hpayer : t.payerTimeout? with
      | none =>
          cases t with
          | initiator s =>
              have hstep : .call (.registerSecret secret last)
                ∈ Effect.deeds (s.step (.block number)).2 := hmem
              obtain ⟨-, number', heq, hlt⟩ := Initiator.registers_of_mem_deeds hstep
              cases heq
              exact hlt
          | mediator s => cases hpayer
          | target s => cases hpayer
      | some payerTimeout =>
          -- The claim was not due at the block before, which is not long ago.
          have hwaits := awaitsUnlock_of_block hpayer hprogress hmem
          have hsoon := hpace payerTimeout hpayer
          rw [deadline_of_awaitsUnlock hpayer hwaits, Word.lt_iff, Word.val_satSub] at htime
          omega
    · rw [Input.clock_of_ne (fun number heq => hblock ⟨number, heq⟩) now]
      exact Nat.lt_of_lt_of_le htime t.deadline_le_expiration
  rw [registerSecret_deadline hmem, Word.le_iff, Word.val_satSub]
  have hone : (1 : Height).val = 1 := rfl
  omega

end Transfer

/-! ### Transfers that begin -/

namespace Transfer

/-- A payment that is not given up at once has time left. -/
theorem current_initiator_start (a : StartInitiator) (block : Height) :
    (initiator (Initiator.start a block).1).Current block := by
  unfold Initiator.start
  dsimp only
  split
  · exact ⟨trivial, fun h => absurd rfl h, fun h => absurd rfl h⟩
  · split
    · exact ⟨trivial, fun h => absurd rfl h, fun h => absurd rfl h⟩
    · rename_i hearly
      refine ⟨trivial, fun _ => Initiator.tryNextRoute_blockNumber _, fun _ => ?_⟩
      rw [deadline, Initiator.tryNextRoute_terms]
      exact Word.not_le.mp hearly

/-- A lock that was accepted before it expired leaves a mediator time. -/
theorem current_mediator_start {a : StartMediator} {block : Height}
    (h : block < a.message.lock.expiration) :
    (mediator (Mediator.start a block).1).Current block := by
  have hstart := Mediator.start_uninformed a block
  have hstatus : (Mediator.start a block).1.status ≠ .waitingSecretPropagation := by
    intro hwaiting
    cases (congrArg MediatorStatus.knowsSecret hwaiting).symm.trans hstart.status
  refine ⟨Mediator.prepared_of_ne hstatus, fun _ => hstart.blockNumber, fun _ => ?_⟩
  rw [deadline_of_not_waiting hstatus, (Mediator.start_ofDeal a block).received]
  exact h

theorem current_target_start {a : StartTarget} {block : Height}
    (h : block < a.message.lock.expiration) :
    (target (Target.start a block).1).Current block := by
  unfold Target.start
  dsimp only
  split
  · exact ⟨Target.prepared_of_ne (fun hwaiting => nomatch hwaiting), fun _ => rfl, fun _ => h⟩
  · exact ⟨Target.prepared_of_ne (fun hwaiting => nomatch hwaiting), fun _ => rfl, fun _ => h⟩

end Transfer

end PaymentNetwork

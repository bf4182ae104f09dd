import PaymentNetwork.Proofs.Transfer.Deadline

/-!
# Being Paid

A target that learned the secret is paid, and paid once.

The secret reaches a target in two states and by two ways. A target that asked for
it is shown it by a peer or reads it on the ledger. One that gave its lock up as too
late does not listen to peers, yet the ledger may tell it all the same, and then the
time of the payer is over already. Whatever the order, learning is one transition:
it reports the payment, shows the payer the secret, and looks at the clock. From
there on the lock cannot expire on the target. Either the payer unlocks, or the block
that begins the payer's reveal timeout takes the lock to the ledger, and both are the
end of the transfer.

So a run falls into three parts again. As long as the secret is unknown nothing is
reported and nothing is asked of the ledger, but the clock and the payer's channel
are followed. The fact that tells the secret leaves the target `Owed` or makes the
claim at once. And a target that is owed stays so until one of the two ends comes.

A lock whose secret can be learned expires after the block zero. Otherwise the last
block for the registration of the secret, the one before the expiration, would not
exist.

## Main definitions

* `Effect.receiptCount`, `Effect.isUnlockFailure`: How often a payment is reported as
  received, and that a lock is reported as lost.
* `StartTarget.deadline`, `StartTarget.claimCalls`: When the payer's time is over, and
  what is asked of the ledger then.
* `Target.told?`, `Target.Learns`: The secret that a fact tells a target.
* `Target.stateAfter`, `Target.effectsOf`: A run from the start.
* `Target.Owed`, `Target.debt`: The secret is known, and the payer still has time.
* `Target.ClaimLaw`: What a target does about the secret.

## Theorems

* `Target.step_uninformed`, `Target.run_uninformed`: Without the secret.
* `Target.step_owed`, `Target.step_due`: Steps of a target that waits for its payer.
* `Target.Learns.outcome`: What the fact that tells the secret brings.
* `Target.run_claimLaw`: The law for every run.
-/

namespace PaymentNetwork

namespace Effect

/-- Is the effect the report of a received payment? -/
def isReceipt : Effect → Bool
  | receivedSuccess .. => true
  | _ => false

/-- Is the effect the report of a lock that was not unlocked? -/
def isUnlockFailure : Effect → Bool
  | unlockFailed .. => true
  | _ => false

/-- How often a payment is reported as received among some effects. -/
def receiptCount (es : List Effect) : Nat := es.countP isReceipt

theorem receiptCount_append (es fs : List Effect) :
    receiptCount (es ++ fs) = receiptCount es + receiptCount fs :=
  List.countP_append

theorem receiptCount_of_no_secret {es : List Effect} (h : ∀ e ∈ es, e.needsSecret = false) :
    receiptCount es = 0 := by
  refine List.countP_eq_zero.mpr (fun e he => ?_)
  have hneeds := h e he
  cases e with
  | receivedSuccess => cases hneeds
  | _ => exact Bool.false_ne_true

end Effect

namespace TargetStatus

/-- Can the secret still be learned? -/
def awaitsSecret : TargetStatus → Bool
  | idle => true
  | requestedSecret => true
  | waitingUnlock => false
  | completed => false
  | expired => false

/-- Was the secret learned on the way here? -/
def isPaid : TargetStatus → Bool
  | idle => false
  | requestedSecret => false
  | waitingUnlock => true
  | completed => true
  | expired => false

end TargetStatus

namespace StartTarget

/-- The block at which the payer's time to unlock is over: a reveal timeout before
    its lock expires. -/
def deadline (a : StartTarget) : Height :=
  a.message.lock.expiration.satSub a.payerRoute.revealTimeout

/-- What is asked of the ledger to collect the lock of the payer. A channel that was
    closed is not closed again. -/
def claimCalls (a : StartTarget) (secret : Secret) (closed : Bool) : List ChainCall :=
  let last := a.message.lock.expiration.satSub 1
  let tokenNetwork := a.message.balanceProof.tokenNetwork
  [.registerSecret secret last]
    ++ (if closed then [] else
      [.closeChannel tokenNetwork a.payerRoute.channelId a.payerRoute.node last])
    ++ [.unlock tokenNetwork a.payerRoute.channelId a.payerRoute.node a.message.lock.secretHash
      (last.satAdd a.payerRoute.settleTimeout)]

end StartTarget

namespace Target

/-- The secret that a fact tells, if it is the one of the transfer: shown by a peer to a
    target that asked for it, or registered on the ledger before the lock expired. -/
def told? (s : Target) : Input → Option Secret
  | .secretRevealed r =>
    if s.status = .requestedSecret ∧ r.secretHash = s.terms.secretHash then some r.secret else none
  | .chain (.secretRegistered secret secretHash _) =>
    if secretHash = s.terms.secretHash ∧ s.blockNumber < s.terms.expiration then some secret
    else none
  | _ => none

/-- The fact tells the secret to a target that does not know it. -/
def Learns (s : Target) (i : Input) (secret : Secret) : Prop :=
  s.status.awaitsSecret = true ∧ s.told? i = some secret

/-- The target after some facts, from the start. -/
def stateAfter (a : StartTarget) (block : Height) (inputs : List Input) : Target :=
  Machine.run step (start a block).1 inputs

/-- Everything that was asked for, from the start on. -/
def effectsOf (a : StartTarget) (block : Height) (inputs : List Input) : List Effect :=
  (start a block).2 ++ Machine.effects step (start a block).1 inputs

/-! ### Without the secret -/

/-- What comes of a target that was told no secret: its clock and what it knows of the
    payer's channel are as given, and it asked for nothing that needs the secret. -/
structure Uninformed (now : Height) (closed : Bool) (r : Target × List Effect) : Prop where
  blockNumber : r.1.blockNumber = now
  payerOnChain : r.1.payerOnChain = closed
  status : r.1.status.isPaid = false
  quiet : ∀ e ∈ r.2, e.needsSecret = false

/-- Most facts tell nothing of the payer's channel. -/
theorem Uninformed.or_false {now : Height} {closed : Bool} {r : Target × List Effect}
    (h : Uninformed now closed r) : Uninformed now (closed || false) r := by
  rwa [Bool.or_false]

section Awaiting

variable {s : Target}

theorem isPaid_of_awaitsSecret {status : TargetStatus} (h : status.awaitsSecret = true) :
    status.isPaid = false := by
  cases status with
  | idle => rfl
  | requestedSecret => rfl
  | _ => cases h

/-- The facts that a target without the secret looks at. -/
theorem step_awaiting (h : s.status.awaitsSecret = true) (i : Input) :
    s.step i = match i with
      | .block number => expire { s with blockNumber := number }
      | .secretRevealed r => if s.status = .requestedSecret then s.onSecretReveal r else (s, [])
      | .chain e => s.onChain e
      | _ => (s, []) := by
  unfold step
  -- Both statuses look at the same facts, but for the reveal, which only one of them asked for.
  cases hstatus : s.status with
  | idle =>
      cases i with
      | block number =>
          unfold onBlock
          rw [hstatus]
          rfl
      | _ => rfl
  | requestedSecret =>
      cases i with
      | block number =>
          unfold onBlock
          rw [hstatus]
          rfl
      | _ => rfl
  | _ =>
      rw [hstatus] at h
      cases h

/-- A fact that is ignored. -/
theorem uninformed_self (h : s.status.awaitsSecret = true) :
    Uninformed s.blockNumber s.payerOnChain (s, []) :=
  ⟨rfl, rfl, isPaid_of_awaitsSecret h, List.forall_mem_nil _⟩

theorem expire_uninformed (h : s.status.awaitsSecret = true) :
    Uninformed s.blockNumber s.payerOnChain s.expire := by
  unfold expire
  split
  · exact ⟨rfl, rfl, rfl, by simp [Effect.needsSecret]⟩
  · exact uninformed_self h

/-- An event that tells no secret may tell that the payer's channel was closed. -/
theorem onChain_uninformed (h : s.status.awaitsSecret = true) {e : ChainEvent}
    (htold : s.told? (.chain e) = none) :
    Uninformed s.blockNumber (s.payerOnChain || Input.closes s.payerRoute.channelId (.chain e))
      (s.onChain e) := by
  cases e with
  | channelClosed tokenNetwork channelId closer block =>
      unfold onChain
      dsimp only
      by_cases hid : channelId = s.payerRoute.channelId
      · rw [Input.closes, decide_eq_true hid, Bool.or_true, if_pos hid]
        exact ⟨rfl, rfl, isPaid_of_awaitsSecret h, List.forall_mem_nil _⟩
      · rw [Input.closes, decide_eq_false hid, Bool.or_false, if_neg hid]
        exact uninformed_self h
  | secretRegistered secret secretHash block =>
      rw [told?, ite_eq_right_iff] at htold
      -- It would have been told, so the hash is another one or the lock has expired.
      have hlate : ¬ (secretHash = s.terms.secretHash ∧ s.status ≠ .waitingUnlock
          ∧ s.blockNumber < s.terms.expiration) := by
        rintro ⟨heq, -, htime⟩
        cases htold ⟨heq, htime⟩
      rw [onChain, if_neg hlate]
      exact (uninformed_self h).or_false
  | _ => exact (uninformed_self h).or_false

/-- A target that waits for the secret and is not told it. -/
theorem step_uninformed (h : s.status.awaitsSecret = true) {i : Input}
    (htold : s.told? i = none) :
    Uninformed (i.clock s.blockNumber) (s.payerOnChain || i.closes s.payerRoute.channelId)
      (s.step i) := by
  rw [step_awaiting h]
  cases i with
  | block number => exact (expire_uninformed (s := { s with blockNumber := number }) h).or_false
  | secretRevealed r =>
      dsimp only
      split
      · rename_i hrequested
        rw [told?, ite_eq_right_iff] at htold
        -- It asked for the secret and is not told it, so this is not the right one.
        have hwrong : r.secretHash ≠ s.terms.secretHash := by
          intro heq
          cases htold ⟨hrequested, heq⟩
        rw [onSecretReveal, if_pos hwrong]
        refine Uninformed.or_false ⟨rfl, rfl, isPaid_of_awaitsSecret h, ?_⟩
        simp [Effect.needsSecret, warning]
      · exact (uninformed_self h).or_false
  | chain e => exact onChain_uninformed h htold
  | _ => exact (uninformed_self h).or_false

theorem Learns.step_eq {i : Input} {secret : Secret} (h : s.Learns i secret) :
    s.step i = s.learnSecret secret := by
  rcases h with ⟨hawaits, htold⟩
  rw [step_awaiting hawaits]
  cases i with
  | secretRevealed r =>
      rw [told?, Option.ite_none_right_eq_some, Option.some.injEq] at htold
      rcases htold with ⟨⟨hrequested, hhash⟩, rfl⟩
      dsimp only
      rw [if_pos hrequested, onSecretReveal, if_neg (not_not_intro hhash)]
  | chain e =>
      cases e with
      | secretRegistered secret' secretHash block =>
          rw [told?, Option.ite_none_right_eq_some, Option.some.injEq] at htold
          rcases htold with ⟨⟨hhash, htime⟩, rfl⟩
          have hunknown : s.status ≠ .waitingUnlock := by
            intro hwaiting
            rw [hwaiting] at hawaits
            cases hawaits
          dsimp only
          rw [onChain, if_pos ⟨hhash, hunknown, htime⟩]
      | _ => cases htold
  | _ => cases htold

end Awaiting

/-- A target is over, waits for its payer, goes on without the secret, or learns it. -/
theorem status_cases (s : Target) (i : Input) :
    s.status.isTerminal = true ∨ s.status = .waitingUnlock ∨
    (s.status.awaitsSecret = true ∧ s.told? i = none) ∨
    ∃ secret, s.Learns i secret := by
  have hopen (h : s.status.awaitsSecret = true) :
      (s.status.awaitsSecret = true ∧ s.told? i = none) ∨ ∃ secret, s.Learns i secret := by
    cases htold : s.told? i with
    | none => exact Or.inl ⟨h, rfl⟩
    | some secret => exact Or.inr ⟨secret, h, htold⟩
  cases hstatus : s.status with
  | idle => exact Or.inr (Or.inr (hstatus ▸ hopen (by rw [hstatus]; rfl)))
  | requestedSecret => exact Or.inr (Or.inr (hstatus ▸ hopen (by rw [hstatus]; rfl)))
  | waitingUnlock => exact Or.inr (Or.inl rfl)
  | completed => exact Or.inl rfl
  | expired => exact Or.inl rfl

/-! ### What was agreed at the start -/

/-- The lock that was received and the channel it came over are those of the start. The
    secret is the one part of the terms that may be new. -/
structure OfDeal (a : StartTarget) (s : Target) : Prop where
  terms : s.terms = { TransferTerms.ofMessage a.message with secret? := s.terms.secret? }
  payerRoute : s.payerRoute = { a.payerRoute with closedBlock? := s.payerRoute.closedBlock? }

section Deal

variable {a : StartTarget} {s : Target}

/-- A target takes its transfer on without the secret, and with a lock that it has time
    for if it asks for the secret. -/
theorem start_uninformed (a : StartTarget) (block : Height) :
    Uninformed block false (start a block) ∧ OfDeal a (start a block).1 ∧
      (start a block).1.status.awaitsSecret = true ∧
      ((start a block).1.status = .requestedSecret → 0 < a.message.lock.expiration) := by
  unfold start
  dsimp only
  split
  · refine ⟨⟨rfl, rfl, rfl, ?_⟩, ⟨rfl, rfl⟩, rfl, fun h => nomatch h⟩
    simp [Effect.needsSecret, warning]
  · rename_i htime
    refine ⟨⟨rfl, rfl, rfl, ?_⟩, ⟨rfl, rfl⟩, rfl, fun _ => ?_⟩
    · simp [Effect.needsSecret]
    · exact Nat.lt_of_le_of_lt (Nat.zero_le _) (Word.not_le.mp htime)

theorem OfDeal.step (h : OfDeal a s) (i : Input) : OfDeal a (s.step i).1 := by
  have hdeal := step_sameDeal s i
  refine ⟨?_, ?_⟩
  · rw [hdeal.terms, h.terms]
  · rw [hdeal.payerRoute, h.payerRoute]

theorem OfDeal.channelId (h : OfDeal a s) : s.payerRoute.channelId = a.payerRoute.channelId := by
  rw [h.payerRoute]

theorem OfDeal.node (h : OfDeal a s) : s.payerRoute.node = a.payerRoute.node := by
  rw [h.payerRoute]

theorem OfDeal.expiration (h : OfDeal a s) : s.terms.expiration = a.message.lock.expiration := by
  rw [h.terms]
  rfl

theorem OfDeal.secretHash (h : OfDeal a s) : s.terms.secretHash = a.message.lock.secretHash := by
  rw [h.terms]
  rfl

theorem OfDeal.unlockDeadline (h : OfDeal a s) : s.unlockDeadline = a.deadline := by
  rw [Target.unlockDeadline, h.payerRoute, h.expiration]
  rfl

/-- What the target asks of the ledger is what collects the payer's lock. -/
theorem OfDeal.calls_claim (h : OfDeal a s) (secret : Secret) :
    Effect.calls (s.claim secret) = a.claimCalls secret s.payerOnChain := by
  unfold claim
  rw [h.terms, h.payerRoute]
  cases s.payerOnChain with
  | false => rfl
  | true => rfl

end Deal

/-! ### With the secret -/

/-- What comes of a target that goes on waiting for its payer, at a fact that is no
    block. -/
structure Waits (s : Target) (i : Input) (r : Target × List Effect) : Prop where
  status : r.1.status = .waitingUnlock
  terms : r.1.terms = s.terms
  blockNumber : r.1.blockNumber = s.blockNumber
  clock : ∀ now, i.clock now = now
  payerOnChain : r.1.payerOnChain = (s.payerOnChain || i.closes s.payerRoute.channelId)
  quiet : ∀ e ∈ r.2, e.needsSecret = false

section Waiting

variable {s : Target}

/-- A fact that changes nothing. -/
theorem waits_self (h : s.status = .waitingUnlock) {i : Input}
    (hclock : ∀ now, i.clock now = now) (hcloses : i.closes s.payerRoute.channelId = false)
    {es : List Effect} (hquiet : ∀ e ∈ es, e.needsSecret = false) : Waits s i (s, es) :=
  ⟨h, rfl, rfl, hclock, by rw [hcloses, Bool.or_false], hquiet⟩

theorem onChain_waits (h : s.status = .waitingUnlock) (e : ChainEvent) :
    Waits s (.chain e) (s.onChain e) := by
  cases e with
  | channelClosed tokenNetwork channelId closer block =>
      unfold onChain
      dsimp only
      by_cases hid : channelId = s.payerRoute.channelId
      · rw [if_pos hid]
        refine ⟨h, rfl, rfl, fun _ => rfl, ?_, List.forall_mem_nil _⟩
        rw [Input.closes, decide_eq_true hid, Bool.or_true]
      · have hcloses : Input.closes s.payerRoute.channelId
            (.chain (.channelClosed tokenNetwork channelId closer block)) = false :=
          decide_eq_false hid
        rw [if_neg hid]
        exact waits_self h (fun _ => rfl) hcloses (List.forall_mem_nil _)
  | secretRegistered secret secretHash block =>
      -- The secret is known already.
      have hknown : ¬ (secretHash = s.terms.secretHash ∧ s.status ≠ .waitingUnlock
          ∧ s.blockNumber < s.terms.expiration) := fun hall => hall.2.1 h
      rw [onChain, if_neg hknown]
      exact waits_self h (fun _ => rfl) rfl (List.forall_mem_nil _)
  | _ => exact waits_self h (fun _ => rfl) rfl (List.forall_mem_nil _)

/-- The payer's unlock is the only proof that ends the waiting. -/
theorem onProof_waiting (h : s.status = .waitingUnlock) (p : ProofReceived) :
    (Input.proofReceived p).isUnlockOf s.payerRoute.node s.terms.secretHash = true ∨
    Waits s (.proofReceived p) (s.onProof p) := by
  rcases p with ⟨sender, secretHash, message⟩
  unfold onProof
  by_cases hpayer : sender = s.payerRoute.node ∧ secretHash = s.terms.secretHash
  · have hours : ¬ (sender ≠ s.payerRoute.node ∨ secretHash ≠ s.terms.secretHash) := by
      rintro (hne | hne)
      · exact hne hpayer.1
      · exact hne hpayer.2
    rw [if_neg hours]
    cases message with
    | unlock u => exact Or.inl (decide_eq_true hpayer)
    | removal m =>
        exact Or.inr (waits_self h (fun _ => rfl) rfl (by simp [Effect.needsSecret]))
  · have hother : sender ≠ s.payerRoute.node ∨ secretHash ≠ s.terms.secretHash :=
      Decidable.not_and_iff_not_or_not.mp hpayer
    rw [if_pos hother]
    exact Or.inr (waits_self h (fun _ => rfl) rfl (List.forall_mem_nil _))

/-- A target that waits for its payer looks at the clock on every block, and otherwise
    goes on waiting unless the payer unlocks. -/
theorem step_waiting_cases (h : s.status = .waitingUnlock) (i : Input) :
    (∃ number, i = .block number ∧
      s.step i = checkUnlockDeadline { s with blockNumber := number }) ∨
    i.isUnlockOf s.payerRoute.node s.terms.secretHash = true ∨
    Waits s i (s.step i) := by
  have hstep : s.step i = match i with
      | .block number => checkUnlockDeadline { s with blockNumber := number }
      | .proofReceived p => s.onProof p
      | .chain e => s.onChain e
      | _ => (s, []) := by
    unfold step onBlock
    rw [h]
    cases i <;> rfl
  rw [hstep]
  cases i with
  | block number => exact Or.inl ⟨number, rfl, rfl⟩
  | proofReceived p => exact Or.inr (onProof_waiting h p)
  | chain e => exact Or.inr (Or.inr (onChain_waits h e))
  | _ => exact Or.inr (Or.inr (waits_self h (fun _ => rfl) rfl (List.forall_mem_nil _)))

theorem checkUnlockDeadline_of_lt (h : s.blockNumber < s.unlockDeadline) :
    s.checkUnlockDeadline = (s, []) := by
  unfold checkUnlockDeadline
  split
  · exact if_neg (fun hdue => absurd hdue.2 (Word.not_le.mpr h))
  · rfl

end Waiting

/-! ### What is paid stays paid -/

/-- The payment stays received: it is not reported again, and the lock is not given
    up. -/
structure StaysPaid (r : Target × List Effect) : Prop where
  status : r.1.status.isPaid = true
  receipts : Effect.receiptCount r.2 = 0
  failures : ∀ e ∈ r.2, e.isUnlockFailure = false

section Paid

variable {s : Target}

theorem claim_reports_nothing (s : Target) (secret : Secret) :
    Effect.receiptCount (s.claim secret) = 0 ∧ ∀ e ∈ s.claim secret, e.isUnlockFailure = false := by
  unfold claim
  cases s.payerOnChain with
  | false => exact ⟨rfl, by simp [Effect.isUnlockFailure]⟩
  | true => exact ⟨rfl, by simp [Effect.isUnlockFailure]⟩

theorem checkUnlockDeadline_staysPaid (h : s.status.isPaid = true) :
    StaysPaid s.checkUnlockDeadline := by
  rcases s.checkUnlockDeadline_cases with heq | ⟨secret, -, heq⟩
  · rw [heq]
    exact ⟨h, rfl, List.forall_mem_nil _⟩
  · have hclaim := claim_reports_nothing s secret
    rw [heq]
    exact ⟨rfl, hclaim.1, hclaim.2⟩

theorem step_staysPaid (h : s.status.isPaid = true) (i : Input) : StaysPaid (s.step i) := by
  by_cases hwaiting : s.status = .waitingUnlock
  · rcases s.step_cases i with ⟨_, -, hnot, -⟩ | ⟨number, -, -, heq⟩ | ⟨_, hnot, -⟩ | ⟨-, heq⟩ |
      hkeeps
    · exact absurd hwaiting hnot
    · rw [heq]
      exact checkUnlockDeadline_staysPaid (s := { s with blockNumber := number }) h
    · exact absurd hwaiting hnot
    · rw [heq]
      exact ⟨rfl, rfl, by simp [Effect.isUnlockFailure]⟩
    · -- All that comes of any other fact is a notice.
      refine ⟨hkeeps.status ▸ h, Effect.receiptCount_of_no_secret (fun e he => ?_), fun e he => ?_⟩
      · rcases hkeeps.notices e he with ⟨level, info, rfl⟩
        rfl
      · rcases hkeeps.notices e he with ⟨level, info, rfl⟩
        rfl
  · have hterminal : s.status.isTerminal = true := by
      cases hstatus : s.status with
      | waitingUnlock => exact absurd hstatus hwaiting
      | completed => rfl
      | expired => rfl
      | _ => cases hstatus ▸ h
    rw [step_of_isTerminal hterminal]
    exact ⟨h, rfl, List.forall_mem_nil _⟩

theorem run_staysPaid (h : s.status.isPaid = true) (inputs : List Input) :
    StaysPaid (Machine.run step s inputs, Machine.effects step s inputs) := by
  induction inputs generalizing s with
  | nil => exact ⟨h, rfl, List.forall_mem_nil _⟩
  | cons i rest ih =>
      have hstep := step_staysPaid h i
      have hrest := ih hstep.status
      refine ⟨hrest.status, ?_, fun e he => ?_⟩
      · rw [Machine.effects_cons, Effect.receiptCount_append, hstep.receipts, hrest.receipts]
      · rcases List.mem_append.mp he with he | he
        · exact hstep.failures e he
        · exact hrest.failures e he

/-- Learning reports the payment, once and not as lost. -/
theorem Learns.reports {i : Input} {secret : Secret} (h : s.Learns i secret) :
    (s.step i).1.status.isPaid = true ∧ Effect.receiptCount (s.step i).2 = 1 ∧
      ∀ e ∈ (s.step i).2, e.isUnlockFailure = false := by
  have hpaid : StaysPaid (checkUnlockDeadline { s with
      terms := { s.terms with secret? := some secret }, status := .waitingUnlock }) :=
    checkUnlockDeadline_staysPaid rfl
  rw [h.step_eq]
  refine ⟨hpaid.status, ?_, ?_⟩
  · rw [learnSecret_snd, Effect.receiptCount, List.countP_cons, List.countP_cons,
      ← Effect.receiptCount, hpaid.receipts]
    rfl
  · rw [learnSecret_snd]
    exact List.forall_mem_cons.mpr ⟨rfl, List.forall_mem_cons.mpr ⟨rfl, hpaid.failures⟩⟩

/-- Only the fact that tells the secret reports the payment. -/
theorem learns_of_receiptCount {i : Input} (h : Effect.receiptCount (s.step i).2 ≠ 0) :
    ∃ secret, s.Learns i secret := by
  rcases s.status_cases i with hterminal | hwaiting | ⟨hawaits, htold⟩ | hlearns
  · rw [step_of_isTerminal hterminal] at h
    exact absurd rfl h
  · exact absurd (step_staysPaid (by rw [hwaiting]; rfl) i).receipts h
  · exact absurd (Effect.receiptCount_of_no_secret (step_uninformed hawaits htold).quiet) h
  · exact hlearns

/-- The payment is reported at most once. -/
theorem receiptCount_effects_le (s : Target) (inputs : List Input) :
    Effect.receiptCount (Machine.effects step s inputs) ≤ 1 := by
  induction inputs generalizing s with
  | nil => exact Nat.zero_le 1
  | cons i rest ih =>
      rw [Machine.effects_cons, Effect.receiptCount_append]
      by_cases hreports : Effect.receiptCount (s.step i).2 = 0
      · rw [hreports, Nat.zero_add]
        exact ih _
      · -- It was reported now, so the rest of the run keeps it paid.
        obtain ⟨secret, hlearns⟩ := learns_of_receiptCount hreports
        have hlearned := hlearns.reports
        exact Nat.le_of_eq (by rw [hlearned.2.1, (run_staysPaid hlearned.1 rest).receipts])

end Paid

/-! ### The payer's time -/

/-- The target learned the secret, its payer did not unlock yet, and there is time left
    for that. -/
structure Owed (a : StartTarget) (secret : Secret) (now : Height) (closed : Bool)
    (s : Target) : Prop where
  deal : OfDeal a s
  status : s.status = .waitingUnlock
  secret : s.terms.secret? = some secret
  blockNumber : s.blockNumber = now
  payerOnChain : s.payerOnChain = closed
  early : now < a.deadline

/-- The claim was made in the transition, and the transfer is over. -/
structure Claimed (a : StartTarget) (secret : Secret) (closed : Bool)
    (r : Target × List Effect) : Prop where
  status : r.1.status = .completed
  calls : Effect.calls r.2 = a.claimCalls secret closed

section Due

variable {a : StartTarget} {secret : Secret} {now : Height} {closed : Bool} {s : Target}

theorem checkUnlockDeadline_claimed (hdeal : OfDeal a s) (hstatus : s.status = .waitingUnlock)
    (hsecret : s.terms.secret? = some secret) (hdue : a.deadline ≤ s.blockNumber) :
    Claimed a secret s.payerOnChain s.checkUnlockDeadline := by
  rw [checkUnlockDeadline_of_le hstatus hsecret (hdeal.unlockDeadline ▸ hdue)]
  exact ⟨rfl, hdeal.calls_claim secret⟩

/-- The target goes on being owed as long as the block is early and the payer does not
    unlock. -/
theorem step_owed (h : Owed a secret now closed s) {i : Input}
    (hunlock : i.isUnlockOf a.payerRoute.node a.message.lock.secretHash = false)
    (hearly : i.clock now < a.deadline) :
    Owed a secret (i.clock now) (closed || i.closes a.payerRoute.channelId) (s.step i).1 ∧
      ∀ e ∈ (s.step i).2, e.needsSecret = false := by
  have hdeal := h.deal.step i
  rcases step_waiting_cases h.status i with ⟨number, rfl, heq⟩ | hpayer | hwaits
  · have hlt : number < s.unlockDeadline := h.deal.unlockDeadline ▸ hearly
    have hchecked := checkUnlockDeadline_of_lt (s := { s with blockNumber := number }) hlt
    rw [heq, hchecked] at hdeal ⊢
    refine ⟨⟨hdeal, h.status, h.secret, rfl, ?_, hearly⟩, List.forall_mem_nil _⟩
    rw [Input.closes_block, Bool.or_false]
    exact h.payerOnChain
  · rw [h.deal.node, h.deal.secretHash, hunlock] at hpayer
    cases hpayer
  · refine ⟨⟨hdeal, hwaits.status, ?_, ?_, ?_, hearly⟩, hwaits.quiet⟩
    · rw [hwaits.terms, h.secret]
    · rw [hwaits.blockNumber, hwaits.clock, h.blockNumber]
    · rw [hwaits.payerOnChain, h.payerOnChain, h.deal.channelId]

/-- The fact that ends the payer's time makes the claim. -/
theorem step_due (h : Owed a secret now closed s) {i : Input}
    (hunlock : i.isUnlockOf a.payerRoute.node a.message.lock.secretHash = false)
    (hdue : a.deadline ≤ i.clock now) :
    Claimed a secret (closed || i.closes a.payerRoute.channelId) (s.step i) := by
  rcases step_waiting_cases h.status i with ⟨number, rfl, heq⟩ | hpayer | hwaits
  · have hdeal : OfDeal a { s with blockNumber := number } := ⟨h.deal.terms, h.deal.payerRoute⟩
    rw [heq, Input.closes_block, Bool.or_false, ← h.payerOnChain]
    exact checkUnlockDeadline_claimed hdeal h.status h.secret hdue
  · rw [h.deal.node, h.deal.secretHash, hunlock] at hpayer
    cases hpayer
  · -- It was early before, and only a block moves the clock.
    rw [hwaits.clock] at hdue
    exact absurd h.early (Word.not_lt.mpr hdue)

/-- What its payer owes a target that knows the secret. -/
def debt (a : StartTarget) (secret : Secret) : Machine.Debt step where
  deadline := a.deadline
  pays := Input.isUnlockOf a.payerRoute.node a.message.lock.secretHash
  closes := Input.closes a.payerRoute.channelId
  claim := a.claimCalls secret
  Owed := Owed a secret
  Collected s := s.status = .completed
  early h := h.early
  waits h hunlock hearly :=
    have howed := step_owed h hunlock hearly
    ⟨howed.1, Effect.calls_of_no_secret howed.2⟩
  collects h hunlock hdue :=
    have hclaimed := step_due h hunlock hdue
    ⟨hclaimed.status, hclaimed.calls⟩

/-- A target that learns the secret claims at once if the payer's time is over, and is
    owed otherwise. -/
theorem Learns.outcome {i : Input} (h : s.Learns i secret) (hdeal : OfDeal a s)
    (hblock : s.blockNumber = now) (hclosed : s.payerOnChain = closed) :
    (a.deadline ≤ now → Claimed a secret closed (s.step i)) ∧
    (now < a.deadline →
      Owed a secret now closed (s.step i).1 ∧ Effect.calls (s.step i).2 = []) := by
  have hlearned : OfDeal a { s with
      terms := { s.terms with secret? := some secret }, status := .waitingUnlock } :=
    ⟨by rw [hdeal.terms], hdeal.payerRoute⟩
  subst hblock hclosed
  refine ⟨fun hdue => ?_, fun hearly => ?_⟩
  · have hclaimed := checkUnlockDeadline_claimed hlearned rfl rfl hdue
    rw [h.step_eq]
    exact ⟨hclaimed.status, hclaimed.calls⟩
  · have hkept := checkUnlockDeadline_of_lt (s := { s with
      terms := { s.terms with secret? := some secret }, status := .waitingUnlock })
      (hlearned.unlockDeadline ▸ hearly)
    rw [h.step_eq, learnSecret_fst, learnSecret_snd, hkept]
    exact ⟨⟨hlearned, rfl, rfl, rfl, rfl, hearly⟩, rfl⟩

/-- From the fact that tells the secret on, the claim is made when the payer's time is
    over. -/
theorem Learns.run_due {i : Input} (h : s.Learns i secret) (hdeal : OfDeal a s)
    (hblock : s.blockNumber = now) (hclosed : s.payerOnChain = closed) {mid : List Input}
    (hunlock : ∀ j ∈ mid, j.isUnlockOf a.payerRoute.node a.message.lock.secretHash = false)
    (hdue : Input.FirstReaches a.deadline now mid) :
    Effect.calls (Machine.effects step s (i :: mid).dropLast) = [] ∧
    Claimed a secret (closed || mid.any (Input.closes a.payerRoute.channelId))
      (Machine.run step s (i :: mid), Machine.effects step s (i :: mid)) := by
  have houtcome := h.outcome hdeal hblock hclosed
  have hrun := (debt a secret).run_from
    (fun hlate => have hclaimed := houtcome.1 hlate; ⟨hclaimed.status, hclaimed.calls⟩)
    houtcome.2 hunlock hdue
  exact ⟨hrun.1, hrun.2.1, hrun.2.2⟩

end Due

/-! ### From the start -/

section Start

variable {a : StartTarget} {block : Height} {s : Target} {secret : Secret}

theorem stateAfter_append (first later : List Input) :
    stateAfter a block (first ++ later) = Machine.run step (stateAfter a block first) later :=
  Machine.run_append step _ first later

theorem effectsOf_append (first later : List Input) :
    effectsOf a block (first ++ later)
      = effectsOf a block first ++ Machine.effects step (stateAfter a block first) later := by
  unfold effectsOf stateAfter
  rw [Machine.effects_append, List.append_assoc]

theorem stateAfter_ofDeal (a : StartTarget) (block : Height) (inputs : List Input) :
    OfDeal a (stateAfter a block inputs) :=
  Machine.run_invariant (fun _ i h => h.step i) (start_uninformed a block).2.1 inputs

/-- Who waits for the secret after a fact waited before, and was not told it. -/
theorem awaitsSecret_of_step {i : Input} (h : (s.step i).1.status.awaitsSecret = true) :
    s.status.awaitsSecret = true ∧ s.told? i = none := by
  have hpaid (hpaid : (s.step i).1.status.isPaid = true) : False := by
    rw [isPaid_of_awaitsSecret h] at hpaid
    cases hpaid
  rcases s.status_cases i with hterminal | hwaiting | hawaits | ⟨secret, hlearns⟩
  · rw [step_of_isTerminal hterminal] at h
    cases hstatus : s.status with
    | completed =>
        rw [hstatus] at h
        cases h
    | expired =>
        rw [hstatus] at h
        cases h
    | _ =>
        rw [hstatus] at hterminal
        cases hterminal
  · exact (hpaid (step_staysPaid (by rw [hwaiting]; rfl) i).status).elim
  · exact hawaits
  · exact (hpaid hlearns.reports.1).elim

/-- As long as the target waits for the secret it knows what was announced, and nothing
    that needs the secret was asked for. -/
theorem run_uninformed (a : StartTarget) (block : Height) (inputs : List Input)
    (h : (stateAfter a block inputs).status.awaitsSecret = true) :
    Uninformed (Input.lastBlock block inputs) (inputs.any (Input.closes a.payerRoute.channelId))
      (stateAfter a block inputs, effectsOf a block inputs) := by
  induction inputs using List.reverseRec with
  | nil =>
      have hstart := (start_uninformed a block).1
      refine ⟨hstart.blockNumber, hstart.payerOnChain, hstart.status, ?_⟩
      rw [effectsOf, Machine.effects_nil, List.append_nil]
      exact hstart.quiet
  | append_singleton inputs i ih =>
      rw [stateAfter_append] at h ⊢
      rw [effectsOf_append, Input.lastBlock_append, List.any_append]
      obtain ⟨hbefore, htold⟩ := awaitsSecret_of_step h
      have hpast := ih hbefore
      have hnow := step_uninformed hbefore htold
      refine ⟨hnow.blockNumber.trans ?_, hnow.payerOnChain.trans ?_, hnow.status, fun e he => ?_⟩
      · rw [hpast.blockNumber]
        rfl
      · rw [hpast.payerOnChain, (stateAfter_ofDeal a block inputs).channelId, List.any_cons,
          List.any_nil, Bool.or_false]
      · rcases List.mem_append.mp he with he | he
        · exact hpast.quiet e he
        · rw [Machine.effects_cons, Machine.effects_nil, List.append_nil] at he
          exact hnow.quiet e he

/-- A target that asks for the secret has a lock that expires after the block zero. -/
theorem expiration_pos_of_requested (a : StartTarget) (block : Height) (inputs : List Input)
    (h : (stateAfter a block inputs).status = .requestedSecret) :
    0 < a.message.lock.expiration := by
  induction inputs using List.reverseRec with
  | nil => exact (start_uninformed a block).2.2.2 h
  | append_singleton inputs i ih =>
      rw [stateAfter_append] at h
      refine ih ?_
      rcases (stateAfter a block inputs).step_cases i with ⟨number, -, -, heq⟩ |
        ⟨number, -, -, heq⟩ | ⟨secret, -, heq⟩ | ⟨-, heq⟩ | hkeeps
      · rw [Machine.run_cons, Machine.run_nil, heq, expire] at h
        split at h
        · cases h
        · exact h
      · rw [Machine.run_cons, Machine.run_nil, heq] at h
        rcases checkUnlockDeadline_cases { stateAfter a block inputs with blockNumber := number }
          with hsame | ⟨_, -, hclaimed⟩
        · rw [hsame] at h
          exact h
        · rw [hclaimed] at h
          cases h
      · -- Who learned the secret does not ask for it any more.
        have hpaid := (checkUnlockDeadline_staysPaid (s := { stateAfter a block inputs with
          terms := { (stateAfter a block inputs).terms with secret? := some secret },
          status := .waitingUnlock }) rfl).status
        rw [Machine.run_cons, Machine.run_nil, heq, learnSecret_fst] at h
        rw [h] at hpaid
        cases hpaid
      · rw [Machine.run_cons, Machine.run_nil, heq] at h
        cases h
      · exact hkeeps.status.symm.trans h

end Start

/-- What a target does about the secret, whatever facts reach it and in whatever
    order. -/
structure ClaimLaw (a : StartTarget) (block : Height) : Prop where
  /-- The payment is reported as received at most once. -/
  reports_once : ∀ inputs, Effect.receiptCount (effectsOf a block inputs) ≤ 1
  /-- It is not reported by taking the transfer on. -/
  start_reports_nothing : Effect.receiptCount (start a block).2 = 0
  /-- The facts that tell the secret report it, and no others do. -/
  reported_iff : ∀ before i, Effect.receiptCount ((stateAfter a block before).step i).2 = 1 ↔
    ∃ secret, (stateAfter a block before).Learns i secret
  /-- They show the payer the secret that they tell, and no other. -/
  learned : ∀ before i secret, (stateAfter a block before).Learns i secret → ∀ secret',
    .sendSecretReveal a.payerRoute.node secret' ∈ ((stateAfter a block before).step i).2 ↔
      secret' = secret
  /-- The transition that reports it shows the payer the secret. -/
  reveals : ∀ before i, Effect.receiptCount ((stateAfter a block before).step i).2 ≠ 0 →
    ∃ secret, .sendSecretReveal a.payerRoute.node secret ∈ ((stateAfter a block before).step i).2
  /-- From then on the lock never expires and is never reported as lost. -/
  keeps : ∀ before i after, Effect.receiptCount ((stateAfter a block before).step i).2 ≠ 0 →
    (stateAfter a block (before ++ i :: after)).status ≠ .expired ∧
    ∀ e ∈ Machine.effects step (stateAfter a block before) (i :: after), e.isUnlockFailure = false
  /-- There is a block before the one at which the lock expires. -/
  last_block : ∀ before i, Effect.receiptCount ((stateAfter a block before).step i).2 ≠ 0 →
    (a.message.lock.expiration.satSub 1).val + 1 = a.message.lock.expiration.val
  /-- Unless the payer unlocked since the report, the first transition from there on that
      finds the payer's time over claims the payer's lock with the secret that was shown,
      and no other transition of the run asks for anything of the ledger. -/
  claims : ∀ before i mid after secret,
    Effect.receiptCount ((stateAfter a block before).step i).2 ≠ 0 →
    .sendSecretReveal a.payerRoute.node secret ∈ ((stateAfter a block before).step i).2 →
    (∀ j ∈ mid, j.isUnlockOf a.payerRoute.node a.message.lock.secretHash = false) →
    Input.FirstReaches a.deadline (Input.lastBlock block (before ++ [i])) mid →
    Effect.calls (effectsOf a block (before ++ (i :: mid).dropLast)) = [] ∧
    Effect.calls (effectsOf a block (before ++ i :: mid ++ after))
      = a.claimCalls secret ((before ++ i :: mid).any (Input.closes a.payerRoute.channelId))

section Law

variable {a : StartTarget} {block : Height} {s : Target} {secret : Secret}

/-- A fact that tells the secret announces no block and closes no channel. -/
theorem Learns.clock_closes {i : Input} (h : s.Learns i secret) (now : Height) (id : ChannelId) :
    i.clock now = now ∧ i.closes id = false := by
  have htold := h.2
  cases i with
  | secretRevealed r => exact ⟨rfl, rfl⟩
  | chain e =>
      cases e with
      | secretRegistered secret secretHash block => exact ⟨rfl, rfl⟩
      | _ => cases htold
  | _ => cases htold

/-- The payer is shown the secret that was learned, and no other. -/
theorem Learns.reveals_iff {i : Input} (h : s.Learns i secret) (secret' : Secret) :
    .sendSecretReveal s.payerRoute.node secret' ∈ (s.step i).2 ↔ secret' = secret := by
  have hclaim : .sendSecretReveal s.payerRoute.node secret' ∉ (checkUnlockDeadline { s with
      terms := { s.terms with secret? := some secret }, status := .waitingUnlock }).2 := by
    rcases checkUnlockDeadline_cases { s with
        terms := { s.terms with secret? := some secret }, status := .waitingUnlock }
      with heq | ⟨_, -, heq⟩
    · rw [heq]
      exact List.not_mem_nil
    · rw [heq]
      unfold claim
      split
      · simp
      · simp
  rw [h.step_eq, learnSecret_snd, List.mem_cons, List.mem_cons]
  constructor
  · rintro (heq | heq | hmem)
    · cases heq
    · cases heq
      rfl
    · exact absurd hmem hclaim
  · rintro rfl
    exact Or.inr (Or.inl rfl)

/-- A secret is learned when the lock has not expired, or was received in time to ask
    for it. -/
theorem Learns.expiration_pos {before : List Input} {i : Input}
    (h : (stateAfter a block before).Learns i secret) : 0 < a.message.lock.expiration := by
  rcases h with ⟨-, htold⟩
  cases i with
  | secretRevealed r =>
      rw [told?, Option.ite_none_right_eq_some] at htold
      exact expiration_pos_of_requested a block before htold.1.1
  | chain e =>
      cases e with
      | secretRegistered secret' secretHash number =>
          rw [told?, Option.ite_none_right_eq_some] at htold
          rw [← (stateAfter_ofDeal a block before).expiration]
          exact Nat.lt_of_le_of_lt (Nat.zero_le _) htold.1.2
      | _ => cases htold
  | _ => cases htold

theorem Learns.claims {before mid after : List Input} {i : Input}
    (h : (stateAfter a block before).Learns i secret)
    (hunlock : ∀ j ∈ mid, j.isUnlockOf a.payerRoute.node a.message.lock.secretHash = false)
    (hdue : Input.FirstReaches a.deadline (Input.lastBlock block (before ++ [i])) mid) :
    Effect.calls (effectsOf a block (before ++ (i :: mid).dropLast)) = [] ∧
    Effect.calls (effectsOf a block (before ++ i :: mid ++ after))
      = a.claimCalls secret ((before ++ i :: mid).any (Input.closes a.payerRoute.channelId)) := by
  have hpast := run_uninformed a block before h.1
  have hquiet := Effect.calls_of_no_secret hpast.quiet
  have hfact := h.clock_closes (Input.lastBlock block before) a.payerRoute.channelId
  rw [Input.lastBlock_append, Input.lastBlock_cons, Input.lastBlock_nil, hfact.1] at hdue
  have hrun := h.run_due (stateAfter_ofDeal a block before) hpast.blockNumber hpast.payerOnChain
    hunlock hdue
  refine ⟨?_, ?_⟩
  · rw [effectsOf_append, Effect.calls_append, hquiet, hrun.1]
    rfl
  · -- The claim ends the transfer, so nothing is asked for after it.
    have hdone := Machine.effects_of_fixed
      (step_of_isTerminal (by rw [hrun.2.status]; rfl)) after
    rw [List.append_assoc, effectsOf_append, Machine.effects_append, hdone.2, List.append_nil,
      Effect.calls_append, hquiet, hrun.2.calls, List.any_append, List.any_cons, hfact.2]
    rfl

/-- A target that learned the secret is paid, by its payer or by the ledger. -/
theorem run_claimLaw (a : StartTarget) (block : Height) : ClaimLaw a block where
  reports_once inputs := by
    rw [effectsOf, Effect.receiptCount_append,
      Effect.receiptCount_of_no_secret (start_uninformed a block).1.quiet, Nat.zero_add]
    exact receiptCount_effects_le _ inputs
  start_reports_nothing := Effect.receiptCount_of_no_secret (start_uninformed a block).1.quiet
  reported_iff before i := by
    constructor
    · intro hreports
      exact learns_of_receiptCount (by rw [hreports]; exact Nat.one_ne_zero)
    · rintro ⟨secret, hlearns⟩
      exact hlearns.reports.2.1
  learned before i secret hlearns secret' := by
    rw [← (stateAfter_ofDeal a block before).node]
    exact hlearns.reveals_iff secret'
  reveals before i h := by
    obtain ⟨secret, hlearns⟩ := learns_of_receiptCount h
    rw [← (stateAfter_ofDeal a block before).node]
    exact ⟨secret, (hlearns.reveals_iff secret).mpr rfl⟩
  keeps before i after h := by
    obtain ⟨secret, hlearns⟩ := learns_of_receiptCount h
    have hlearned := hlearns.reports
    have hrest := run_staysPaid hlearned.1 after
    rw [stateAfter_append, Machine.run_cons]
    refine ⟨fun hexpired => ?_, fun e he => ?_⟩
    · have hpaid := hrest.status
      rw [hexpired] at hpaid
      cases hpaid
    · rcases List.mem_append.mp he with he | he
      · exact hlearned.2.2 e he
      · exact hrest.failures e he
  last_block before i h := by
    obtain ⟨secret, hlearns⟩ := learns_of_receiptCount h
    have hpos : 0 < a.message.lock.expiration.val := hlearns.expiration_pos
    exact Nat.sub_add_cancel hpos
  claims before i mid after secret h hshown hunlock hdue := by
    -- The report says that a secret was learned. It is the one that was shown.
    obtain ⟨secret', hlearns⟩ := learns_of_receiptCount h
    rw [← (stateAfter_ofDeal a block before).node, hlearns.reveals_iff] at hshown
    exact hshown ▸ hlearns.claims hunlock hdue

end Law

end Target

/-! ### A payer that stays silent -/

namespace SilentPayer

def payer : Address := FixedBytes.replicate 20 2

def payee : Address := FixedBytes.replicate 20 1

def secret : Secret := FixedBytes.replicate 32 7

def secretHash : SecretHash := FixedBytes.replicate 32 8

/-- A lock of fifty that expires at the block 100, over a channel with a reveal timeout of
    five. -/
def offer : StartTarget where
  ourAddress := payee
  payerRoute := ⟨payer, FixedBytes.replicate 32 21, 0, 5, 20, none⟩
  message := ⟨1, payer, payee, payer, payee, ⟨50, 100, secretHash⟩,
    ⟨FixedBytes.replicate 20 11, FixedBytes.replicate 32 21, 1, 0, 50, locksroot []⟩⟩

/-- The secret comes before the deadline, and the block 95 takes the lock to the ledger. -/
example :
    (Target.stateAfter offer 10 [.secretRevealed ⟨payer, secret, secretHash⟩, .block 94]).status
      = .waitingUnlock ∧
    Effect.calls (Target.effectsOf offer 10
      [.secretRevealed ⟨payer, secret, secretHash⟩, .block 94, .block 95, .block 100])
      = offer.claimCalls secret false := by
  decide +kernel

end SilentPayer

end PaymentNetwork

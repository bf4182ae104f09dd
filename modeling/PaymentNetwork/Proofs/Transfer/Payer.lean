import PaymentNetwork.Proofs.Transfer.Timeliness

/-!
# The Channel With the Payer

What a transfer knows of the channel that it is paid over, and how long it waits for its
payer.

A mediator and a target took the channel with their payer as it was when they began. All
that they learn of it afterwards is that it was closed, and when. They remember the block,
but nothing depends on it: a transfer that waits for its payer's unlock looks at the clock
and at the end of the lock only. So as long as the deadline is not reached, neither a
block nor an event of the ledger ends the wait, and the first block at the deadline or
after it does.

## Main definitions

* `Payer`, `Transfer.payer?`: The channel with the payer, as a transfer knows it.
* `Input.closing?`, `Payer.told`: What a fact tells about that channel.

## Theorems

* `Transfer.step_payer?`: A transfer learns of closings and of nothing else.
* `Transfer.step_waiting`: What does not end the wait for the payer.
* `Transfer.step_due`: What does.
-/

namespace PaymentNetwork

/-- The channel with a payer, as a transfer knows it. -/
structure Payer where
  /-- The channel, with the block at which it was closed. -/
  route : Route
  /-- Was the channel closed? -/
  onChain : Bool

/-- The block at which the channel was closed, if the fact reports that. -/
def Input.closing? (id : ChannelId) : Input → Option Height
  | chain (.channelClosed _ channelId _ closed) => if channelId = id then some closed else none
  | _ => none

namespace Payer

variable (p : Payer)

/-- What is known of the channel when a closing may have been reported. -/
def noted (closing? : Option Height) : Payer :=
  ⟨{ p.route with closedBlock? := closing?.or p.route.closedBlock? }, closing?.isSome || p.onChain⟩

/-- What is known of the channel after a fact. -/
def told (i : Input) : Payer := p.noted (i.closing? p.route.channelId)

theorem noted_none : p.noted none = p := rfl

/-- Hearing of a closing twice makes no difference. -/
theorem noted_noted (closing? : Option Height) :
    (p.noted closing?).noted closing? = p.noted closing? := by
  -- The later report wins, and here it is the same one.
  cases closing? with
  | none => rfl
  | some closed => rfl

theorem told_told (i : Input) : (p.told i).told i = p.told i := noted_noted p _

/-- Only the ledger knows of closings. -/
theorem told_of_not_chain {i : Input} (h : ∀ e, i = .chain e → False) : p.told i = p := by
  cases i with
  | chain e => exact (h e rfl).elim
  | _ => exact p.noted_none

theorem told_refusal (refusal : RouteRefusal) : p.told (.routeRefused refusal) = p := p.noted_none

theorem told_node (i : Input) : (p.told i).route.node = p.route.node := rfl

end Payer

/-! ### What a mediator learns of it -/

namespace Mediator

/-- The channel with the payer. -/
def payer (s : Mediator) : Payer := ⟨s.payerRoute, s.payerOnChain⟩

section Payer

variable (s : Mediator)

theorem tryNextRoute_payer : s.tryNextRoute.1.payer = s.payer := by
  unfold tryNextRoute
  split
  · rfl
  · rfl

theorem abandonRoute_payer : s.abandonRoute.1.payer = s.payer := by
  unfold abandonRoute
  split
  · exact tryNextRoute_payer _
  · exact tryNextRoute_payer s

theorem onRefusal_payer (refusal : RouteRefusal) : (s.onRefusal refusal).1.payer = s.payer := by
  unfold onRefusal
  split
  · exact abandonRoute_payer s
  · rfl

theorem onDisposal_payer (d : LockDisposed) : (s.onDisposal d).1.payer = s.payer := by
  unfold onDisposal
  split
  · exact abandonRoute_payer s
  · rfl

theorem checkPayerDeadline_payer : s.checkPayerDeadline.1.payer = s.payer := by
  unfold checkPayerDeadline
  split
  · split
    · rfl
    · rfl
  · rfl

theorem learnSecret_payer (secret : Secret) : (s.learnSecret secret).1.payer = s.payer := by
  rw [learnSecret_fst]
  exact checkPayerDeadline_payer _

theorem onSecretReveal_payer (r : SecretRevealed) : (s.onSecretReveal r).1.payer = s.payer := by
  unfold onSecretReveal
  split
  · rfl
  · split
    · rfl
    · exact learnSecret_payer s r.secret

theorem onProof_payer (p : ProofReceived) : (s.onProof p).1.payer = s.payer := by
  unfold onProof
  split
  · rfl
  · split
    · rfl
    · rfl

theorem removeDownstream_payer : s.removeDownstream.1.payer = s.payer := by
  unfold removeDownstream
  split
  · split
    · rfl
    · rfl
  · rfl

theorem expire_payer : s.expire.1.payer = s.payer := by
  unfold expire
  split
  · rfl
  · rfl

theorem onBlock_payer (block : Height) : (s.onBlock block).1.payer = s.payer := by
  -- A block moves the clock, and the checks that it causes leave the channel alone.
  unfold onBlock
  dsimp only
  split
  · exact (expire_payer _).trans (removeDownstream_payer _)
  · exact checkPayerDeadline_payer _
  · rfl

theorem onChain_payer (e : ChainEvent) : (s.onChain e).1.payer = s.payer.told (.chain e) := by
  cases e with
  | channelClosed tokenNetwork channelId closer block =>
      unfold onChain
      have hclosing : Input.closing? s.payer.route.channelId
          (.chain (.channelClosed tokenNetwork channelId closer block))
          = if channelId = s.payerRoute.channelId then some block else none := rfl
      rw [Payer.told, hclosing]
      dsimp only
      split
      · rfl
      · rfl
  | secretRegistered secret secretHash block =>
      unfold onChain
      dsimp only
      split
      · exact learnSecret_payer s secret
      · rfl
  | _ => rfl

/-- A mediator in progress learns of closings and of nothing else. -/
theorem step_payer {s : Mediator} (h : ¬ s.status.isTerminal = true) (i : Input) :
    (s.step i).1.payer = s.payer.told i := by
  unfold step
  rw [if_neg h]
  split
  · exact onBlock_payer s _
  · exact onRefusal_payer s _
  · exact onDisposal_payer s _
  · rfl
  · exact onSecretReveal_payer s _
  · exact onProof_payer s _
  · exact onChain_payer s _
  · -- What is left is ignored, and no event of the ledger is among it.
    rename_i _ hchain _ _ _ _ _
    exact (Payer.told_of_not_chain _ hchain).symm

end Payer

/-- Neither a block before the deadline nor anything else but an unlock ends the wait. -/
theorem step_waiting {s : Mediator} (h : s.status = .waitingSecretPropagation) {i : Input}
    (hearly : ∀ number, i = .block number → number < s.payerDeadline)
    (hproof : i.isUnlockOf s.payerRoute.node s.received.secretHash = false) :
    (s.step i).1.status = .waitingSecretPropagation := by
  rcases step_waiting_cases h i with ⟨number, rfl, heq⟩ | ⟨hunlock, -⟩ | ⟨-, hwaits⟩
  · -- The clock is looked at, and it is early.
    have hlt : number < payerDeadline { s with blockNumber := number } := hearly number rfl
    rw [heq, checkPayerDeadline_of_lt hlt]
    exact h
  · rw [hunlock] at hproof
    cases hproof
  · exact hwaits.status

end Mediator

/-! ### What a target learns of it -/

namespace Target

/-- The channel with the payer. -/
def payer (s : Target) : Payer := ⟨s.payerRoute, s.payerOnChain⟩

section Payer

variable (s : Target)

theorem checkUnlockDeadline_payer : s.checkUnlockDeadline.1.payer = s.payer := by
  rcases s.checkUnlockDeadline_cases with heq | ⟨secret, -, heq⟩
  · rw [heq]
  · rw [heq]
    rfl

theorem learnSecret_payer (secret : Secret) : (s.learnSecret secret).1.payer = s.payer := by
  rw [learnSecret_fst]
  exact checkUnlockDeadline_payer _

theorem onSecretReveal_payer (r : SecretRevealed) : (s.onSecretReveal r).1.payer = s.payer := by
  unfold onSecretReveal
  split
  · rfl
  · exact learnSecret_payer s r.secret

theorem onProof_payer (p : ProofReceived) : (s.onProof p).1.payer = s.payer := by
  unfold onProof
  split
  · rfl
  · split
    · rfl
    · rfl

theorem expire_payer : s.expire.1.payer = s.payer := by
  unfold expire
  split
  · rfl
  · rfl

theorem onBlock_payer (block : Height) : (s.onBlock block).1.payer = s.payer := by
  unfold onBlock
  dsimp only
  split
  · exact expire_payer _
  · exact expire_payer _
  · exact checkUnlockDeadline_payer _
  · rfl

theorem onChain_payer (e : ChainEvent) : (s.onChain e).1.payer = s.payer.told (.chain e) := by
  cases e with
  | channelClosed tokenNetwork channelId closer block =>
      unfold onChain
      have hclosing : Input.closing? s.payer.route.channelId
          (.chain (.channelClosed tokenNetwork channelId closer block))
          = if channelId = s.payerRoute.channelId then some block else none := rfl
      rw [Payer.told, hclosing]
      dsimp only
      split
      · rfl
      · rfl
  | secretRegistered secret secretHash block =>
      unfold onChain
      dsimp only
      split
      · exact learnSecret_payer s secret
      · rfl
  | _ => rfl

/-- A target in progress learns of closings and of nothing else. -/
theorem step_payer {s : Target} (h : ¬ s.status.isTerminal = true) (i : Input) :
    (s.step i).1.payer = s.payer.told i := by
  unfold step
  rw [if_neg h]
  split
  · exact onBlock_payer s _
  · exact onSecretReveal_payer s _
  · exact onProof_payer s _
  · exact onChain_payer s _
  · rename_i _ hchain _ _
    exact (Payer.told_of_not_chain _ hchain).symm

end Payer

/-- Neither a block before the deadline nor anything else but an unlock ends the wait. -/
theorem step_waiting {s : Target} (h : s.status = .waitingUnlock) {i : Input}
    (hearly : ∀ number, i = .block number → number < s.unlockDeadline)
    (hproof : i.isUnlockOf s.payerRoute.node s.terms.secretHash = false) :
    (s.step i).1.status = .waitingUnlock := by
  have hprogress : ¬ s.status.isTerminal = true := by
    rw [h]
    decide
  cases i with
  | block number =>
      have hlt : ¬ unlockDeadline { s with blockNumber := number } ≤ number :=
        Word.not_le.mpr (hearly number rfl)
      rw [step_block_eq hprogress, if_pos h]
      unfold checkUnlockDeadline
      split
      · rw [if_neg (fun hdue => hlt hdue.2)]
        exact h
      · exact h
  | proofReceived p =>
      have hstep : s.step (.proofReceived p) = s.onProof p := by
        unfold step
        rw [h]
        rfl
      rcases p with ⟨sender, secretHash, message⟩
      rw [hstep, onProof]
      split
      · exact h
      · -- It is from the payer and on the hash, so it is no unlock.
        rename_i hpayer
        rw [not_or, Decidable.not_not, Decidable.not_not] at hpayer
        cases message with
        | unlock u => exact absurd hpayer (of_decide_eq_false hproof)
        | removal m => exact h
  | chain e =>
      have hstep : s.step (.chain e) = s.onChain e := by
        unfold step
        rw [h]
        rfl
      rw [hstep]
      rcases s.onChain_cases e with ⟨secret, hwaiting, -⟩ | hkeeps
      · exact absurd h hwaiting
      · rw [hkeeps.status]
        exact h
  | _ =>
      unfold step
      rw [h]
      exact h

end Target

/-! ### Waiting for the payer -/

namespace Transfer

/-- The channel with the payer, if there is a payer. -/
def payer? : Transfer → Option Payer
  | initiator _ => none
  | mediator s => some s.payer
  | target s => some s.payer

section Payer

variable {t : Transfer} {p : Payer}

theorem not_isTerminal_of_awaitsUnlock (h : t.awaitsUnlock = true) : ¬ t.isTerminal = true := by
  cases t with
  | initiator s => cases h
  | mediator s =>
      have hstatus : s.status = .waitingSecretPropagation := of_decide_eq_true h
      rw [isTerminal, hstatus]
      decide
  | target s =>
      have hstatus : s.status = .waitingUnlock := of_decide_eq_true h
      rw [isTerminal, hstatus]
      decide

/-- A transfer in progress learns of closings of its payer's channel, and of nothing else
    about it. -/
theorem step_payer? (h : ¬ t.isTerminal = true) (i : Input) :
    (t.step i).1.payer? = t.payer?.map (·.told i) := by
  cases t with
  | initiator s => rfl
  | mediator s => exact congrArg some (Mediator.step_payer h i)
  | target s => exact congrArg some (Target.step_payer h i)

/-- A transfer that waits for its payer goes on waiting, whatever it is told of the
    channel, unless the payer unlocks or the deadline comes. -/
theorem step_waiting (hwaits : t.awaitsUnlock = true) (hpayer : t.payer? = some p) {i : Input}
    (hearly : ∀ number, i = .block number → number < t.deadline)
    (hproof : i.isUnlockOf p.route.node t.secretHash = false) :
    (t.step i).1.awaitsUnlock = true ∧ (t.step i).1.payer? = some (p.told i) ∧
      (t.step i).1.deadline = t.deadline := by
  have hlearns := step_payer? (not_isTerminal_of_awaitsUnlock hwaits) i
  rw [hpayer, Option.map_some] at hlearns
  refine and_left_comm.mp ⟨hlearns, ?_⟩
  cases t with
  | initiator s => cases hwaits
  | mediator s =>
      cases hpayer
      have hstatus : s.status = .waitingSecretPropagation := of_decide_eq_true hwaits
      rw [deadline_of_waiting hstatus] at hearly ⊢
      have hafter := Mediator.step_waiting hstatus hearly hproof
      have hdeal := s.step_sameDeal i
      refine ⟨decide_eq_true hafter, (deadline_of_waiting hafter).trans ?_⟩
      rw [Mediator.payerDeadline, hdeal.received, hdeal.payerRoute, Mediator.payerDeadline]
  | target s =>
      cases hpayer
      have hstatus : s.status = .waitingUnlock := of_decide_eq_true hwaits
      rw [deadline_of_waitingUnlock hstatus] at hearly ⊢
      have hafter := Target.step_waiting hstatus hearly hproof
      have hdeal := s.step_sameDeal i
      refine ⟨decide_eq_true hafter, (deadline_of_waitingUnlock hafter).trans ?_⟩
      rw [Target.unlockDeadline, hdeal.terms, hdeal.payerRoute, Target.unlockDeadline]

/-- At the deadline or after it, the transfer claims the lock of its payer. It closes the
    channel for that, unless it knows it to be closed. -/
theorem step_due (hwaits : t.awaitsUnlock = true) (hpayer : t.payer? = some p)
    (hprepared : t.Prepared) {number : Height} (hdue : t.deadline ≤ number) :
    (t.step (.block number)).1.isTerminal = true ∧
    ∃ o secret, t.offer? = some o ∧ Effect.deeds (t.step (.block number)).2
      = t.claimDeeds o secret p.onChain (t.expiration.satSub 1)
        ((t.expiration.satSub 1).satAdd p.route.settleTimeout) := by
  have hprogress := not_isTerminal_of_awaitsUnlock hwaits
  cases t with
  | initiator s => cases hwaits
  | mediator s =>
      cases hpayer
      have hstatus : s.status = .waitingSecretPropagation := of_decide_eq_true hwaits
      -- A transfer that waits for its payer knows the secret.
      obtain ⟨secret, hsecret⟩ := Option.isSome_iff_exists.mp (hprepared hstatus)
      rw [deadline_of_waiting hstatus] at hdue
      have hclaim := Mediator.checkPayerDeadline_of_le (s := { s with blockNumber := number })
        hstatus hsecret hdue
      have hstep : s.step (.block number) = _ := (Mediator.step_block hprogress number).trans
        ((Mediator.onBlock_waiting hstatus number).trans hclaim)
      change (s.step (.block number)).1.status.isTerminal = true ∧
        ∃ o secret, _ ∧ Effect.deeds (s.step (.block number)).2 = _
      rw [hstep]
      exact ⟨rfl, _, secret, rfl, mediator_claim_deeds _ secret⟩
  | target s =>
      cases hpayer
      have hstatus : s.status = .waitingUnlock := of_decide_eq_true hwaits
      obtain ⟨secret, hsecret⟩ := Option.isSome_iff_exists.mp (hprepared hstatus)
      rw [deadline_of_waitingUnlock hstatus] at hdue
      have hclaim := Target.checkUnlockDeadline_of_le (s := { s with blockNumber := number })
        hstatus hsecret hdue
      have hstep : s.step (.block number) = _ := (Target.step_block_eq hprogress number).trans
        ((if_pos hstatus).trans hclaim)
      change (s.step (.block number)).1.status.isTerminal = true ∧
        ∃ o secret, _ ∧ Effect.deeds (s.step (.block number)).2 = _
      rw [hstep]
      exact ⟨rfl, _, secret, rfl, target_claim_deeds _ secret⟩

/-! ### Any facts -/

/-- Nothing happens to a transfer that is over. -/
theorem run_of_isTerminal (h : t.isTerminal = true) (facts : List Input) :
    Machine.run step t facts = t :=
  (Machine.effects_of_fixed (step_of_isTerminal h) facts).1

/-- Without a payer there is nothing to learn. -/
theorem run_payer?_of_none (h : t.payer? = none) (facts : List Input) :
    (Machine.run step t facts).payer? = none := by
  -- A transfer keeps its role, so the invariant is that it has no payer.
  refine Machine.run_invariant (P := fun t : Transfer => t.payer? = none)
    (fun t i hnone => ?_) h facts
  cases t with
  | initiator s => rfl
  | mediator s => cases hnone
  | target s => cases hnone

/-- Facts that tell nothing new about the channel. -/
theorem run_payer? (hpayer : t.payer? = some p) {facts : List Input}
    (hknown : ∀ i ∈ facts, p.told i = p)
    (hprogress : ¬ (Machine.run step t facts).isTerminal = true) :
    (Machine.run step t facts).payer? = some p := by
  induction facts generalizing t with
  | nil => exact hpayer
  | cons i rest ih =>
      -- A transfer that is over stays so, and this one is in progress at the end.
      have hbefore : ¬ t.isTerminal = true := by
        intro hterminal
        rw [run_of_isTerminal hterminal] at hprogress
        exact hprogress hterminal
      refine ih ?_ (fun j hj => hknown j (List.mem_cons_of_mem i hj)) hprogress
      rw [step_payer? hbefore, hpayer, Option.map_some, hknown i List.mem_cons_self]

/-- Facts that do not end the wait. -/
theorem run_waiting (hwaits : t.awaitsUnlock = true) (hpayer : t.payer? = some p)
    {facts : List Input} (hearly : ∀ number, .block number ∈ facts → number < t.deadline)
    (hproof : ∀ i ∈ facts, i.isUnlockOf p.route.node t.secretHash = false) :
    (Machine.run step t facts).awaitsUnlock = true ∧
      (Machine.run step t facts).deadline = t.deadline := by
  -- The channel is only known up to closings, so the induction is for any payer.
  induction facts generalizing t p with
  | nil => exact ⟨hwaits, rfl⟩
  | cons i rest ih =>
      obtain ⟨hwaits', hpayer', hdeadline⟩ := step_waiting hwaits hpayer
        (fun number heq => hearly number (heq ▸ List.mem_cons_self))
        (hproof i List.mem_cons_self)
      rw [← hdeadline] at hearly ⊢
      refine ih hwaits' hpayer' (fun number hmem => hearly number (List.mem_cons_of_mem i hmem))
        (fun j hj => ?_)
      rw [p.told_node, t.step_secretHash]
      exact hproof j (List.mem_cons_of_mem i hj)

end Payer

end Transfer

end PaymentNetwork

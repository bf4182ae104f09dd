import PaymentNetwork.Proofs.Transfer.Mediation

/-!
# Locks That Were Given Up

What a node still does for a lock that it told its payer to have given up.

A mediator that is out of routes disposes of the lock that it received, and a target
does the same with a lock that expires too soon. The payer is free to pay over
another route then, so the lock must not be claimed any more.

A mediator keeps to that, since disposing ends its transfer. A target does not. It
stays idle until the lock expires, and an idle target still listens to the ledger:
if the secret is registered before the lock expired, it takes the payment, shows the
secret and goes to the ledger for a lock that it gave up. That is the only way. As
long as nobody registers the secret in time, a disposed lock stays unclaimed.

## Main definitions

* `Effect.isDisposal`: Does the effect give a lock up?
* `Input.announcesBefore`: Does the fact leave a lock unexpired?
* `StartTarget.RegisteredInTime`: The ledger told the secret before the lock expired.
* `DisposalLaw`: What comes after a disposal.
* `LateOffer.offer`: A lock that is disposed, and claimed nevertheless.

## Theorems

* `Mediator.step_canceled_of_disposal`: Disposing ends the transfer of a mediator.
* `Target.step_idle_cases`, `Target.claims_of_idle_iff`: Steps and runs of an idle
  target.
* `disposalLaw`: The law for every run.
-/

namespace PaymentNetwork

namespace Effect

/-- Does the effect give a lock up? -/
def isDisposal : Effect → Bool
  | sendDisposal .. => true
  | _ => false

end Effect

namespace Input

/-- Does the fact leave a lock with this expiration unexpired? -/
def announcesBefore (expiration : Height) : Input → Bool
  | block number => decide (number < expiration)
  | _ => true

end Input

namespace Mediator

/-! ### A mediator -/

/-- If a lock was given up, the transfer is over. -/
def CanceledIfDisposed (r : Mediator × List Effect) : Prop :=
  r.2.any Effect.isDisposal = true → r.1.status = .canceled

section Handlers

variable (s : Mediator)

theorem canceledIfDisposed_of_none {r : Mediator × List Effect}
    (h : r.2.any Effect.isDisposal = false) : CanceledIfDisposed r := by
  intro hdisposed
  rw [h] at hdisposed
  cases hdisposed

theorem tryNextRoute_canceledIfDisposed : CanceledIfDisposed s.tryNextRoute := by
  unfold tryNextRoute
  split
  · exact canceledIfDisposed_of_none rfl
  · -- No route is left: this is the one place where the lock is given up.
    exact fun _ => rfl

theorem abandonRoute_canceledIfDisposed : CanceledIfDisposed s.abandonRoute := by
  unfold abandonRoute
  split
  · exact tryNextRoute_canceledIfDisposed _
  · exact tryNextRoute_canceledIfDisposed s

theorem claim_no_disposal (secret : Secret) : (s.claim secret).any Effect.isDisposal = false := by
  unfold claim
  cases s.payerOnChain with
  | false => rfl
  | true => rfl

theorem payPayee_no_disposal (secret : Secret) :
    (s.payPayee secret).any Effect.isDisposal = false := by
  rcases payPayee_cases s secret with heq | ⟨r, t, -, -, -, heq⟩
  · rw [heq]
    rfl
  · rw [heq]
    rfl

theorem checkPayerDeadline_no_disposal :
    s.checkPayerDeadline.2.any Effect.isDisposal = false := by
  unfold checkPayerDeadline
  split
  · split
    · exact claim_no_disposal s _
    · rfl
  · rfl

theorem learnSecret_no_disposal (secret : Secret) :
    (s.learnSecret secret).2.any Effect.isDisposal = false := by
  rw [learnSecret_snd, List.any_append, List.any_cons, payPayee_no_disposal,
    checkPayerDeadline_no_disposal]
  rfl

theorem onBlock_no_disposal (block : Height) :
    (s.onBlock block).2.any Effect.isDisposal = false := by
  -- A lock that expires is removed, which is not the same as giving it up.
  have hremoved (s : Mediator) : s.removeDownstream.2.any Effect.isDisposal = false := by
    unfold removeDownstream
    split
    · split
      · rfl
      · rfl
    · rfl
  have hexpired (s : Mediator) : s.expire.2.any Effect.isDisposal = false := by
    unfold expire
    split
    · rfl
    · rfl
  unfold onBlock
  dsimp only
  split
  · rw [List.any_append, hremoved, hexpired]
    rfl
  · exact checkPayerDeadline_no_disposal _
  · rfl

theorem onSecretReveal_no_disposal (r : SecretRevealed) :
    (s.onSecretReveal r).2.any Effect.isDisposal = false := by
  unfold onSecretReveal
  split
  · rfl
  · split
    · rfl
    · exact learnSecret_no_disposal s r.secret

theorem onProof_no_disposal (p : ProofReceived) :
    (s.onProof p).2.any Effect.isDisposal = false := by
  unfold onProof
  split
  · rfl
  · split
    · rfl
    · rfl

theorem onChain_no_disposal (e : ChainEvent) :
    (s.onChain e).2.any Effect.isDisposal = false := by
  unfold onChain
  split
  · split
    · rfl
    · rfl
  · split
    · exact learnSecret_no_disposal s _
    · rfl
  · rfl

end Handlers

/-- Disposing ends the transfer. -/
theorem step_canceled_of_disposal (s : Mediator) (i : Input) : CanceledIfDisposed (s.step i) := by
  -- Only a refusal and a disposal of the next node make a mediator look for another route.
  unfold step
  split
  · exact canceledIfDisposed_of_none rfl
  · split
    · exact canceledIfDisposed_of_none (onBlock_no_disposal s _)
    · unfold onRefusal
      split
      · exact abandonRoute_canceledIfDisposed s
      · exact canceledIfDisposed_of_none rfl
    · unfold onDisposal
      split
      · exact abandonRoute_canceledIfDisposed s
      · exact canceledIfDisposed_of_none rfl
    · exact canceledIfDisposed_of_none rfl
    · exact canceledIfDisposed_of_none (onSecretReveal_no_disposal s _)
    · exact canceledIfDisposed_of_none (onProof_no_disposal s _)
    · exact canceledIfDisposed_of_none (onChain_no_disposal s _)
    · exact canceledIfDisposed_of_none rfl

theorem run_of_canceled {s : Mediator} (h : s.status = .canceled) (inputs : List Input) :
    Machine.run step s inputs = s ∧ Machine.effects step s inputs = [] :=
  Machine.effects_of_fixed (step_of_isTerminal (by rw [h]; rfl)) inputs

theorem run_canceled_of_disposal (s : Mediator) (inputs : List Input)
    (h : (Machine.effects step s inputs).any Effect.isDisposal = true) :
    (Machine.run step s inputs).status = .canceled := by
  induction inputs generalizing s with
  | nil => cases h
  | cons i rest ih =>
      rw [Machine.effects_cons, List.any_append, Bool.or_eq_true] at h
      rw [Machine.run_cons]
      -- Once canceled it stays so, since nothing moves it any more.
      rcases h with hnow | hlater
      · have hcanceled := step_canceled_of_disposal s i hnow
        rw [(run_of_canceled hcanceled rest).1]
        exact hcanceled
      · exact ih (s.step i).1 hlater

/-- A mediator that disposed of the lock it received asks for nothing any more. -/
theorem effects_after_disposal {a : StartMediator} {block : Height} {before : List Input}
    (h : (effectsOf a block before).any Effect.isDisposal = true) (after : List Input) :
    Machine.effects step (stateAfter a block before) after = [] := by
  rw [effectsOf, List.any_append, Bool.or_eq_true] at h
  -- It may find no route at all, and dispose of the lock as it takes the transfer on.
  rcases h with hstart | hlater
  · have hcanceled : (start a block).1.status = .canceled := by
      rcases start_eq_tryNextRoute a block with ⟨s, heq, -⟩
      rw [heq] at hstart ⊢
      exact tryNextRoute_canceledIfDisposed s hstart
    rw [stateAfter, (run_of_canceled hcanceled before).1]
    exact (run_of_canceled hcanceled after).2
  · exact (run_of_canceled (run_canceled_of_disposal _ before hlater) after).2

end Mediator

namespace Target

/-! ### A target -/

section Disposal

variable (s : Target)

theorem checkUnlockDeadline_no_disposal :
    s.checkUnlockDeadline.2.any Effect.isDisposal = false := by
  rcases s.checkUnlockDeadline_cases with heq | ⟨secret, -, heq⟩
  · rw [heq]
    rfl
  · rw [heq]
    unfold claim
    cases s.payerOnChain with
    | false => rfl
    | true => rfl

theorem learnSecret_no_disposal (secret : Secret) :
    (s.learnSecret secret).2.any Effect.isDisposal = false := by
  rw [learnSecret_snd, List.any_cons, List.any_cons, checkUnlockDeadline_no_disposal]
  rfl

theorem expire_no_disposal : s.expire.2.any Effect.isDisposal = false := by
  unfold expire
  split
  · rfl
  · rfl

/-- A target disposes of its lock at the start or not at all. -/
theorem step_no_disposal (i : Input) : (s.step i).2.any Effect.isDisposal = false := by
  rcases s.step_cases i with ⟨number, -, -, heq⟩ | ⟨number, -, -, heq⟩ | ⟨secret, -, heq⟩ |
    ⟨-, heq⟩ | hkeeps
  · rw [heq]
    exact expire_no_disposal _
  · rw [heq]
    exact checkUnlockDeadline_no_disposal _
  · rw [heq]
    exact learnSecret_no_disposal s secret
  · rw [heq]
    rfl
  · refine List.any_eq_false.mpr (fun e he => ?_)
    rcases hkeeps.notices e he with ⟨level, info, rfl⟩
    exact Bool.false_ne_true

theorem effects_no_disposal (inputs : List Input) :
    (Machine.effects step s inputs).any Effect.isDisposal = false := by
  induction inputs generalizing s with
  | nil => rfl
  | cons i rest ih =>
      rw [Machine.effects_cons, List.any_append, step_no_disposal, ih]
      rfl

theorem start_disposes_iff (a : StartTarget) (block : Height) :
    (start a block).2.any Effect.isDisposal = true ↔
      a.message.lock.expiration ≤ block.satAdd a.payerRoute.revealTimeout := by
  unfold start
  dsimp only
  split
  · rename_i hsoon
    exact iff_of_true rfl hsoon
  · rename_i hlate
    exact iff_of_false Bool.false_ne_true hlate

end Disposal

/-- The target gave the lock up and it did not expire yet. -/
structure Idle (a : StartTarget) (now : Height) (s : Target) : Prop where
  status : s.status = .idle
  terms : s.terms = TransferTerms.ofMessage a.message
  payer : s.payerRoute.node = a.payerRoute.node
  blockNumber : s.blockNumber = now

theorem start_idle {a : StartTarget} {block : Height}
    (h : a.message.lock.expiration ≤ block.satAdd a.payerRoute.revealTimeout) :
    Idle a block (start a block).1 := by
  have hsoon : (TransferTerms.ofMessage a.message).expiration
      ≤ block.satAdd a.payerRoute.revealTimeout := h
  unfold start
  dsimp only
  rw [if_pos hsoon]
  exact ⟨rfl, rfl, rfl, rfl⟩

section Idle

variable {a : StartTarget} {now : Height} {s : Target}

/-- What an idle target makes of a fact. The ledger tells the secret in time, or the
    lock expires, or the target stays idle. -/
theorem step_idle_cases (h : Idle a now s) (i : Input) :
    (∃ secret number, i = .chain (.secretRegistered secret a.message.lock.secretHash number) ∧
      now < a.message.lock.expiration ∧ s.step i = s.learnSecret secret) ∨
    (i.announcesBefore a.message.lock.expiration = false ∧ (s.step i).1.status = .expired ∧
      ∀ e ∈ (s.step i).2, e.needsSecret = false) ∨
    (i.announcesBefore a.message.lock.expiration = true ∧ Idle a (i.clock now) (s.step i).1 ∧
      (s.step i).2 = [] ∧
      ∀ secret number, i = .chain (.secretRegistered secret a.message.lock.secretHash number) →
        a.message.lock.expiration ≤ now) := by
  have hterms := h.terms
  have hexpiration : s.terms.expiration = a.message.lock.expiration := congrArg _ hterms
  have hhash : s.terms.secretHash = a.message.lock.secretHash := congrArg _ hterms
  cases i with
  | block number =>
      have hstep : s.step (.block number) = expire { s with blockNumber := number } := by
        unfold step onBlock
        rw [h.status]
        rfl
      rw [hstep, expire, hexpiration]
      -- A block may be the one at which the lock expires.
      by_cases hexpired : a.message.lock.expiration ≤ number
      · rw [if_pos hexpired]
        exact Or.inr (Or.inl ⟨decide_eq_false (Word.not_lt.mpr hexpired), rfl,
          by simp [Effect.needsSecret]⟩)
      · rw [if_neg hexpired]
        exact Or.inr (Or.inr ⟨decide_eq_true (Word.not_le.mp hexpired),
          ⟨h.status, hterms, h.payer, rfl⟩, rfl, by simp⟩)
  | chain e =>
      have hstep : s.step (.chain e) = s.onChain e := by
        unfold step
        rw [h.status]
        rfl
      rw [hstep]
      cases e with
      | secretRegistered secret secretHash number =>
          rw [onChain, h.status, hhash, h.blockNumber, hexpiration]
          -- The secret of another transfer, or one that comes too late, is ignored.
          by_cases htold : secretHash = a.message.lock.secretHash ∧
              now < a.message.lock.expiration
          · obtain ⟨rfl, htime⟩ := htold
            rw [if_pos ⟨rfl, by decide, htime⟩]
            exact Or.inl ⟨secret, number, rfl, htime, rfl⟩
          · rw [if_neg (fun hall => htold ⟨hall.1, hall.2.2⟩)]
            refine Or.inr (Or.inr ⟨rfl, h, rfl, fun secret' number' heq => ?_⟩)
            cases heq
            exact Word.not_lt.mp (fun htime => htold ⟨rfl, htime⟩)
      | channelClosed tokenNetwork channelId closer number =>
          refine Or.inr (Or.inr ⟨rfl, ?_⟩)
          unfold onChain
          dsimp only
          split
          · exact ⟨⟨h.status, hterms, h.payer, h.blockNumber⟩, rfl, by simp⟩
          · exact ⟨h, rfl, by simp⟩
      | _ => exact Or.inr (Or.inr ⟨rfl, h, rfl, by simp⟩)
  | _ =>
      unfold step
      rw [h.status]
      exact Or.inr (Or.inr ⟨rfl, h, rfl, by simp⟩)

end Idle

end Target

/-- The ledger told the secret when the lock had not expired: no block that was
    announced before reached the expiration, the last one included. -/
def StartTarget.RegisteredInTime (a : StartTarget) (now : Height) (inputs : List Input)
    (secret : Secret) : Prop :=
  ∃ before number after,
    inputs = before ++ .chain (.secretRegistered secret a.message.lock.secretHash number) :: after ∧
    Input.lastBlock now before < a.message.lock.expiration ∧
    ∀ i ∈ before, i.announcesBefore a.message.lock.expiration = true

namespace StartTarget

variable {a : StartTarget} {now : Height} {secret : Secret}

theorem registeredInTime_now {number : Height} (h : now < a.message.lock.expiration)
    (rest : List Input) : a.RegisteredInTime now
      (.chain (.secretRegistered secret a.message.lock.secretHash number) :: rest) secret :=
  ⟨[], number, rest, rfl, h, fun _ hi => nomatch hi⟩

theorem RegisteredInTime.cons {i : Input} {rest : List Input}
    (h : a.RegisteredInTime (i.clock now) rest secret)
    (hi : i.announcesBefore a.message.lock.expiration = true) :
    a.RegisteredInTime now (i :: rest) secret := by
  rcases h with ⟨before, number, after, rfl, hlast, hbefore⟩
  exact ⟨i :: before, number, after, rfl, hlast, List.forall_mem_cons.mpr ⟨hi, hbefore⟩⟩

/-- The secret is told now or later. -/
theorem RegisteredInTime.of_cons {i : Input} {rest : List Input}
    (h : a.RegisteredInTime now (i :: rest) secret) :
    (∃ number, i = .chain (.secretRegistered secret a.message.lock.secretHash number) ∧
      now < a.message.lock.expiration) ∨
    (i.announcesBefore a.message.lock.expiration = true ∧
      a.RegisteredInTime (i.clock now) rest secret) := by
  rcases h with ⟨before, number, after, heq, hlast, hbefore⟩
  -- The registration is the first fact, or the first one comes before it and must be early.
  cases before with
  | nil =>
      rw [List.nil_append, List.cons.injEq] at heq
      exact Or.inl ⟨number, heq.1, hlast⟩
  | cons j before =>
      rw [List.cons_append, List.cons.injEq] at heq
      rcases heq with ⟨rfl, rfl⟩
      have hall := List.forall_mem_cons.mp hbefore
      exact Or.inr ⟨hall.1, before, number, after, rfl, hlast, hall.2⟩

end StartTarget

namespace Target

section Claim

variable {a : StartTarget} {now : Height} {s : Target}

theorem learnSecret_receives (h : Idle a now s) (secret : Secret) :
    .receivedSuccess a.message.paymentId a.message.balanceProof.tokenNetwork a.message.initiator
        a.message.lock.amount a.message.lock.secretHash ∈ (s.learnSecret secret).2 ∧
      .sendSecretReveal a.payerRoute.node secret ∈ (s.learnSecret secret).2 := by
  rw [learnSecret_snd, h.terms, h.payer]
  exact ⟨List.mem_cons_self, List.mem_cons_of_mem _ List.mem_cons_self⟩

/-- An idle target never does anything for its lock unless the ledger tells the secret
    in time. -/
theorem registered_of_claims (h : Idle a now s) {inputs : List Input} {e : Effect}
    (he : e ∈ Machine.effects step s inputs) (hneeds : e.needsSecret = true) :
    ∃ secret, a.RegisteredInTime now inputs secret := by
  -- The induction is for any clock, since an idle target stays idle as blocks go by.
  induction inputs generalizing now s with
  | nil => cases he
  | cons i rest ih =>
      rw [Machine.effects_cons, List.mem_append] at he
      rcases step_idle_cases h i with ⟨secret, number, rfl, htime, -⟩ | ⟨-, hexpired, hquiet⟩ |
        ⟨hbefore, hidle, hnone, -⟩
      · exact ⟨secret, StartTarget.registeredInTime_now htime rest⟩
      · -- An expired lock is given up for good.
        have hdone := Machine.effects_of_fixed
          (step_of_isTerminal (by rw [hexpired]; rfl)) rest
        rw [hdone.2] at he
        rcases he with he | he
        · rw [hquiet e he] at hneeds
          cases hneeds
        · cases he
      · rw [hnone] at he
        rcases he with he | he
        · cases he
        · obtain ⟨secret, hregistered⟩ := ih hidle he
          exact ⟨secret, hregistered.cons hbefore⟩

/-- If the ledger tells the secret in time, the payment is taken all the same. -/
theorem receives_of_registered (h : Idle a now s) {inputs : List Input} {secret : Secret}
    (hregistered : a.RegisteredInTime now inputs secret) :
    ∃ secret,
      .receivedSuccess a.message.paymentId a.message.balanceProof.tokenNetwork a.message.initiator
        a.message.lock.amount a.message.lock.secretHash ∈ Machine.effects step s inputs ∧
      .sendSecretReveal a.payerRoute.node secret ∈ Machine.effects step s inputs := by
  induction inputs generalizing now s with
  | nil =>
      rcases hregistered with ⟨before, number, after, heq, -⟩
      cases List.append_ne_nil_of_right_ne_nil before (List.cons_ne_nil _ after) heq.symm
  | cons i rest ih =>
      rw [Machine.effects_cons]
      rcases step_idle_cases h i with ⟨secret', number, -, -, hlearns⟩ | ⟨hlate, -⟩ |
        ⟨-, hidle, -, hnot⟩
      · have hreceives := learnSecret_receives h secret'
        rw [← hlearns] at hreceives
        exact ⟨secret', List.mem_append_left _ hreceives.1, List.mem_append_left _ hreceives.2⟩
      · -- A fact that lets the lock expire is neither the registration nor one before it.
        rcases hregistered.of_cons with ⟨number, rfl, -⟩ | ⟨hbefore, -⟩
        · cases hlate
        · rw [hlate] at hbefore
          cases hbefore
      · rcases hregistered.of_cons with ⟨number, heq, htime⟩ | ⟨-, hlater⟩
        · exact absurd htime (Word.not_lt.mpr (hnot secret number heq))
        · obtain ⟨secret', hreceived, hshown⟩ := ih hidle hlater
          exact ⟨secret', List.mem_append_right _ hreceived, List.mem_append_right _ hshown⟩

theorem claims_of_idle_iff (h : Idle a now s) (inputs : List Input) :
    (∃ e ∈ Machine.effects step s inputs, e.needsSecret = true) ↔
      ∃ secret, a.RegisteredInTime now inputs secret := by
  constructor
  · rintro ⟨e, he, hneeds⟩
    exact registered_of_claims h he hneeds
  · rintro ⟨secret, hregistered⟩
    obtain ⟨secret', hreceived, -⟩ := receives_of_registered h hregistered
    exact ⟨_, hreceived, rfl⟩

end Claim

end Target

/-! ### The law of disposals -/

/-- What comes after a disposal, whatever facts reach the transfer and in whatever
    order. -/
structure DisposalLaw (block : Height) : Prop where
  /-- A mediator that disposed of its lock asks for nothing any more. -/
  mediator_silent : ∀ a before after,
    (Mediator.effectsOf a block before).any Effect.isDisposal = true →
    Machine.effects Mediator.step (Mediator.stateAfter a block before) after = []
  /-- A target disposes of a lock that leaves no time to learn the secret. -/
  target_disposes_iff : ∀ a : StartTarget,
    (Target.start a block).2.any Effect.isDisposal = true ↔
      a.message.lock.expiration ≤ block.satAdd a.payerRoute.revealTimeout
  /-- It does so when it takes the transfer on, and never later. -/
  target_disposes_once : ∀ a inputs,
    (Machine.effects Target.step (Target.start a block).1 inputs).any Effect.isDisposal = false
  /-- From then on it collects the lock in any way exactly if the ledger tells the
      secret before the lock expired. -/
  target_claims_iff : ∀ a, (Target.start a block).2.any Effect.isDisposal = true → ∀ inputs,
    ((∃ e ∈ Machine.effects Target.step (Target.start a block).1 inputs, e.needsSecret = true) ↔
      ∃ secret, a.RegisteredInTime block inputs secret)
  /-- In that case the payment counts as received, and the payer is shown the secret. -/
  target_receives : ∀ a, (Target.start a block).2.any Effect.isDisposal = true → ∀ inputs secret,
    a.RegisteredInTime block inputs secret →
    ∃ secret',
      .receivedSuccess a.message.paymentId a.message.balanceProof.tokenNetwork a.message.initiator
        a.message.lock.amount a.message.lock.secretHash
        ∈ Machine.effects Target.step (Target.start a block).1 inputs ∧
      .sendSecretReveal a.payerRoute.node secret'
        ∈ Machine.effects Target.step (Target.start a block).1 inputs

/-- A disposed lock stays unclaimed, but for a target whose secret is registered in
    time. -/
theorem disposalLaw (block : Height) : DisposalLaw block where
  mediator_silent _ _ after h := Mediator.effects_after_disposal h after
  target_disposes_iff a := Target.start_disposes_iff a block
  target_disposes_once _ inputs := Target.effects_no_disposal _ inputs
  target_claims_iff a h inputs :=
    Target.claims_of_idle_iff (Target.start_idle ((Target.start_disposes_iff a block).mp h)) inputs
  target_receives a h _ _ hregistered :=
    Target.receives_of_registered (Target.start_idle ((Target.start_disposes_iff a block).mp h))
      hregistered

/-! ### A lock that is claimed after all -/

namespace LateOffer

/-- The node that offers. -/
def payer : Address := FixedBytes.replicate 20 2

/-- The target. -/
def payee : Address := FixedBytes.replicate 20 1

def tokenNetwork : Address := FixedBytes.replicate 20 11

def channelId : ChannelId := FixedBytes.replicate 32 21

def secret : Secret := FixedBytes.replicate 32 7

/-- A lock of fifty that expires at the block 100. -/
def lock : Lock := ⟨50, 100, hashSecret secret⟩

/-- The offer of the lock, over a channel with a reveal timeout of five. -/
def offer : StartTarget where
  ourAddress := payee
  payerRoute := ⟨payer, channelId, 0, 5, 20, none⟩
  message := ⟨1, payer, payee, payer, payee, lock,
    ⟨tokenNetwork, channelId, 1, 0, 50, locksroot [lock]⟩⟩

/-- The secret appears on the ledger. -/
def registration : Input := .chain (.secretRegistered secret (hashSecret secret) 97)

/-- The lock is disposed at the block 96, and when the secret is registered the target
    takes the payment, shows the secret, and goes to the ledger for the lock. -/
theorem disposed_and_claimed :
    let s := Target.start offer 96
    .sendDisposal payer channelId lock ∈ s.2 ∧
    (s.1.step registration).2
      = [.receivedSuccess 1 tokenNetwork payer 50 (hashSecret secret),
        .sendSecretReveal payer secret,
        .call (.registerSecret secret 99),
        .call (.closeChannel tokenNetwork channelId payer 99),
        .call (.unlock tokenNetwork channelId payer (hashSecret secret) 119)] := by
  have hsoon : offer.message.lock.expiration
      ≤ Word.satAdd 96 offer.payerRoute.revealTimeout := by decide
  have hidle := Target.start_idle hsoon
  refine ⟨List.mem_cons_self, ?_⟩
  rcases Target.step_idle_cases hidle registration with ⟨secret', number, heq, -, hlearns⟩ |
    ⟨hlate, -⟩ | ⟨-, -, -, hnot⟩
  · cases heq
    rw [hlearns]
    rfl
  · cases hlate
  · exact absurd (hnot secret 97 rfl) (by decide)

end LateOffer

end PaymentNetwork

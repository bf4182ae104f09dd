import Mathlib.Data.List.Induction
import PaymentNetwork.Proofs.Transfer.Debt

/-!
# Collecting From the Payer

A mediator that learned the secret gets its money back.

What a mediator owes its payee and what its payer owes it hang on one secret, and
the two debts fall due at different times. So everything depends on what the
mediator does from the moment it learns the secret. It shows the secret to the payer
at once. It pays the payee at most once, and only then, and only as long as the lock
it offered has not expired. And it never forgets the payer: unless the payer unlocks
first, the block that begins the payer's reveal timeout takes the lock to the ledger,
in the same transition and never again.

A run falls into three parts. Before the secret is learned nothing that needs the
secret is asked for, and the clock and the payer's channel are known. The fact that
tells the secret leaves the mediator `Owed`, or makes the claim at once. And a
mediator that is owed stays so until the payer unlocks or runs out of time.

The block that a mediator sees is the one that was announced last. Events of the
ledger carry the height at which they happened, and that height does not count.

## Main definitions

* `Mediator.told?`, `Mediator.Learns`: The secret that a fact tells a mediator.
* `Mediator.stateAfter`, `Mediator.effectsOf`: A run from the start.
* `StartMediator.deadline`, `StartMediator.claimCalls`: When the payer's time is over,
  and what is asked of the ledger then.
* `StartMediator.FirstDue`: The payer's time is over for the first time.
* `Input.isUnlockOf`: Did this node unlock the hash?
* `Mediator.Owed`, `Mediator.debt`: The secret is known, and the payer still has time.
* `Mediator.CollectionLaw`: What a mediator does about the secret.

## Theorems

* `Mediator.step_uninformed`, `Mediator.run_uninformed`: Without the secret.
* `Mediator.step_owed`, `Mediator.step_due`: Steps of a mediator that waits for its
  payer.
* `Mediator.Learns.outcome`: What the fact that tells the secret brings.
* `Mediator.run_collectionLaw`: The law for every run.
-/

namespace PaymentNetwork

namespace MediatorStatus

/-- Was the secret learned on the way here? -/
def knowsSecret : MediatorStatus → Bool
  | forwardedToNextHop => false
  | waitingSecretPropagation => true
  | completed => true
  | expiredBoth => false
  | partialUnlockOnChain => true
  | canceled => false

end MediatorStatus

namespace Input

/-- Is the fact that this node unlocked a lock on the hash? -/
def isUnlockOf (node : Address) (secretHash : SecretHash) : Input → Bool
  | proofReceived ⟨sender, hash, .unlock _⟩ => decide (sender = node ∧ hash = secretHash)
  | _ => false

end Input

namespace StartMediator

/-- The block at which the payer's time to unlock is over: a reveal timeout before
    its lock expires. -/
def deadline (a : StartMediator) : Height :=
  a.message.lock.expiration.satSub a.payerRoute.revealTimeout

/-- What is asked of the ledger to collect the lock of the payer. A channel that was
    closed is not closed again. -/
def claimCalls (a : StartMediator) (secret : Secret) (closed : Bool) : List ChainCall :=
  let last := a.message.lock.expiration.satSub 1
  let tokenNetwork := a.message.balanceProof.tokenNetwork
  [.registerSecret secret last]
    ++ (if closed then [] else
      [.closeChannel tokenNetwork a.payerRoute.channelId a.payerRoute.node last])
    ++ [.unlock tokenNetwork a.payerRoute.channelId a.payerRoute.node a.message.lock.secretHash
      (last.satAdd a.payerRoute.settleTimeout)]

end StartMediator

namespace Mediator

/-- The secret that a fact tells, if it is the one of the transfer: shown by the payee,
    or registered on the ledger. -/
def told? (s : Mediator) : Input → Option Secret
  | .secretRevealed r =>
    if s.isPayee r.sender ∧ r.secretHash = s.received.secretHash then some r.secret else none
  | .chain (.secretRegistered secret secretHash _) =>
    if secretHash = s.received.secretHash then some secret else none
  | _ => none

/-- The fact tells the secret to a mediator that waits for it. -/
def Learns (s : Mediator) (i : Input) (secret : Secret) : Prop :=
  s.status = .forwardedToNextHop ∧ s.told? i = some secret

/-- The mediator after some facts, from the start. -/
def stateAfter (a : StartMediator) (block : Height) (inputs : List Input) : Mediator :=
  Machine.run step (start a block).1 inputs

/-- Everything that was asked for, from the start on. -/
def effectsOf (a : StartMediator) (block : Height) (inputs : List Input) : List Effect :=
  (start a block).2 ++ Machine.effects step (start a block).1 inputs

/-! ### Without the secret -/

/-- What comes of a mediator that was told no secret: its clock and what it knows of
    the payer's channel are as given, and it asked for nothing that needs the secret. -/
structure Uninformed (now : Height) (closed : Bool) (r : Mediator × List Effect) : Prop where
  blockNumber : r.1.blockNumber = now
  payerOnChain : r.1.payerOnChain = closed
  status : r.1.status.knowsSecret = false
  quiet : ∀ e ∈ r.2, e.needsSecret = false

/-- Most facts tell nothing of the payer's channel. -/
theorem Uninformed.or_false {now : Height} {closed : Bool} {r : Mediator × List Effect}
    (h : Uninformed now closed r) : Uninformed now (closed || false) r := by
  rwa [Bool.or_false]

section Handlers

variable (s : Mediator)

theorem tryNextRoute_uninformed : Uninformed s.blockNumber s.payerOnChain s.tryNextRoute := by
  unfold tryNextRoute
  split
  · exact ⟨rfl, rfl, rfl, by simp [Effect.needsSecret]⟩
  · exact ⟨rfl, rfl, rfl, by simp [Effect.needsSecret]⟩

theorem abandonRoute_uninformed : Uninformed s.blockNumber s.payerOnChain s.abandonRoute := by
  unfold abandonRoute
  split
  · rename_i r hr
    exact tryNextRoute_uninformed { s with routes := s.routes.cancel r, payeeRoute? := none }
  · exact tryNextRoute_uninformed s

variable {s}

/-- A fact that is ignored. -/
theorem uninformed_self (h : s.status.knowsSecret = false) :
    Uninformed s.blockNumber s.payerOnChain (s, []) :=
  ⟨rfl, rfl, h, fun _ he => nomatch he⟩

theorem onRefusal_uninformed (h : s.status.knowsSecret = false) (refusal : RouteRefusal) :
    Uninformed s.blockNumber s.payerOnChain (s.onRefusal refusal) := by
  unfold onRefusal
  split
  · exact abandonRoute_uninformed s
  · exact uninformed_self h

theorem onDisposal_uninformed (h : s.status.knowsSecret = false) (d : LockDisposed) :
    Uninformed s.blockNumber s.payerOnChain (s.onDisposal d) := by
  unfold onDisposal
  split
  · exact abandonRoute_uninformed s
  · exact uninformed_self h

theorem removeDownstream_uninformed (h : s.status.knowsSecret = false) :
    Uninformed s.blockNumber s.payerOnChain s.removeDownstream := by
  unfold removeDownstream
  split
  · split
    · exact ⟨rfl, rfl, h, by simp [Effect.needsSecret]⟩
    · exact uninformed_self h
  · exact uninformed_self h

theorem expire_uninformed (h : s.status.knowsSecret = false) :
    Uninformed s.blockNumber s.payerOnChain s.expire := by
  unfold expire
  split
  · exact ⟨rfl, rfl, rfl, by simp [Effect.needsSecret]⟩
  · exact uninformed_self h

theorem onBlock_uninformed (h : s.status = .forwardedToNextHop) (block : Height) :
    Uninformed block s.payerOnChain (s.onBlock block) := by
  have hunaware : { s with blockNumber := block }.status.knowsSecret = false := by
    rw [h]
    rfl
  have hremoved := removeDownstream_uninformed hunaware
  have hexpired := expire_uninformed hremoved.status
  unfold onBlock
  dsimp only
  split
  · -- The lock that was sent on is removed first, and then the one that was received is looked at.
    refine ⟨hexpired.blockNumber.trans hremoved.blockNumber,
      hexpired.payerOnChain.trans hremoved.payerOnChain, hexpired.status, fun e he => ?_⟩
    rcases List.mem_append.mp he with he | he
    · exact hremoved.quiet e he
    · exact hexpired.quiet e he
  · rename_i hwaiting
    cases h.symm.trans hwaiting
  · rename_i hforwarded hwaiting
    exact absurd h hforwarded

/-- A reveal that tells no secret is ignored, with a warning if the payee sent it. -/
theorem onSecretReveal_uninformed (h : s.status.knowsSecret = false) {r : SecretRevealed}
    (htold : s.told? (.secretRevealed r) = none) :
    Uninformed s.blockNumber s.payerOnChain (s.onSecretReveal r) := by
  rw [told?, ite_eq_right_iff] at htold
  unfold onSecretReveal
  split
  · exact uninformed_self h
  · rename_i hpayee
    rw [Bool.not_eq_true', Bool.not_eq_false] at hpayee
    split
    · exact ⟨rfl, rfl, h, by simp [Effect.needsSecret, warning]⟩
    · rename_i hhash
      cases htold ⟨hpayee, Decidable.not_not.mp hhash⟩

/-- An event that tells no secret may tell that the payer's channel was closed. -/
theorem onChain_uninformed (h : s.status = .forwardedToNextHop) {e : ChainEvent}
    (htold : s.told? (.chain e) = none) :
    Uninformed s.blockNumber (s.payerOnChain || Input.closes s.payerRoute.channelId (.chain e))
      (s.onChain e) := by
  have hunaware : s.status.knowsSecret = false := by
    rw [h]
    rfl
  cases e with
  | channelClosed tokenNetwork channelId closer block =>
      unfold onChain
      by_cases hid : channelId = s.payerRoute.channelId
      · rw [Input.closes, decide_eq_true hid, Bool.or_true]
        dsimp only
        rw [if_pos hid]
        exact ⟨rfl, rfl, hunaware, fun _ he => nomatch he⟩
      · rw [Input.closes, decide_eq_false hid, Bool.or_false]
        dsimp only
        rw [if_neg hid]
        exact ⟨rfl, rfl, hunaware, fun _ he => nomatch he⟩
  | secretRegistered secret secretHash block =>
      rw [told?, ite_eq_right_iff] at htold
      have hhash : ¬ (secretHash = s.received.secretHash ∧ s.status = .forwardedToNextHop) := by
        rintro ⟨heq, -⟩
        cases htold heq
      rw [onChain, if_neg hhash]
      exact (uninformed_self hunaware).or_false
  | _ => exact (uninformed_self hunaware).or_false

end Handlers

/-- A mediator that waits for the secret and is not told it. -/
theorem step_uninformed {s : Mediator} (h : s.status = .forwardedToNextHop) {i : Input}
    (htold : s.told? i = none) :
    Uninformed (i.clock s.blockNumber) (s.payerOnChain || i.closes s.payerRoute.channelId)
      (s.step i) := by
  have hunaware : s.status.knowsSecret = false := by
    rw [h]
    rfl
  unfold step
  rw [h]
  cases i with
  | block number => exact (onBlock_uninformed h number).or_false
  | routeRefused refusal => exact (onRefusal_uninformed hunaware refusal).or_false
  | lockDisposed disposed => exact (onDisposal_uninformed hunaware disposed).or_false
  | secretRevealed reveal => exact (onSecretReveal_uninformed hunaware htold).or_false
  | chain event => exact onChain_uninformed h htold
  | _ => exact (uninformed_self hunaware).or_false

/-- A mediator starts by trying its routes, with the lock as it was received. -/
theorem start_eq_tryNextRoute (a : StartMediator) (block : Height) :
    ∃ s : Mediator, start a block = s.tryNextRoute ∧ s.blockNumber = block ∧
      s.payerOnChain = false ∧ s.received = TransferTerms.ofMessage a.message ∧
      s.payerRoute = a.payerRoute :=
  ⟨_, rfl, rfl, rfl, rfl, rfl⟩

theorem start_uninformed (a : StartMediator) (block : Height) :
    Uninformed block false (start a block) := by
  rcases start_eq_tryNextRoute a block with ⟨s, heq, hblock, hclosed, -⟩
  rw [heq, ← hblock, ← hclosed]
  exact tryNextRoute_uninformed s

/-! ### What was agreed at the start -/

/-- The lock that was received and the channel it came over are those of the start. -/
structure OfDeal (a : StartMediator) (s : Mediator) : Prop where
  received : s.received = TransferTerms.ofMessage a.message
  payerRoute : s.payerRoute = { a.payerRoute with closedBlock? := s.payerRoute.closedBlock? }

section Deal

variable {a : StartMediator} {s : Mediator}

theorem start_ofDeal (a : StartMediator) (block : Height) : OfDeal a (start a block).1 := by
  rcases start_eq_tryNextRoute a block with ⟨s, heq, -, -, hreceived, hroute⟩
  have hdeal := tryNextRoute_sameDeal s
  rw [heq]
  refine ⟨hdeal.received.trans hreceived, ?_⟩
  rw [← hroute]
  exact hdeal.payerRoute

theorem OfDeal.step (h : OfDeal a s) (i : Input) : OfDeal a (s.step i).1 := by
  have hdeal := step_sameDeal s i
  refine ⟨hdeal.received.trans h.received, ?_⟩
  rw [hdeal.payerRoute, h.payerRoute]

theorem OfDeal.channelId (h : OfDeal a s) : s.payerRoute.channelId = a.payerRoute.channelId := by
  rw [h.payerRoute]

theorem OfDeal.node (h : OfDeal a s) : s.payerRoute.node = a.payerRoute.node := by
  rw [h.payerRoute]

theorem OfDeal.payerDeadline (h : OfDeal a s) : s.payerDeadline = a.deadline := by
  rw [Mediator.payerDeadline, h.payerRoute, h.received]
  rfl

/-- What the mediator asks of the ledger is what collects the payer's lock. -/
theorem OfDeal.calls_claim (h : OfDeal a s) (secret : Secret) :
    Effect.calls (s.claim secret) = a.claimCalls secret s.payerOnChain := by
  unfold claim
  rw [h.received, h.payerRoute]
  cases s.payerOnChain with
  | false => rfl
  | true => rfl

theorem unlocks_claim (s : Mediator) (secret : Secret) : Effect.unlocks (s.claim secret) = 0 := by
  unfold claim
  cases s.payerOnChain with
  | false => rfl
  | true => rfl

end Deal

/-! ### Learning the secret -/

section Learning

variable {s : Mediator} {secret : Secret}

theorem checkPayerDeadline_of_lt (h : s.blockNumber < s.payerDeadline) :
    s.checkPayerDeadline = (s, []) := by
  unfold checkPayerDeadline
  split
  · exact if_neg (fun hdue => absurd hdue.2 (Word.not_le.mpr h))
  · rfl

theorem checkPayerDeadline_of_le (hstatus : s.status = .waitingSecretPropagation)
    (hsecret : s.secret? = some secret) (h : s.payerDeadline ≤ s.blockNumber) :
    s.checkPayerDeadline = ({ s with status := .partialUnlockOnChain }, s.claim secret) := by
  simp only [checkPayerDeadline, hsecret, if_pos (And.intro hstatus h)]

/-- Only a payee with an open channel and a lock that did not expire is paid. -/
theorem payPayee_cases (s : Mediator) (secret : Secret) :
    s.payPayee secret = [] ∨
    ∃ r t, s.payeeRoute? = some r ∧ s.offered? = some t ∧ s.blockNumber < t.expiration ∧
      s.payPayee secret = [.sendUnlock r.node r.channelId t.paymentId secret t.secretHash,
        .unlockSuccess t.paymentId t.secretHash] := by
  unfold payPayee
  split
  · rename_i r t hr ht
    split
    · rename_i hunlocks
      rw [unlocksPayee, Bool.and_eq_true] at hunlocks
      exact Or.inr ⟨r, t, hr, ht, of_decide_eq_true hunlocks.2, rfl⟩
    · exact Or.inl rfl
  · exact Or.inl rfl

theorem calls_payPayee (s : Mediator) (secret : Secret) :
    Effect.calls (s.payPayee secret) = [] := by
  rcases payPayee_cases s secret with heq | ⟨r, t, -, -, -, heq⟩
  · rw [heq]
    rfl
  · rw [heq]
    rfl

theorem unlocks_payPayee_le (s : Mediator) (secret : Secret) :
    Effect.unlocks (s.payPayee secret) ≤ 1 := by
  rcases payPayee_cases s secret with heq | ⟨r, t, -, -, -, heq⟩
  · rw [heq]
    exact Nat.zero_le 1
  · rw [heq]
    exact Nat.le_refl 1

theorem Learns.step_eq {i : Input} (h : s.Learns i secret) : s.step i = s.learnSecret secret := by
  rcases h with ⟨hstatus, htold⟩
  unfold step
  rw [hstatus]
  cases i with
  | secretRevealed r =>
      rw [told?, Option.ite_none_right_eq_some, Option.some.injEq] at htold
      rcases htold with ⟨⟨hpayee, hhash⟩, rfl⟩
      change s.onSecretReveal r = _
      rw [onSecretReveal, hpayee, if_neg (by decide), if_neg (not_not_intro hhash)]
  | chain e =>
      cases e with
      | secretRegistered secret' secretHash block =>
          rw [told?, Option.ite_none_right_eq_some, Option.some.injEq] at htold
          rcases htold with ⟨hhash, rfl⟩
          change s.onChain (.secretRegistered secret' secretHash block) = _
          rw [onChain, if_pos (And.intro hhash hstatus)]
      | _ => cases htold
  | _ => cases htold

end Learning

/-- A mediator is over, waits for its payer, goes on waiting for the secret, or learns
    it. -/
theorem step_cases (s : Mediator) (i : Input) :
    s.status.isTerminal = true ∨ s.status = .waitingSecretPropagation ∨
    (s.status = .forwardedToNextHop ∧ s.told? i = none) ∨
    ∃ secret, s.Learns i secret := by
  cases hstatus : s.status with
  | forwardedToNextHop =>
      cases htold : s.told? i with
      | none => exact Or.inr (Or.inr (Or.inl ⟨rfl, rfl⟩))
      | some secret => exact Or.inr (Or.inr (Or.inr ⟨secret, hstatus, htold⟩))
  | waitingSecretPropagation => exact Or.inr (Or.inl rfl)
  | _ => exact Or.inl rfl

/-! ### With the secret -/

/-- What comes of a mediator that goes on waiting for its payer, at a fact that is no
    block. -/
structure Waits (s : Mediator) (i : Input) (r : Mediator × List Effect) : Prop where
  status : r.1.status = .waitingSecretPropagation
  secret : r.1.secret? = s.secret?
  blockNumber : r.1.blockNumber = s.blockNumber
  clock : ∀ now, i.clock now = now
  payerOnChain : r.1.payerOnChain = (s.payerOnChain || i.closes s.payerRoute.channelId)
  quiet : ∀ e ∈ r.2, e.needsSecret = false

section Waiting

variable {s : Mediator}

/-- A fact that changes nothing. -/
theorem waits_self (h : s.status = .waitingSecretPropagation) {i : Input}
    (hclock : ∀ now, i.clock now = now) (hcloses : i.closes s.payerRoute.channelId = false)
    {es : List Effect} (hquiet : ∀ e ∈ es, e.needsSecret = false) : Waits s i (s, es) :=
  ⟨h, rfl, rfl, hclock, by rw [hcloses, Bool.or_false], hquiet⟩

theorem onChain_waits (h : s.status = .waitingSecretPropagation) (e : ChainEvent) :
    Waits s (.chain e) (s.onChain e) := by
  cases e with
  | channelClosed tokenNetwork channelId closer block =>
      unfold onChain
      by_cases hid : channelId = s.payerRoute.channelId
      · dsimp only
        rw [if_pos hid]
        refine ⟨h, rfl, rfl, fun _ => rfl, ?_, fun _ he => nomatch he⟩
        rw [Input.closes, decide_eq_true hid, Bool.or_true]
      · dsimp only
        rw [if_neg hid]
        refine ⟨h, rfl, rfl, fun _ => rfl, ?_, fun _ he => nomatch he⟩
        rw [Input.closes, decide_eq_false hid, Bool.or_false]
  | secretRegistered secret secretHash block =>
      -- The secret is known already.
      have hknown : ¬ (secretHash = s.received.secretHash ∧ s.status = .forwardedToNextHop) := by
        rintro ⟨-, hstatus⟩
        cases h.symm.trans hstatus
      rw [onChain, if_neg hknown]
      exact waits_self h (fun _ => rfl) rfl (fun _ he => nomatch he)
  | _ => exact waits_self h (fun _ => rfl) rfl (fun _ he => nomatch he)

/-- The payer's unlock is the only proof that ends the waiting. -/
theorem onProof_cases (h : s.status = .waitingSecretPropagation) (p : ProofReceived) :
    ((Input.proofReceived p).isUnlockOf s.payerRoute.node s.received.secretHash = true ∧
      s.onProof p = ({ s with status := .completed }, [])) ∨
    ((Input.proofReceived p).isUnlockOf s.payerRoute.node s.received.secretHash = false ∧
      Waits s (.proofReceived p) (s.onProof p)) := by
  rcases p with ⟨sender, secretHash, message⟩
  unfold onProof
  by_cases hpayer : sender = s.payerRoute.node ∧ secretHash = s.received.secretHash
  · have hours : ¬ (sender ≠ s.payerRoute.node ∨ secretHash ≠ s.received.secretHash) := by
      rintro (hne | hne)
      · exact hne hpayer.1
      · exact hne hpayer.2
    rw [if_neg hours]
    cases message with
    | unlock u => exact Or.inl ⟨decide_eq_true hpayer, rfl⟩
    | removal m =>
        exact Or.inr ⟨rfl, waits_self h (fun _ => rfl) rfl (by simp [Effect.needsSecret])⟩
  · have hother : sender ≠ s.payerRoute.node ∨ secretHash ≠ s.received.secretHash :=
      Decidable.not_and_iff_not_or_not.mp hpayer
    rw [if_pos hother]
    refine Or.inr ⟨?_, waits_self h (fun _ => rfl) rfl (fun _ he => nomatch he)⟩
    cases message with
    | unlock u => exact decide_eq_false hpayer
    | removal m => rfl

theorem onBlock_waiting (h : s.status = .waitingSecretPropagation) (number : Height) :
    s.onBlock number = checkPayerDeadline { s with blockNumber := number } := by
  unfold onBlock
  dsimp only
  split
  · rename_i hforwarded
    cases h.symm.trans hforwarded
  · rfl
  · rename_i hwaiting
    exact absurd h hwaiting

/-- A mediator that waits for its payer looks at the clock on every block, is done when
    the payer unlocks, and goes on waiting otherwise. -/
theorem step_waiting_cases (h : s.status = .waitingSecretPropagation) (i : Input) :
    (∃ number, i = .block number ∧ s.step i = checkPayerDeadline { s with blockNumber := number }) ∨
    (i.isUnlockOf s.payerRoute.node s.received.secretHash = true ∧
      s.step i = ({ s with status := .completed }, [])) ∨
    (i.isUnlockOf s.payerRoute.node s.received.secretHash = false ∧ Waits s i (s.step i)) := by
  have hstep : s.step i = match i with
      | .block number => s.onBlock number
      | .lockDisposed _ => (s, [warning ("ignoring dispose of transfer "
          ++ s.received.secretHash.toText ++ ": secret is known")])
      | .proofReceived proof => s.onProof proof
      | .chain event => s.onChain event
      | _ => (s, []) := by
    unfold step
    rw [h]
    cases i <;> rfl
  rw [hstep]
  cases i with
  | block number => exact Or.inl ⟨number, rfl, onBlock_waiting h number⟩
  | proofReceived p => exact Or.inr (onProof_cases h p)
  | chain e => exact Or.inr (Or.inr ⟨rfl, onChain_waits h e⟩)
  | lockDisposed d =>
      exact Or.inr (Or.inr
        ⟨rfl, waits_self h (fun _ => rfl) rfl (by simp [Effect.needsSecret, warning])⟩)
  | _ => exact Or.inr (Or.inr ⟨rfl, waits_self h (fun _ => rfl) rfl (fun _ he => nomatch he)⟩)

theorem checkPayerDeadline_knowsSecret (h : s.status = .waitingSecretPropagation) :
    s.checkPayerDeadline.1.status.knowsSecret = true ∧
      Effect.unlocks s.checkPayerDeadline.2 = 0 := by
  unfold checkPayerDeadline
  split
  · split
    · exact ⟨rfl, unlocks_claim s _⟩
    · exact ⟨congrArg MediatorStatus.knowsSecret h, rfl⟩
  · exact ⟨congrArg MediatorStatus.knowsSecret h, rfl⟩

/-- Once learned, the secret stays known, and the payee is not paid again. -/
theorem step_knowsSecret (h : s.status.knowsSecret = true) (i : Input) :
    (s.step i).1.status.knowsSecret = true ∧ Effect.unlocks (s.step i).2 = 0 := by
  by_cases hwaiting : s.status = .waitingSecretPropagation
  · rcases step_waiting_cases hwaiting i with ⟨number, -, heq⟩ | ⟨-, heq⟩ | ⟨-, hwaits⟩
    · rw [heq]
      exact checkPayerDeadline_knowsSecret (s := { s with blockNumber := number }) hwaiting
    · rw [heq]
      exact ⟨rfl, rfl⟩
    · exact ⟨congrArg MediatorStatus.knowsSecret hwaits.status,
        Effect.unlocks_of_no_secret hwaits.quiet⟩
  · have hterminal : s.status.isTerminal = true := by
      cases hstatus : s.status with
      | forwardedToNextHop => cases hstatus ▸ h
      | waitingSecretPropagation => exact absurd hstatus hwaiting
      | _ => rfl
    rw [step_of_isTerminal hterminal]
    exact ⟨h, rfl⟩

theorem run_knowsSecret (h : s.status.knowsSecret = true) (inputs : List Input) :
    (Machine.run step s inputs).status.knowsSecret = true :=
  Machine.run_invariant (P := fun s : Mediator => s.status.knowsSecret = true)
    (fun _ i hs => (step_knowsSecret hs i).1) h inputs

theorem unlocks_effects_of_knowsSecret (h : s.status.knowsSecret = true) (inputs : List Input) :
    Effect.unlocks (Machine.effects step s inputs) = 0 := by
  induction inputs generalizing s with
  | nil => rfl
  | cons i rest ih =>
      have hstep := step_knowsSecret h i
      rw [Machine.effects_cons, Effect.unlocks_append, hstep.2, ih hstep.1]

end Waiting

/-- The mediator learned the secret, its payer did not unlock yet, and there is time
    left for that. -/
structure Owed (a : StartMediator) (secret : Secret) (now : Height) (closed : Bool)
    (s : Mediator) : Prop where
  deal : OfDeal a s
  status : s.status = .waitingSecretPropagation
  secret : s.secret? = some secret
  blockNumber : s.blockNumber = now
  payerOnChain : s.payerOnChain = closed
  early : now < a.deadline

/-- The claim was made in the transition. -/
structure Claimed (a : StartMediator) (secret : Secret) (closed : Bool)
    (r : Mediator × List Effect) : Prop where
  status : r.1.status = .partialUnlockOnChain
  calls : Effect.calls r.2 = a.claimCalls secret closed

section Owed

variable {a : StartMediator} {secret : Secret} {now : Height} {closed : Bool} {s : Mediator}

theorem OfDeal.secretHash (h : OfDeal a s) :
    s.received.secretHash = a.message.lock.secretHash := by
  rw [h.received]
  rfl

theorem checkPayerDeadline_claimed (hdeal : OfDeal a s)
    (hstatus : s.status = .waitingSecretPropagation) (hsecret : s.secret? = some secret)
    (hdue : a.deadline ≤ s.blockNumber) :
    Claimed a secret s.payerOnChain s.checkPayerDeadline := by
  rw [checkPayerDeadline_of_le hstatus hsecret (hdeal.payerDeadline ▸ hdue)]
  exact ⟨rfl, hdeal.calls_claim secret⟩

/-- The mediator goes on being owed as long as the block is early and the payer does
    not unlock. -/
theorem step_owed (h : Owed a secret now closed s) {i : Input}
    (hunlock : i.isUnlockOf a.payerRoute.node a.message.lock.secretHash = false)
    (hearly : i.clock now < a.deadline) :
    Owed a secret (i.clock now) (closed || i.closes a.payerRoute.channelId) (s.step i).1 ∧
      ∀ e ∈ (s.step i).2, e.needsSecret = false := by
  have hdeal := h.deal.step i
  rcases step_waiting_cases h.status i with ⟨number, rfl, heq⟩ | ⟨hpayer, -⟩ | ⟨-, hwaits⟩
  · have hlt : number < s.payerDeadline := h.deal.payerDeadline ▸ hearly
    have hchecked := checkPayerDeadline_of_lt (s := { s with blockNumber := number }) hlt
    rw [heq, hchecked] at hdeal ⊢
    refine ⟨⟨hdeal, h.status, h.secret, rfl, ?_, hearly⟩, fun _ he => nomatch he⟩
    rw [Input.closes_block, Bool.or_false]
    exact h.payerOnChain
  · -- The payer's unlock is excluded.
    rw [h.deal.node, h.deal.secretHash, hunlock] at hpayer
    cases hpayer
  · refine ⟨⟨hdeal, hwaits.status, hwaits.secret.trans h.secret, ?_, ?_, hearly⟩, hwaits.quiet⟩
    · rw [hwaits.blockNumber, hwaits.clock, h.blockNumber]
    · rw [hwaits.payerOnChain, h.payerOnChain, h.deal.channelId]

/-- The fact that ends the payer's time makes the claim. -/
theorem step_due (h : Owed a secret now closed s) {i : Input}
    (hunlock : i.isUnlockOf a.payerRoute.node a.message.lock.secretHash = false)
    (hdue : a.deadline ≤ i.clock now) :
    Claimed a secret (closed || i.closes a.payerRoute.channelId) (s.step i) := by
  rcases step_waiting_cases h.status i with ⟨number, rfl, heq⟩ | ⟨hpayer, -⟩ | ⟨-, hwaits⟩
  · have hdeal : OfDeal a { s with blockNumber := number } :=
      ⟨h.deal.received, h.deal.payerRoute⟩
    rw [heq, Input.closes_block, Bool.or_false, ← h.payerOnChain]
    exact checkPayerDeadline_claimed hdeal h.status h.secret hdue
  · rw [h.deal.node, h.deal.secretHash, hunlock] at hpayer
    cases hpayer
  · -- It was early before, and only a block moves the clock.
    rw [hwaits.clock] at hdue
    exact absurd h.early (Word.not_lt.mpr hdue)

end Owed

end Mediator

/-! ### The first block that is too late -/

namespace StartMediator

/-- After these facts, and not before the last of them, the payer's time is over. -/
def FirstDue (a : StartMediator) (now : Height) (inputs : List Input) : Prop :=
  ∀ first, first <+: inputs → (a.deadline ≤ Input.lastBlock now first ↔ first = inputs)

end StartMediator

namespace Mediator

section Due

variable {a : StartMediator} {secret : Secret} {now : Height} {closed : Bool} {s : Mediator}

/-- What its payer owes a mediator that knows the secret. -/
def debt (a : StartMediator) (secret : Secret) : Machine.Debt step where
  deadline := a.deadline
  pays := Input.isUnlockOf a.payerRoute.node a.message.lock.secretHash
  closes := Input.closes a.payerRoute.channelId
  claim := a.claimCalls secret
  Owed := Owed a secret
  Collected s := s.status = .partialUnlockOnChain
  early h := h.early
  waits h hunlock hearly :=
    have howed := step_owed h hunlock hearly
    ⟨howed.1, Effect.calls_of_no_secret howed.2⟩
  collects h hunlock hdue :=
    have hclaimed := step_due h hunlock hdue
    ⟨hclaimed.status, hclaimed.calls⟩

/-- A mediator that learns the secret claims at once if the payer's time is over, and
    is owed otherwise. -/
theorem Learns.outcome {i : Input} (h : s.Learns i secret) (hdeal : OfDeal a s)
    (hblock : s.blockNumber = now) (hclosed : s.payerOnChain = closed) :
    (a.deadline ≤ now → Claimed a secret closed (s.step i)) ∧
    (now < a.deadline →
      Owed a secret now closed (s.step i).1 ∧ Effect.calls (s.step i).2 = []) := by
  have hlearned : OfDeal a { s with secret? := some secret, status := .waitingSecretPropagation } :=
    ⟨hdeal.received, hdeal.payerRoute⟩
  subst hblock hclosed
  refine ⟨fun hdue => ?_, fun hearly => ?_⟩
  · have hclaimed := checkPayerDeadline_claimed hlearned rfl rfl hdue
    rw [h.step_eq]
    refine ⟨hclaimed.status, ?_⟩
    -- Paying the payee asks for nothing of the ledger, so all calls are those of the claim.
    rw [learnSecret_snd, Effect.calls_append, hclaimed.calls]
    exact congrArg (· ++ a.claimCalls secret s.payerOnChain) (calls_payPayee s secret)
  · have hkept := checkPayerDeadline_of_lt
      (s := { s with secret? := some secret, status := .waitingSecretPropagation })
      (hdeal.payerDeadline ▸ hearly)
    rw [h.step_eq, learnSecret_fst, learnSecret_snd, hkept, List.append_nil]
    exact ⟨⟨hlearned, rfl, rfl, rfl, rfl, hearly⟩, calls_payPayee s secret⟩

/-- From the fact that tells the secret on, the claim is made when the payer's time is
    over. -/
theorem Learns.run_due {i : Input} (h : s.Learns i secret) (hdeal : OfDeal a s)
    (hblock : s.blockNumber = now) (hclosed : s.payerOnChain = closed) {mid : List Input}
    (hunlock : ∀ j ∈ mid, j.isUnlockOf a.payerRoute.node a.message.lock.secretHash = false)
    (hdue : a.FirstDue now mid) :
    Effect.calls (Machine.effects step s (i :: mid).dropLast) = [] ∧
    Claimed a secret (closed || mid.any (Input.closes a.payerRoute.channelId))
      (Machine.run step s (i :: mid), Machine.effects step s (i :: mid)) := by
  have houtcome := h.outcome hdeal hblock hclosed
  have hrun := (debt a secret).run_from
    (fun hlate => have hclaimed := houtcome.1 hlate; ⟨hclaimed.status, hclaimed.calls⟩)
    houtcome.2 hunlock hdue
  exact ⟨hrun.1, hrun.2.1, hrun.2.2⟩

end Due

/-! ### From the start -/

section Start

variable {a : StartMediator} {block : Height} {s : Mediator} {secret : Secret}

theorem stateAfter_append (first later : List Input) :
    stateAfter a block (first ++ later) = Machine.run step (stateAfter a block first) later :=
  Machine.run_append step _ first later

theorem effectsOf_append (first later : List Input) :
    effectsOf a block (first ++ later)
      = effectsOf a block first ++ Machine.effects step (stateAfter a block first) later := by
  unfold effectsOf stateAfter
  rw [Machine.effects_append, List.append_assoc]

theorem stateAfter_ofDeal (a : StartMediator) (block : Height) (inputs : List Input) :
    OfDeal a (stateAfter a block inputs) :=
  Machine.run_invariant (fun _ i h => h.step i) (start_ofDeal a block) inputs

theorem Learns.knowsSecret {i : Input} (h : s.Learns i secret) :
    (s.step i).1.status.knowsSecret = true := by
  rw [h.step_eq, learnSecret_fst]
  exact (checkPayerDeadline_knowsSecret rfl).1

/-- Who waits for the secret after a fact waited before, and was not told it. -/
theorem forwarded_of_step {i : Input} (h : (s.step i).1.status = .forwardedToNextHop) :
    s.status = .forwardedToNextHop ∧ s.told? i = none := by
  have hunaware (hknows : (s.step i).1.status.knowsSecret = true) : False := by
    rw [h] at hknows
    cases hknows
  have hstatus : s.status = .forwardedToNextHop := by
    cases hs : s.status with
    | forwardedToNextHop => rfl
    | expiredBoth =>
        rw [step_of_isTerminal (by rw [hs]; rfl), hs] at h
        cases h
    | canceled =>
        rw [step_of_isTerminal (by rw [hs]; rfl), hs] at h
        cases h
    | _ => exact (hunaware (step_knowsSecret (by rw [hs]; rfl) i).1).elim
  refine ⟨hstatus, ?_⟩
  cases htold : s.told? i with
  | none => rfl
  | some secret => exact (hunaware (Learns.knowsSecret ⟨hstatus, htold⟩)).elim

/-- As long as the mediator waits for the secret it knows what was announced, and
    nothing that needs the secret was asked for. -/
theorem run_uninformed (a : StartMediator) (block : Height) (inputs : List Input)
    (h : (stateAfter a block inputs).status = .forwardedToNextHop) :
    Uninformed (Input.lastBlock block inputs) (inputs.any (Input.closes a.payerRoute.channelId))
      (stateAfter a block inputs, effectsOf a block inputs) := by
  induction inputs using List.reverseRec with
  | nil =>
      have hstart := start_uninformed a block
      refine ⟨hstart.blockNumber, hstart.payerOnChain, hstart.status, ?_⟩
      rw [effectsOf, Machine.effects_nil, List.append_nil]
      exact hstart.quiet
  | append_singleton inputs i ih =>
      rw [stateAfter_append] at h ⊢
      rw [effectsOf_append, Input.lastBlock_append, List.any_append]
      -- Who still waits has waited all along, so the run is cut at its last fact.
      obtain ⟨hbefore, htold⟩ := forwarded_of_step h
      have hpast := ih hbefore
      have hnow := step_uninformed hbefore htold
      refine ⟨hnow.blockNumber.trans ?_, hnow.payerOnChain.trans ?_, hnow.status, fun e he => ?_⟩
      · rw [hpast.blockNumber]
        rfl
      · rw [hpast.payerOnChain, (stateAfter_ofDeal a block inputs).channelId, List.any_cons,
          List.any_nil, Bool.or_false]
      · rcases List.mem_append.mp he with he | he
        · exact hpast.quiet e he
        · rw [Machine.effects_cons, Machine.effects_nil, List.append_nil] at he
          exact hnow.quiet e he

/-- Only the fact that tells the secret pays the payee. -/
theorem learns_of_unlocks {i : Input} (h : Effect.unlocks (s.step i).2 ≠ 0) :
    ∃ secret, s.Learns i secret := by
  by_contra hnone
  refine h ?_
  cases hs : s.status with
  | forwardedToNextHop =>
      cases htold : s.told? i with
      | none => exact Effect.unlocks_of_no_secret (step_uninformed hs htold).quiet
      | some secret => exact absurd ⟨secret, hs, htold⟩ hnone
  | expiredBoth => rw [step_of_isTerminal (by rw [hs]; rfl), Effect.unlocks_nil]
  | canceled => rw [step_of_isTerminal (by rw [hs]; rfl), Effect.unlocks_nil]
  | _ => exact (step_knowsSecret (by rw [hs]; rfl) i).2

theorem Learns.unlocks_eq {i : Input} (h : s.Learns i secret) :
    Effect.unlocks (s.step i).2 = Effect.unlocks (s.payPayee secret) := by
  rw [h.step_eq, learnSecret_snd, Effect.unlocks_append, (checkPayerDeadline_knowsSecret rfl).2,
    Nat.add_zero]
  rfl

/-- The payee is paid at most once. -/
theorem unlocks_effects_le (s : Mediator) (inputs : List Input) :
    Effect.unlocks (Machine.effects step s inputs) ≤ 1 := by
  induction inputs generalizing s with
  | nil => exact Nat.zero_le 1
  | cons i rest ih =>
      rw [Machine.effects_cons, Effect.unlocks_append]
      by_cases hpaid : Effect.unlocks (s.step i).2 = 0
      · rw [hpaid, Nat.zero_add]
        exact ih _
      · -- It was paid now, so the secret is known from here on, and nothing is paid any more.
        obtain ⟨secret, hlearns⟩ := learns_of_unlocks hpaid
        rw [unlocks_effects_of_knowsSecret hlearns.knowsSecret, hlearns.unlocks_eq]
        exact unlocks_payPayee_le s secret

end Start

/-- What a mediator does about the secret, whatever facts reach it and in whatever
    order. -/
structure CollectionLaw (a : StartMediator) (block : Height) : Prop where
  /-- The secret is shown to the payer by the transition that learns it. -/
  reveals : ∀ before i secret, (stateAfter a block before).Learns i secret →
    .sendSecretReveal a.payerRoute.node secret ∈ ((stateAfter a block before).step i).2
  /-- The payee is paid at most once. -/
  pays_once : ∀ inputs, Effect.unlocks (effectsOf a block inputs) ≤ 1
  /-- It is not paid by taking the transfer on. -/
  start_pays_nothing : Effect.unlocks (start a block).2 = 0
  /-- It is paid by the transition that learns the secret alone, and before the lock
      that was offered to it expires. -/
  pays_learning : ∀ before i, Effect.unlocks ((stateAfter a block before).step i).2 ≠ 0 →
    ∃ secret, (stateAfter a block before).Learns i secret ∧
      ∃ t, (stateAfter a block before).offered? = some t ∧
        Input.lastBlock block before < t.expiration
  /-- A transfer whose secret is known is never given up. -/
  keeps : ∀ before i after secret, (stateAfter a block before).Learns i secret →
    (stateAfter a block (before ++ i :: after)).status ≠ .expiredBoth ∧
      (stateAfter a block (before ++ i :: after)).status ≠ .canceled
  /-- Unless the payer unlocked since the secret was learned, the first transition from
      there on that finds the payer's time over claims the payer's lock, and no other
      transition of the run asks for anything of the ledger. -/
  claims : ∀ before i mid after secret, (stateAfter a block before).Learns i secret →
    (∀ j ∈ mid, j.isUnlockOf a.payerRoute.node a.message.lock.secretHash = false) →
    a.FirstDue (Input.lastBlock block (before ++ [i])) mid →
    Effect.calls (effectsOf a block (before ++ (i :: mid).dropLast)) = [] ∧
    Effect.calls (effectsOf a block (before ++ i :: mid ++ after))
      = a.claimCalls secret ((before ++ i :: mid).any (Input.closes a.payerRoute.channelId))

section Law

variable {a : StartMediator} {block : Height} {s : Mediator} {secret : Secret}

/-- A fact that tells the secret announces no block and closes no channel. -/
theorem Learns.clock_closes {i : Input} (h : s.Learns i secret) (now : Height) (id : ChannelId) :
    i.clock now = now ∧ i.closes id = false := by
  have htold := h.2
  cases i with
  | secretRevealed r => exact ⟨rfl, rfl⟩
  | chain e =>
      cases e with
      | secretRegistered secret secretHash block => exact ⟨rfl, rfl⟩
      | _ => cases htold
  | _ => cases htold

theorem Learns.claims {before mid after : List Input} {i : Input}
    (h : (stateAfter a block before).Learns i secret)
    (hunlock : ∀ j ∈ mid, j.isUnlockOf a.payerRoute.node a.message.lock.secretHash = false)
    (hdue : a.FirstDue (Input.lastBlock block (before ++ [i])) mid) :
    Effect.calls (effectsOf a block (before ++ (i :: mid).dropLast)) = [] ∧
    Effect.calls (effectsOf a block (before ++ i :: mid ++ after))
      = a.claimCalls secret ((before ++ i :: mid).any (Input.closes a.payerRoute.channelId)) := by
  have hpast := run_uninformed a block before h.1
  have hquiet := Effect.calls_of_no_secret hpast.quiet
  have hfact := h.clock_closes (Input.lastBlock block before) a.payerRoute.channelId
  rw [Input.lastBlock_append, Input.lastBlock_cons, Input.lastBlock_nil, hfact.1] at hdue
  have hrun := h.run_due (stateAfter_ofDeal a block before) hpast.blockNumber hpast.payerOnChain
    hunlock hdue
  refine ⟨?_, ?_⟩
  · rw [effectsOf_append, Effect.calls_append, hquiet, hrun.1]
    rfl
  · -- The claim ends the transfer, so nothing is asked for after it.
    have hdone := Machine.effects_of_fixed
      (step_of_isTerminal (by rw [hrun.2.status]; rfl)) after
    rw [List.append_assoc, effectsOf_append, Machine.effects_append, hdone.2, List.append_nil,
      Effect.calls_append, hquiet, hrun.2.calls, List.any_append, List.any_cons, hfact.2]
    rfl

/-- A mediator that learned the secret collects from its payer. -/
theorem run_collectionLaw (a : StartMediator) (block : Height) : CollectionLaw a block where
  reveals before i secret h := by
    rw [h.step_eq, learnSecret_snd, (stateAfter_ofDeal a block before).node]
    exact List.mem_append_left _ List.mem_cons_self
  pays_once inputs := by
    rw [effectsOf, Effect.unlocks_append,
      Effect.unlocks_of_no_secret (start_uninformed a block).quiet, Nat.zero_add]
    exact unlocks_effects_le _ inputs
  start_pays_nothing := Effect.unlocks_of_no_secret (start_uninformed a block).quiet
  pays_learning before i h := by
    obtain ⟨secret, hlearns⟩ := learns_of_unlocks h
    refine ⟨secret, hlearns, ?_⟩
    rw [hlearns.unlocks_eq] at h
    rcases payPayee_cases (stateAfter a block before) secret with heq | ⟨r, t, -, ht, hlt, -⟩
    · rw [heq] at h
      exact absurd rfl h
    · rw [(run_uninformed a block before hlearns.1).blockNumber] at hlt
      exact ⟨t, ht, hlt⟩
  keeps before i after secret h := by
    have hknows := run_knowsSecret h.knowsSecret after
    rw [stateAfter_append, Machine.run_cons]
    refine ⟨fun hexpired => ?_, fun hcanceled => ?_⟩
    · rw [hexpired] at hknows
      cases hknows
    · rw [hcanceled] at hknows
      cases hknows
  claims before i mid after secret h hunlock hdue := h.claims hunlock hdue

end Law

end Mediator

end PaymentNetwork

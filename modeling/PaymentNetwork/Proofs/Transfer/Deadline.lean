import PaymentNetwork.Proofs.Transfer.Mediation

/-!
# The Time of a Lock

A transfer in progress has a lock that has not expired.

A mediator and a target look at the clock on every block. Without the secret they give
the transfer up at the expiration of the lock that they received. With the secret they
do not wait that long: they go to the ledger a reveal timeout before. For this they
need the secret itself, and a state that waits for the payer's unlock has it.

## Main definitions

* `Transfer.Prepared`: A transfer that waits for an unlock has the secret.
* `Transfer.InTime`: The lock that the transfer began with has not expired.

## Theorems

* `Transfer.step_prepared`: No fact loses the secret.
* `Transfer.step_block_cases`: A transfer is over after a block at which its lock has
  expired.
-/

namespace PaymentNetwork

namespace Mediator

/-- A mediator that waits for its payer has the secret. -/
def Prepared (s : Mediator) : Prop :=
  s.status = .waitingSecretPropagation → s.secret?.isSome = true

section Prepared

variable {s : Mediator}

theorem prepared_of_ne (h : s.status ≠ .waitingSecretPropagation) : s.Prepared :=
  fun hwaiting => absurd hwaiting h

theorem checkPayerDeadline_prepared (h : s.Prepared) : s.checkPayerDeadline.1.Prepared := by
  unfold checkPayerDeadline
  split
  · split
    · refine prepared_of_ne (fun hwaiting => ?_)
      cases hwaiting
    · exact h
  · exact h

theorem step_prepared (h : s.Prepared) (i : Input) : (s.step i).1.Prepared := by
  rcases s.step_cases i with hterminal | hwaiting | ⟨hforwarded, htold⟩ | ⟨secret, hlearns⟩
  · rw [step_of_isTerminal hterminal]
    exact h
  · rcases step_waiting_cases hwaiting i with ⟨number, -, heq⟩ | ⟨-, heq⟩ | ⟨-, hwaits⟩
    · rw [heq]
      exact checkPayerDeadline_prepared (s := { s with blockNumber := number }) h
    · rw [heq]
      exact prepared_of_ne (fun hwaiting => nomatch hwaiting)
    · intro _
      rw [hwaits.secret]
      exact h hwaiting
  · -- Whoever was not told the secret waits for nothing.
    have hunaware := (step_uninformed hforwarded htold).status
    refine prepared_of_ne (fun hwaiting => ?_)
    rw [hwaiting] at hunaware
    cases hunaware
  · rw [hlearns.step_eq, learnSecret_fst]
    exact checkPayerDeadline_prepared (fun _ => rfl)

theorem step_block (h : ¬ s.status.isTerminal = true) (number : Height) :
    s.step (.block number) = s.onBlock number := by
  unfold step
  exact if_neg h

/-- The removal of the offered lock concerns neither the received lock nor the clock. -/
theorem removeDownstream_received (s : Mediator) :
    s.removeDownstream.1.received = s.received ∧
      s.removeDownstream.1.blockNumber = s.blockNumber := by
  unfold removeDownstream
  split
  · split
    · exact ⟨rfl, rfl⟩
    · exact ⟨rfl, rfl⟩
  · exact ⟨rfl, rfl⟩

/-- A mediator gives up when the received lock expires, or claims it before. -/
theorem step_block_isTerminal (h : s.Prepared) {number : Height}
    (hexpired : s.received.expiration ≤ number) :
    (s.step (.block number)).1.status.isTerminal = true := by
  by_cases hterminal : s.status.isTerminal = true
  · rw [step_of_isTerminal hterminal]
    exact hterminal
  · rw [step_block hterminal]
    unfold onBlock
    dsimp only
    split
    -- Without the secret the transfer is given up at the expiration.
    · rcases removeDownstream_received { s with blockNumber := number } with ⟨hreceived, hblock⟩
      rw [expire, hreceived, hblock, if_pos hexpired]
      rfl
    -- With the secret the lock is claimed, as the deadline is before the expiration.
    · rename_i hwaiting
      obtain ⟨secret, hsecret⟩ := Option.isSome_iff_exists.mp (h hwaiting)
      have hdue : s.payerDeadline ≤ number := Nat.le_trans (Nat.sub_le _ _) hexpired
      rw [checkPayerDeadline_of_le (s := { s with blockNumber := number }) hwaiting hsecret hdue]
      rfl
    · rename_i hforwarded hwaiting
      cases hstatus : s.status with
      | forwardedToNextHop => exact absurd hstatus hforwarded
      | waitingSecretPropagation => exact absurd hstatus hwaiting
      | _ => rfl

end Prepared

end Mediator

namespace Target

/-- A target that waits for its payer has the secret. -/
def Prepared (s : Target) : Prop :=
  s.status = .waitingUnlock → s.terms.secret?.isSome = true

section Prepared

variable {s : Target}

theorem prepared_of_ne (h : s.status ≠ .waitingUnlock) : s.Prepared :=
  fun hwaiting => absurd hwaiting h

theorem expire_prepared (h : s.Prepared) : s.expire.1.Prepared := by
  unfold expire
  split
  · exact prepared_of_ne (fun hwaiting => nomatch hwaiting)
  · exact h

theorem checkUnlockDeadline_prepared (h : s.Prepared) : s.checkUnlockDeadline.1.Prepared := by
  rcases s.checkUnlockDeadline_cases with heq | ⟨secret, -, heq⟩
  · rw [heq]
    exact h
  · rw [heq]
    exact prepared_of_ne (fun hwaiting => nomatch hwaiting)

theorem step_prepared (h : s.Prepared) (i : Input) : (s.step i).1.Prepared := by
  rcases s.step_cases i with ⟨number, -, -, heq⟩ | ⟨number, -, -, heq⟩ | ⟨secret, -, heq⟩ |
    ⟨-, heq⟩ | hkeeps
  · rw [heq]
    exact expire_prepared (s := { s with blockNumber := number }) h
  · rw [heq]
    exact checkUnlockDeadline_prepared (s := { s with blockNumber := number }) h
  · rw [heq, learnSecret_fst]
    exact checkUnlockDeadline_prepared (fun _ => rfl)
  · rw [heq]
    exact prepared_of_ne (fun hwaiting => nomatch hwaiting)
  · intro hwaiting
    rw [hkeeps.terms]
    exact h (hkeeps.status ▸ hwaiting)

theorem step_block (h : ¬ s.status.isTerminal = true) (number : Height) :
    s.step (.block number) = s.onBlock number := by
  unfold step
  exact if_neg h

theorem checkUnlockDeadline_of_le {secret : Secret} (hstatus : s.status = .waitingUnlock)
    (hsecret : s.terms.secret? = some secret) (h : s.unlockDeadline ≤ s.blockNumber) :
    s.checkUnlockDeadline = ({ s with status := .completed }, s.claim secret) := by
  simp only [checkUnlockDeadline, hsecret, if_pos (And.intro hstatus h)]

/-- A target gives up when the lock expires, or claims it before. -/
theorem step_block_isTerminal (h : s.Prepared) {number : Height}
    (hexpired : s.terms.expiration ≤ number) :
    (s.step (.block number)).1.status.isTerminal = true := by
  by_cases hterminal : s.status.isTerminal = true
  · rw [step_of_isTerminal hterminal]
    exact hterminal
  · have hexpire : (expire { s with blockNumber := number }).1.status.isTerminal = true := by
      rw [expire, if_pos hexpired]
      rfl
    rw [step_block hterminal]
    unfold onBlock
    dsimp only
    split
    · exact hexpire
    · exact hexpire
    -- The deadline is before the expiration here too.
    · rename_i hwaiting
      obtain ⟨secret, hsecret⟩ := Option.isSome_iff_exists.mp (h hwaiting)
      have hdue : s.unlockDeadline ≤ number := Nat.le_trans (Nat.sub_le _ _) hexpired
      rw [checkUnlockDeadline_of_le (s := { s with blockNumber := number }) hwaiting hsecret hdue]
      rfl
    · rename_i hidle hrequested hwaiting
      cases hstatus : s.status with
      | idle => exact absurd hstatus hidle
      | requestedSecret => exact absurd hstatus hrequested
      | waitingUnlock => exact absurd hstatus hwaiting
      | _ => rfl

end Prepared

end Target

namespace Transfer

/-- A transfer that waits for its payer's unlock has the secret. -/
def Prepared : Transfer → Prop
  | initiator _ => True
  | mediator s => s.Prepared
  | target s => s.Prepared

theorem Prepared.step {t : Transfer} (h : t.Prepared) (i : Input) : (t.step i).1.Prepared := by
  cases t with
  | initiator s => trivial
  | mediator s => exact Mediator.step_prepared h i
  | target s => exact Target.step_prepared h i

theorem prepared_of_not_awaitsUnlock {t : Transfer} (h : t.awaitsUnlock = false) : t.Prepared := by
  cases t with
  | initiator s => trivial
  | mediator s => exact Mediator.prepared_of_ne (of_decide_eq_false h)
  | target s => exact Target.prepared_of_ne (of_decide_eq_false h)

/-- The lock that the transfer began with has not expired at the block. -/
def InTime (block : Height) (t : Transfer) : Prop :=
  ∀ o, t.offer? = some o → block < o.lock.expiration

theorem InTime.step {block : Height} {t : Transfer} (h : t.InTime block) (i : Input) :
    (t.step i).1.InTime block := by
  intro o ho
  rw [step_offer?] at ho
  exact h o ho

/-- After a block a transfer is over, or its lock has not expired. -/
theorem step_block_cases {t : Transfer} (h : t.Prepared) (number : Height) :
    (t.step (.block number)).1.isTerminal = true ∨ t.InTime number := by
  cases t with
  | initiator s => exact Or.inr (fun o ho => nomatch ho)
  | mediator s =>
      by_cases hexpired : s.received.expiration ≤ number
      · exact Or.inl (Mediator.step_block_isTerminal h hexpired)
      · refine Or.inr (fun o ho => ?_)
        cases ho
        exact Word.not_le.mp hexpired
  | target s =>
      by_cases hexpired : s.terms.expiration ≤ number
      · exact Or.inl (Target.step_block_isTerminal h hexpired)
      · refine Or.inr (fun o ho => ?_)
        cases ho
        exact Word.not_le.mp hexpired

end Transfer

end PaymentNetwork

import PaymentNetwork.Proofs.Transfer.Forwarding
import PaymentNetwork.Proofs.Transfer.Payment

/-!
# What Shows the Secret

Where the secrets in the effects of a transfer come from.

The initiator of a payment has the secret from the start, in its terms, and copies of the
terms go to the channel and to the application. All the same it shows the secret only
after the target asked for it, since no copy that leaves the initiator carries the secret
and the status says whether it was released. The two others have no secret before a fact
tells them. So a secret that an effect shows has one of three sources: the transfer knew
it before, the fact tells it, or the fact is the request that releases it.

Some steps show no secret at all, whoever takes them: those that give the transfer up,
and those about locks that were refused, given up or changed.

## Main definitions

* `Effect.secret?`, `Input.secret?`: The secret that an effect shows, and the one that a
  fact tells.
* `Transfer.known?`, `Transfer.released?`: The secret that a transfer works with, and the
  one that a request releases.
* `Transfer.Sources`, `Transfer.Confined`: Where a secret may come from, and a reaction
  that shows and knows no other.
* `Transfer.isAbandoned`, `Input.isSilent`: Ends and facts that show no secret.

## Theorems

* `Transfer.step_confined`: What a step shows or learns has a source.
* `Transfer.step_silent`, `Transfer.step_abandoned`, `Transfer.step_lockedTransfer`: Steps
  and effects without a secret.
* `Transfer.released?_of_step`: A step does not bring a release about.
-/

namespace PaymentNetwork

namespace Effect

/-- The secret that the effect shows. A locked transfer shows that of its terms. -/
def secret? : Effect → Option Secret
  | sendLockedTransfer _ _ terms => terms.secret?
  | sendSecretReveal _ secret => some secret
  | sendUnlock _ _ _ secret _ => some secret
  | call (.registerSecret secret _) => some secret
  | _ => none

/-- Without the secret only a locked transfer could show it. -/
theorem secret?_of_not_needsSecret {e : Effect} (h : e.needsSecret = false)
    (hlocked : ∀ recipient channelId terms, e = .sendLockedTransfer recipient channelId terms →
      terms.secret? = none) : e.secret? = none := by
  cases e with
  | sendLockedTransfer recipient channelId terms => exact hlocked recipient channelId terms rfl
  | sendSecretReveal => cases h
  | sendUnlock => cases h
  | call c => cases h
  | _ => rfl

end Effect

namespace Input

/-- The secret that the fact tells. -/
def secret? : Input → Option Secret
  | secretRevealed r => some r.secret
  | chain (.secretRegistered secret _ _) => some secret
  | _ => none

/-- Is the fact only about the locks of others, or about a lock that was refused? -/
def isSilent : Input → Bool
  | routeRefused _ => true
  | lockDisposed _ => true
  | proofReceived _ => true
  | _ => false

theorem secret?_of_told? {s : Mediator} {i : Input} {secret : Secret}
    (h : s.told? i = some secret) : i.secret? = some secret := by
  cases i with
  | secretRevealed r =>
      rw [Mediator.told?, Option.ite_none_right_eq_some] at h
      exact h.2
  | chain e =>
      cases e with
      | secretRegistered secret' secretHash block =>
          rw [Mediator.told?, Option.ite_none_right_eq_some] at h
          exact h.2
      | _ => cases h
  | _ => cases h

end Input

namespace Transfer

/-- The secret that the transfer works with. An initiator has it from the start, and works
    with it as soon as it was released. -/
def known? : Transfer → Option Secret
  | initiator s => if s.status = .waitingUnlock then s.terms.secret? else none
  | mediator s => if s.status.knowsSecret then s.secret? else none
  | target s => s.terms.secret?

/-- The secret that the fact makes an initiator release: the target of the payment asks for
    it, and it was not released before. -/
def released? : Transfer → Input → Option Secret
  | initiator s, .secretRequested r =>
    if s.status = .waitingSecretRequest ∧ Initiator.isValidRequest s.terms r then s.terms.secret?
    else none
  | _, _ => none

/-- The three places that a secret may come from in a step. -/
def Sources (t : Transfer) (i : Input) (secret : Secret) : Prop :=
  t.known? = some secret ∨ i.secret? = some secret ∨ t.released? i = some secret

/-- The reaction shows no secret, and knows none, but those that are allowed. -/
structure Confined (allowed : Secret → Prop) (r : Transfer × List Effect) : Prop where
  effects : ∀ e ∈ r.2, ∀ secret, e.secret? = some secret → allowed secret
  knows : ∀ secret, r.1.known? = some secret → allowed secret

/-- Was the transfer given up? -/
def isAbandoned : Transfer → Bool
  | initiator s => s.status = .expired ∨ s.status = .canceled
  | mediator s => s.status = .expiredBoth ∨ s.status = .canceled
  | target s => s.status = .expired

end Transfer

/-! ### The initiator -/

namespace Initiator

variable (s : Initiator)

theorem tryNextRoute_shows_nothing : ∀ e ∈ s.tryNextRoute.2, e.secret? = none := by
  unfold tryNextRoute
  split
  · simp [Effect.secret?]
  · simp [Effect.secret?, failed]

theorem removal_shows_nothing : ∀ e ∈ s.removal, e.secret? = none := by
  unfold removal
  split
  · split
    · simp
    · simp [Effect.secret?]
  · simp

theorem notices_show_nothing {effects : List Effect}
    (h : ∀ e ∈ effects, ∃ level info, e = .notice level info) :
    ∀ e ∈ effects, e.secret? = none := by
  intro e he
  rcases h e he with ⟨level, info, rfl⟩
  rfl

theorem expires_shows_nothing (reason : String) :
    ∀ e ∈ s.removal ++ [failed s.terms .expired reason,
      .unlockFailed s.terms.paymentId s.terms.secretHash reason], e.secret? = none := by
  intro e he
  rcases List.mem_append.mp he with he | he
  · exact s.removal_shows_nothing e he
  · simp only [List.mem_cons, List.not_mem_nil, or_false] at he
    rcases he with rfl | rfl
    · rfl
    · rfl

theorem start_shows_nothing (a : StartInitiator) (block : Height) :
    ∀ e ∈ (start a block).2, e.secret? = none := by
  rcases start_cases a block with ⟨s, reason, heq, -, -⟩ | ⟨s, heq, -⟩
  · rw [heq]
    simp [Effect.secret?, failed]
  · rw [heq]
    exact s.tryNextRoute_shows_nothing

/-- A step shows nothing, or the secret was released before, or it is released now. What
    the next hop showed is what it is paid with. -/
theorem step_shows {i : Input} {e : Effect} (he : e ∈ (s.step i).2) {secret : Secret}
    (hsecret : e.secret? = some secret) : (Transfer.initiator s).Sources i secret := by
  have hnone : ∀ {effects : List Effect}, (∀ e ∈ effects, e.secret? = none) → e ∉ effects := by
    intro effects h hmem
    cases (h e hmem).symm.trans hsecret
  have hmoves := s.step_moves i
  generalize s.step i = r at hmoves he
  cases hmoves with
  | keeps hterms hstatus hnotices => exact absurd he (hnone (notices_show_nothing hnotices))
  | @searches s₀ => exact absurd he (hnone s₀.tryNextRoute_shows_nothing)
  | @releases r secret' hstatus hfact hvalid hsecret' =>
      cases List.mem_singleton.mp he
      refine Or.inr (Or.inr ?_)
      rw [hfact, Transfer.released?, if_pos ⟨hstatus, hvalid⟩, hsecret']
      exact hsecret
  | @pays r route hstatus hfact hroute hnode hhash =>
      simp only [List.mem_cons, List.not_mem_nil, or_false] at he
      rcases he with rfl | rfl | rfl
      · refine Or.inr (Or.inl ?_)
        rw [hfact]
        exact hsecret
      · cases hsecret
      · cases hsecret
  | settles =>
      cases List.mem_singleton.mp he
      cases hsecret
  | @registers number secret' hstatus hfact hsecret' =>
      cases List.mem_singleton.mp he
      refine Or.inl ?_
      rw [Transfer.known?, if_pos hstatus, hsecret']
      exact hsecret
  | expires => exact absurd he (hnone (s.expires_shows_nothing _))

/-- Only the request of the target makes an initiator work with the secret. -/
theorem step_knows {i : Input} {secret : Secret}
    (h : (Transfer.initiator (s.step i).1).known? = some secret) :
    (Transfer.initiator s).Sources i secret := by
  rw [Transfer.known?, Option.ite_none_right_eq_some, step_terms] at h
  obtain ⟨hwaiting, hsecret⟩ := h
  -- The secret is in the terms all along. What a step adds is the leave to use it.
  have hknown : s.status = .waitingUnlock → (Transfer.initiator s).Sources i secret :=
    fun hstatus => Or.inl (by rw [Transfer.known?, if_pos hstatus, hsecret])
  have hmoves := s.step_moves i
  generalize s.step i = r at hmoves hwaiting
  cases hmoves with
  | keeps hterms hstatus => exact hknown (hstatus.symm.trans hwaiting)
  | @searches s₀ => exact absurd hwaiting s₀.tryNextRoute_status_ne.1
  | @releases r secret' hstatus hfact hvalid =>
      refine Or.inr (Or.inr ?_)
      rw [hfact, Transfer.released?, if_pos ⟨hstatus, hvalid⟩, hsecret]
  | registers hstatus => exact hknown hstatus
  | pays => cases hwaiting
  | settles => cases hwaiting
  | expires => cases hwaiting

/-- Whoever waits for a request has waited for it before. -/
theorem status_of_step {i : Input} (h : (s.step i).1.status = .waitingSecretRequest) :
    s.status = .waitingSecretRequest := by
  have hmoves := s.step_moves i
  generalize s.step i = r at hmoves h
  cases hmoves with
  | keeps hterms hstatus => exact hstatus.symm.trans h
  | searches hstatus => exact hstatus
  | registers hstatus => cases hstatus.symm.trans h
  | releases => cases h
  | pays => cases h
  | settles => cases h
  | expires => cases h

theorem step_silent {i : Input} (h : i.isSilent = true) : ∀ e ∈ (s.step i).2, e.secret? = none := by
  have hmoves := s.step_moves i
  generalize s.step i = r at hmoves ⊢
  cases hmoves with
  | keeps hterms hstatus hnotices => exact notices_show_nothing hnotices
  | @searches s₀ => exact s₀.tryNextRoute_shows_nothing
  | releases hstatus hfact => cases hfact ▸ h
  | pays hstatus hfact => cases hfact ▸ h
  | settles hstatus hfact => cases hfact ▸ h
  | registers hstatus hfact => cases hfact ▸ h
  | expires hfact => cases hfact ▸ h

theorem step_abandoned {i : Input} (h : (Transfer.initiator (s.step i).1).isAbandoned = true) :
    ∀ e ∈ (s.step i).2, e.secret? = none := by
  have hended := of_decide_eq_true h
  have hmoves := s.step_moves i
  generalize s.step i = r at hmoves hended ⊢
  cases hmoves with
  | keeps hterms hstatus hnotices => exact notices_show_nothing hnotices
  | @searches s₀ => exact s₀.tryNextRoute_shows_nothing
  | expires => exact s.expires_shows_nothing _
  | registers hstatus =>
      rw [hstatus] at hended
      rcases hended with hended | hended
      · cases hended
      · cases hended
  | _ =>
      rcases hended with hended | hended
      · cases hended
      · cases hended

theorem step_lockedTransfer {i : Input} {recipient : Address} {channelId : ChannelId}
    {terms : TransferTerms}
    (h : .sendLockedTransfer recipient channelId terms ∈ (s.step i).2) : terms.secret? = none := by
  have hmoves := s.step_moves i
  generalize s.step i = r at hmoves h
  cases hmoves with
  | keeps hterms hstatus hnotices => exact notices_show_nothing hnotices _ h
  | @searches s₀ => exact s₀.tryNextRoute_shows_nothing _ h
  | expires => exact s.expires_shows_nothing _ _ h
  | _ => simp [succeeded] at h

end Initiator

/-! ### The mediator -/

namespace Mediator

variable (s : Mediator)

theorem tryNextRoute_lockedTransfer {recipient : Address} {channelId : ChannelId}
    {terms : TransferTerms}
    (h : .sendLockedTransfer recipient channelId terms ∈ s.tryNextRoute.2) :
    terms.secret? = none := by
  unfold tryNextRoute at h
  split at h
  · cases List.mem_singleton.mp h
    rfl
  · simp at h

/-- A mediator passes on the terms that it received, without the secret. -/
theorem step_lockedTransfer {i : Input} {recipient : Address} {channelId : ChannelId}
    {terms : TransferTerms}
    (h : .sendLockedTransfer recipient channelId terms ∈ (s.step i).2) : terms.secret? = none := by
  by_cases hfails : s.Reroutes i
  · rw [step_of_reroutes hfails] at h
    unfold abandonRoute at h
    split at h
    · exact tryNextRoute_lockedTransfer _ h
    · exact tryNextRoute_lockedTransfer _ h
  · -- Without a decision about the routes no lock is sent.
    have hnone := List.any_eq_false.mp (step_keepsRoutes hfails).sendsNoLock _ h
    exact absurd rfl hnone

/-- Effects that need no secret show none. -/
theorem shows_nothing_of_quiet {i : Input} (h : ∀ e ∈ (s.step i).2, e.needsSecret = false) :
    ∀ e ∈ (s.step i).2, e.secret? = none := by
  intro e he
  refine Effect.secret?_of_not_needsSecret (h e he) (fun recipient channelId terms heq => ?_)
  exact s.step_lockedTransfer (heq ▸ he)

theorem start_shows_nothing (a : StartMediator) (block : Height) :
    ∀ e ∈ (start a block).2, e.secret? = none := by
  have hquiet := (start_uninformed a block).quiet
  obtain ⟨s, heq, -⟩ := start_eq_tryNextRoute a block
  rw [heq] at hquiet ⊢
  intro e he
  refine Effect.secret?_of_not_needsSecret (hquiet e he) (fun recipient channelId terms h => ?_)
  exact s.tryNextRoute_lockedTransfer (h ▸ he)

variable {s}

theorem secret_of_mem_claim {secret shown : Secret} {e : Effect} (he : e ∈ s.claim secret)
    (h : e.secret? = some shown) : shown = secret := by
  unfold claim at he
  cases hclosed : s.payerOnChain <;> simp [hclosed, warning] at he
  · rcases he with rfl | rfl | rfl | rfl <;> simp_all [Effect.secret?]
  · rcases he with rfl | rfl | rfl <;> simp_all [Effect.secret?]

theorem secret_of_mem_payPayee {secret shown : Secret} {e : Effect} (he : e ∈ s.payPayee secret)
    (h : e.secret? = some shown) : shown = secret := by
  rcases payPayee_cases s secret with heq | ⟨r, t, -, -, -, heq⟩
  · rw [heq] at he
    cases he
  · rw [heq] at he
    simp only [List.mem_cons, List.not_mem_nil, or_false] at he
    rcases he with rfl | rfl
    · exact (Option.some.inj h).symm
    · cases h

theorem secret?_of_known? {secret : Secret} (h : (Transfer.mediator s).known? = some secret) :
    s.secret? = some secret :=
  (Option.ite_none_right_eq_some.mp h).2

/-- The payer is still waited for, or its time is over and the lock is claimed. -/
theorem checkPayerDeadline_cases (s : Mediator) :
    s.checkPayerDeadline = (s, []) ∨
    ∃ secret, s.secret? = some secret ∧
      s.checkPayerDeadline = ({ s with status := .partialUnlockOnChain }, s.claim secret) := by
  unfold checkPayerDeadline
  split
  · rename_i secret hsecret
    split
    · exact Or.inr ⟨secret, hsecret, rfl⟩
    · exact Or.inl rfl
  · exact Or.inl rfl

/-- Looking at the clock shows the secret that is known, if any. -/
theorem checkPayerDeadline_confined (s : Mediator) :
    Transfer.Confined (fun secret => s.secret? = some secret)
      (s.checkPayerDeadline.map .mediator id) := by
  rcases checkPayerDeadline_cases s with heq | ⟨secret, hsecret, heq⟩
  · rw [heq]
    exact ⟨fun e he => (nomatch he), fun shown => secret?_of_known?⟩
  · rw [heq]
    refine ⟨fun e he shown hshown => ?_, fun shown => secret?_of_known?⟩
    -- The claim is made with the secret that is known, whichever of its effects shows it.
    rw [secret_of_mem_claim he hshown, hsecret]

theorem learnSecret_confined (secret : Secret) :
    Transfer.Confined (· = secret) ((s.learnSecret secret).map .mediator id) := by
  have hclaim := checkPayerDeadline_confined
    { s with secret? := some secret, status := .waitingSecretPropagation }
  refine ⟨fun e he shown hshown => ?_, fun shown hshown => ?_⟩
  · have he' : e ∈ (s.learnSecret secret).2 := he
    rw [learnSecret_snd, List.mem_append, List.mem_cons] at he'
    rcases he' with (rfl | he') | he'
    · exact (Option.some.inj hshown).symm
    · exact secret_of_mem_payPayee he' hshown
    · exact (Option.some.inj (hclaim.effects e he' shown hshown)).symm
  · exact (Option.some.inj (hclaim.knows shown hshown)).symm

/-- A mediator shows what it knew, or what it is told. -/
theorem step_confined (s : Mediator) (i : Input) :
    Transfer.Confined ((Transfer.mediator s).Sources i) ((s.step i).map .mediator id) := by
  rcases s.step_cases i with hterminal | hwaiting | ⟨hforwarded, htold⟩ | ⟨secret, hlearns⟩
  · rw [step_of_isTerminal hterminal]
    exact ⟨fun e he => (nomatch he), fun shown => Or.inl⟩
  · -- Who waits for the payer knows the secret already.
    have hknown : ∀ shown, s.secret? = some shown → (Transfer.mediator s).Sources i shown := by
      intro shown hshown
      refine Or.inl ?_
      rw [Transfer.known?, hwaiting]
      exact hshown
    rcases step_waiting_cases hwaiting i with ⟨number, -, heq⟩ | ⟨-, heq⟩ | ⟨-, hwaits⟩
    · have hconfined := checkPayerDeadline_confined { s with blockNumber := number }
      rw [heq]
      exact ⟨fun e he shown hshown => hknown shown (hconfined.effects e he shown hshown),
        fun shown hshown => hknown shown (hconfined.knows shown hshown)⟩
    · rw [heq]
      exact ⟨fun e he => (nomatch he), fun shown hshown => hknown shown
        (secret?_of_known? (s := { s with status := .completed }) hshown)⟩
    · refine ⟨fun e he shown hshown => ?_, fun shown hshown => hknown shown ?_⟩
      · cases (s.shows_nothing_of_quiet hwaits.quiet e he).symm.trans hshown
      · rw [← hwaits.secret]
        exact secret?_of_known? hshown
  · have huninformed := step_uninformed hforwarded htold
    refine ⟨fun e he shown hshown => ?_, fun shown hshown => ?_⟩
    · cases (s.shows_nothing_of_quiet huninformed.quiet e he).symm.trans hshown
    · cases huninformed.status.symm.trans (Option.ite_none_right_eq_some.mp hshown).1
  · -- It learns the secret from this fact, and shows no other.
    have htold : ∀ shown, shown = secret → (Transfer.mediator s).Sources i shown := by
      rintro shown rfl
      exact Or.inr (Or.inl (Input.secret?_of_told? hlearns.2))
    have hconfined := learnSecret_confined (s := s) secret
    rw [hlearns.step_eq]
    exact ⟨fun e he shown hshown => htold shown (hconfined.effects e he shown hshown),
      fun shown hshown => htold shown (hconfined.knows shown hshown)⟩

/-- A mediator that does not go to the ledger or learn anything shows nothing. -/
theorem step_shows_nothing {i : Input} (hblock : ∀ number, i ≠ .block number)
    (hsecret : i.secret? = none) : ∀ e ∈ (s.step i).2, e.secret? = none := by
  rcases s.step_cases i with hterminal | hwaiting | ⟨hforwarded, htold⟩ | ⟨secret, hlearns⟩
  · rw [step_of_isTerminal hterminal]
    exact fun e he => nomatch he
  · rcases step_waiting_cases hwaiting i with ⟨number, hnumber, -⟩ | ⟨-, heq⟩ | ⟨-, hwaits⟩
    · exact absurd hnumber (hblock number)
    · rw [heq]
      exact fun e he => nomatch he
    · exact s.shows_nothing_of_quiet hwaits.quiet
  · exact s.shows_nothing_of_quiet (step_uninformed hforwarded htold).quiet
  · cases hsecret.symm.trans (Input.secret?_of_told? hlearns.2)

theorem step_abandoned {i : Input} (h : (Transfer.mediator (s.step i).1).isAbandoned = true) :
    ∀ e ∈ (s.step i).2, e.secret? = none := by
  have hended := of_decide_eq_true h
  -- Who knows the secret does not give up.
  have hunaware : (s.step i).1.status.knowsSecret = false := by
    rcases hended with hended | hended
    · rw [hended]
      rfl
    · rw [hended]
      rfl
  rcases s.step_cases i with hterminal | hwaiting | ⟨hforwarded, htold⟩ | ⟨secret, hlearns⟩
  · rw [step_of_isTerminal hterminal]
    exact fun e he => nomatch he
  · have haware : s.status.knowsSecret = true := by
      rw [hwaiting]
      rfl
    cases hunaware.symm.trans (step_knowsSecret haware i).1
  · exact s.shows_nothing_of_quiet (step_uninformed hforwarded htold).quiet
  · rw [hlearns.step_eq, learnSecret_fst] at hunaware
    cases hunaware.symm.trans (checkPayerDeadline_knowsSecret
      (s := { s with secret? := some secret, status := .waitingSecretPropagation }) rfl).1

end Mediator

/-! ### The target -/

namespace Target

variable {s : Target}

theorem secret_of_mem_claim {secret shown : Secret} {e : Effect} (he : e ∈ s.claim secret)
    (h : e.secret? = some shown) : shown = secret := by
  unfold claim at he
  cases hclosed : s.payerOnChain <;> simp [hclosed] at he
  · rcases he with rfl | rfl | rfl <;> simp_all [Effect.secret?]
  · rcases he with rfl | rfl <;> simp_all [Effect.secret?]

theorem Keeps.shows_nothing {r : Target × List Effect} (h : s.Keeps r) :
    ∀ e ∈ r.2, e.secret? = none :=
  Initiator.notices_show_nothing h.notices

theorem expire_shows_nothing (s : Target) : ∀ e ∈ s.expire.2, e.secret? = none := by
  unfold expire
  split
  · simp [Effect.secret?]
  · simp

theorem start_shows_nothing (a : StartTarget) (block : Height) :
    ∀ e ∈ (start a block).2, e.secret? = none := by
  unfold start
  dsimp only
  split
  · simp [Effect.secret?, warning]
  · simp [Effect.secret?]

theorem start_known? (a : StartTarget) (block : Height) :
    (Transfer.target (start a block).1).known? = none := by
  unfold start
  dsimp only
  split
  · rfl
  · rfl

theorem expire_terms (s : Target) : s.expire.1.terms = s.terms := by
  unfold expire
  split
  · rfl
  · rfl

/-- Looking at the clock shows the secret that is known, if any. -/
theorem checkUnlockDeadline_confined (s : Target) :
    Transfer.Confined (fun secret => s.terms.secret? = some secret)
      (s.checkUnlockDeadline.map .target id) := by
  rcases checkUnlockDeadline_cases s with heq | ⟨secret, hsecret, heq⟩
  · rw [heq]
    exact ⟨fun e he => (nomatch he), fun secret => id⟩
  · rw [heq]
    refine ⟨fun e he shown hshown => ?_, fun shown => id⟩
    rw [secret_of_mem_claim he hshown, hsecret]

theorem learnSecret_confined (s : Target) (secret : Secret) :
    Transfer.Confined (· = secret) ((s.learnSecret secret).map .target id) := by
  have hclaim := checkUnlockDeadline_confined
    { s with terms := { s.terms with secret? := some secret }, status := .waitingUnlock }
  refine ⟨fun e he shown hshown => ?_, fun shown hshown => ?_⟩
  · have he' : e ∈ (s.learnSecret secret).2 := he
    rw [learnSecret_snd, List.mem_cons, List.mem_cons] at he'
    rcases he' with rfl | rfl | he'
    · cases hshown
    · exact (Option.some.inj hshown).symm
    · exact (Option.some.inj (hclaim.effects e he' shown hshown)).symm
  · exact (Option.some.inj (hclaim.knows shown hshown)).symm

/-- A target that learns a secret was told it. -/
theorem learns_confined {i : Input} {secret : Secret} (h : i.secret? = some secret) :
    Transfer.Confined ((Transfer.target s).Sources i) ((s.learnSecret secret).map .target id) := by
  have hconfined := learnSecret_confined s secret
  have htold : ∀ shown, shown = secret → (Transfer.target s).Sources i shown := by
    rintro shown rfl
    exact Or.inr (Or.inl h)
  exact ⟨fun e he shown hshown => htold shown (hconfined.effects e he shown hshown),
    fun shown hshown => htold shown (hconfined.knows shown hshown)⟩

/-- A reaction that shows nothing and leaves the terms alone. -/
theorem confined_of_terms {i : Input} {r : Target × List Effect} (hterms : r.1.terms = s.terms)
    (hshows : ∀ e ∈ r.2, e.secret? = none) :
    Transfer.Confined ((Transfer.target s).Sources i) (r.map .target id) := by
  refine ⟨fun e he shown hshown => (nomatch (hshows e he).symm.trans hshown),
    fun shown hshown => Or.inl ?_⟩
  rw [Transfer.known?, ← hterms]
  exact hshown

theorem Keeps.confined {i : Input} {r : Target × List Effect} (h : s.Keeps r) :
    Transfer.Confined ((Transfer.target s).Sources i) (r.map .target id) :=
  confined_of_terms h.terms h.shows_nothing

theorem onBlock_confined (s : Target) (number : Height) :
    Transfer.Confined ((Transfer.target s).Sources (.block number))
      ((s.onBlock number).map .target id) := by
  unfold onBlock
  dsimp only
  split
  · exact confined_of_terms (expire_terms _) (expire_shows_nothing _)
  · exact confined_of_terms (expire_terms _) (expire_shows_nothing _)
  · have hconfined := checkUnlockDeadline_confined { s with blockNumber := number }
    exact ⟨fun e he shown hshown => Or.inl (hconfined.effects e he shown hshown),
      fun shown hshown => Or.inl (hconfined.knows shown hshown)⟩
  · exact confined_of_terms rfl (fun e he => nomatch he)

theorem onChain_confined (s : Target) (event : ChainEvent) :
    Transfer.Confined ((Transfer.target s).Sources (.chain event))
      ((s.onChain event).map .target id) := by
  unfold onChain
  split
  · split
    · exact confined_of_terms rfl (fun e he => nomatch he)
    · exact s.keeps_self.confined
  · split
    · exact learns_confined rfl
    · exact s.keeps_self.confined
  · exact s.keeps_self.confined

/-- A target shows what it knew, or what it is told. -/
theorem step_confined (s : Target) (i : Input) :
    Transfer.Confined ((Transfer.target s).Sources i) ((s.step i).map .target id) := by
  unfold step
  split
  · exact s.keeps_self.confined
  · split
    · exact s.onBlock_confined _
    · rename_i reveal hrequested
      rcases s.onSecretReveal_cases reveal with heq | hkeeps
      · rw [heq]
        exact learns_confined rfl
      · exact hkeeps.confined
    · rename_i proof hwaiting
      rcases s.onProof_cases proof with heq | hkeeps
      · rw [heq]
        exact confined_of_terms rfl (by simp [Effect.secret?])
      · exact hkeeps.confined
    · exact s.onChain_confined _
    · exact s.keeps_self.confined

theorem step_silent {i : Input} (h : i.isSilent = true) : ∀ e ∈ (s.step i).2, e.secret? = none := by
  unfold step
  split
  · exact s.keeps_self.shows_nothing
  · split
    · cases h
    · cases h
    · rename_i proof hwaiting
      rcases s.onProof_cases proof with heq | hkeeps
      · rw [heq]
        simp [Effect.secret?]
      · exact hkeeps.shows_nothing
    · cases h
    · exact s.keeps_self.shows_nothing

theorem step_abandoned {i : Input} (h : (Transfer.target (s.step i).1).isAbandoned = true) :
    ∀ e ∈ (s.step i).2, e.secret? = none := by
  have hexpired : (s.step i).1.status = .expired := of_decide_eq_true h
  -- Who learns the secret or goes to the ledger does not expire.
  have hdeadline : ∀ u : Target, u.status = .waitingUnlock →
      u.checkUnlockDeadline.1.status ≠ .expired := by
    intro u hu
    rcases checkUnlockDeadline_cases u with heq | ⟨secret, -, heq⟩
    · rw [heq, hu]
      exact nofun
    · rw [heq]
      exact nofun
  rcases s.step_cases i with ⟨number, -, -, heq⟩ | ⟨number, -, hwaiting, heq⟩ | ⟨secret, -, heq⟩ |
    ⟨-, heq⟩ | hkeeps
  · rw [heq]
    exact expire_shows_nothing _
  · rw [heq] at hexpired
    exact absurd hexpired (hdeadline { s with blockNumber := number } hwaiting)
  · rw [heq, learnSecret_fst] at hexpired
    exact absurd hexpired (hdeadline _ rfl)
  · rw [heq] at hexpired
    cases hexpired
  · exact hkeeps.shows_nothing

theorem step_lockedTransfer {i : Input} {recipient : Address} {channelId : ChannelId}
    {terms : TransferTerms} :
    .sendLockedTransfer recipient channelId terms ∉ (s.step i).2 := by
  have hdeadline : ∀ u : Target,
      .sendLockedTransfer recipient channelId terms ∉ u.checkUnlockDeadline.2 := by
    intro u
    rcases checkUnlockDeadline_cases u with heq | ⟨secret, -, heq⟩
    · rw [heq]
      exact List.not_mem_nil
    · rw [heq, claim]
      cases u.payerOnChain <;> simp
  rcases s.step_cases i with ⟨number, -, -, heq⟩ | ⟨number, -, -, heq⟩ | ⟨secret, -, heq⟩ |
    ⟨-, heq⟩ | hkeeps
  · rw [heq, expire]
    split <;> simp
  · rw [heq]
    exact hdeadline _
  · rw [heq, learnSecret_snd]
    simp [hdeadline]
  · rw [heq]
    simp
  · intro h
    rcases hkeeps.notices _ h with ⟨level, info, heq⟩
    cases heq

end Target

/-! ### Any transfer -/

namespace Transfer

/-- What a step shows or learns has a source. -/
theorem step_confined (t : Transfer) (i : Input) : Confined (t.Sources i) (t.step i) := by
  cases t with
  | initiator s =>
      exact ⟨fun e he secret hsecret => s.step_shows he hsecret, fun secret => s.step_knows⟩
  | mediator s => exact s.step_confined i
  | target s => exact s.step_confined i

theorem step_silent (t : Transfer) {i : Input} (h : i.isSilent = true) :
    ∀ e ∈ (t.step i).2, e.secret? = none := by
  cases t with
  | initiator s => exact s.step_silent h
  | mediator s =>
      refine s.step_shows_nothing ?_ ?_
      · rintro number rfl
        cases h
      · cases i with
        | secretRevealed => cases h
        | chain => cases h
        | _ => rfl
  | target s => exact Target.step_silent h

theorem step_abandoned (t : Transfer) {i : Input} (h : (t.step i).1.isAbandoned = true) :
    ∀ e ∈ (t.step i).2, e.secret? = none := by
  cases t with
  | initiator s => exact s.step_abandoned h
  | mediator s => exact Mediator.step_abandoned h
  | target s => exact Target.step_abandoned h

/-- A locked transfer that is asked for carries no secret. -/
theorem step_lockedTransfer (t : Transfer) {i : Input} {recipient : Address}
    {channelId : ChannelId} {terms : TransferTerms}
    (h : .sendLockedTransfer recipient channelId terms ∈ (t.step i).2) : terms.secret? = none := by
  cases t with
  | initiator s => exact s.step_lockedTransfer h
  | mediator s => exact s.step_lockedTransfer h
  | target s => exact absurd h Target.step_lockedTransfer

/-- A refusal tells nothing and releases nothing. -/
theorem known?_of_refusal {t : Transfer} {refusal : RouteRefusal} {secret : Secret}
    (h : (t.step (.routeRefused refusal)).1.known? = some secret) : t.known? = some secret := by
  rcases (t.step_confined (.routeRefused refusal)).knows secret h with hknown | htold | hreleased
  · exact hknown
  · cases htold
  · cases t with
    | _ => cases hreleased

/-- A request releases the secret after a step only if it did before. -/
theorem released?_of_step {t : Transfer} {i j : Input} {secret : Secret}
    (h : (t.step i).1.released? j = some secret) : t.released? j = some secret := by
  cases t with
  | initiator s =>
      cases j with
      | secretRequested r =>
          have hreleased : (Transfer.initiator (s.step i).1).released? (.secretRequested r)
              = some secret := h
          rw [released?, Option.ite_none_right_eq_some, s.step_terms] at hreleased
          obtain ⟨⟨hstatus, hvalid⟩, hsecret⟩ := hreleased
          rw [released?, if_pos ⟨s.status_of_step hstatus, hvalid⟩, hsecret]
      | _ => cases h
  | mediator s => cases h
  | target s => cases h

end Transfer

end PaymentNetwork

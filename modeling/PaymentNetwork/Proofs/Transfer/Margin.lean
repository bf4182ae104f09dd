import PaymentNetwork.Proofs.Transfer.Forwarding
import PaymentNetwork.Proofs.Transfer.Payer

/-!
# The Margin of a Mediator

How a transfer that was passed on can end, and how much time the offered lock leaves.

A mediator that waits for the secret can learn it, give the received lock back, or wait
until the received lock expires. The last is the only way to lose: the payee may have been
paid on the ledger, and the payer cannot be made to pay any more. Nothing but a block at the
expiration or after it leads there, and from everything else there is no way there. So
whether a mediator loses is a question of what comes first, the secret or this block.

The offered lock is what gives the payee time to show the secret. It always expires a reveal
timeout before the received lock, over whichever route it is offered.

## Main definitions

* `Mediator.Idles`: The fact leaves a mediator waiting for the secret.
* `Mediator.OffersEarly`: The offered lock expires a reveal timeout before the received one.
* `Mediator.Collects`: How a mediator that knows the secret gets what it is owed.

## Theorems

* `Mediator.step_offersEarly`: No fact changes when the offered lock expires.
* `Mediator.step_early`, `Mediator.run_early`: Before the expiration nothing is lost.
* `Mediator.step_block_expired`: At the expiration, a mediator without the secret loses.
* `Mediator.run_collects`: Whoever learned the secret waits for the payer, was paid, or went to
  the ledger.
-/

namespace PaymentNetwork

namespace Mediator

/-! ### The offered lock -/

/-- The lock that is offered, if one is, expires a reveal timeout before the received one. -/
def OffersEarly (s : Mediator) : Prop :=
  ∀ t, s.offered? = some t → t.expiration = s.downstreamExpiration

section Offers

variable {s : Mediator}

theorem tryNextRoute_offersEarly (s : Mediator) : s.tryNextRoute.1.OffersEarly := by
  unfold tryNextRoute
  split
  · intro t ht
    cases ht
    rfl
  · intro t ht
    cases ht

theorem abandonRoute_offersEarly (s : Mediator) : s.abandonRoute.1.OffersEarly := by
  unfold abandonRoute
  split
  · exact tryNextRoute_offersEarly _
  · exact tryNextRoute_offersEarly s

theorem SameDeal.downstreamExpiration {s' : Mediator} (h : s.SameDeal s') :
    s'.downstreamExpiration = s.downstreamExpiration := by
  rw [Mediator.downstreamExpiration, h.received, h.payerRoute]
  rfl

/-- No fact changes when the offered lock expires. -/
theorem step_offersEarly (h : s.OffersEarly) (i : Input) : (s.step i).1.OffersEarly := by
  by_cases hfails : s.Reroutes i
  · rw [step_of_reroutes hfails]
    exact s.abandonRoute_offersEarly
  · intro t ht
    rw [(step_keepsOffer hfails).offered?] at ht
    rw [(s.step_sameDeal i).downstreamExpiration]
    exact h t ht

theorem start_offersEarly (a : StartMediator) (block : Height) : (start a block).1.OffersEarly :=
  tryNextRoute_offersEarly _

end Offers

/-! ### Losing the received lock -/

section Losing

variable {s : Mediator} {i : Input}

/-- A mediator waits for the secret, knows it, gave the received lock back, or lost it. -/
theorem status_cases (s : Mediator) :
    s.status = .forwardedToNextHop ∨ s.status.knowsSecret = true ∨ s.status = .canceled ∨
      s.status = .expiredBoth := by
  cases s.status with
  | forwardedToNextHop => exact Or.inl rfl
  | canceled => exact Or.inr (Or.inr (Or.inl rfl))
  | expiredBoth => exact Or.inr (Or.inr (Or.inr rfl))
  | _ => exact Or.inr (Or.inl rfl)

theorem ne_expiredBoth_of_knowsSecret (h : s.status.knowsSecret = true) :
    s.status ≠ .expiredBoth := by
  intro hexpired
  rw [hexpired] at h
  cases h

/-- Who stopped waiting for the secret and did not lose will not lose. -/
theorem run_of_not_forwarded (hs : s.status ≠ .forwardedToNextHop) (h : s.status ≠ .expiredBoth)
    (facts : List Input) : (Machine.run step s facts).status ≠ .expiredBoth := by
  rcases s.status_cases with hforwarded | hknows | hcanceled | hexpired
  · exact absurd hforwarded hs
  · exact ne_expiredBoth_of_knowsSecret (run_knowsSecret hknows facts)
  · rwa [(Machine.effects_of_fixed (step_of_isTerminal (by rw [hcanceled]; rfl)) facts).1]
  · exact absurd hexpired h

theorem tryNextRoute_early (s : Mediator) : s.tryNextRoute.1.status ≠ .expiredBoth := by
  unfold tryNextRoute
  split
  · exact fun h => nomatch h
  · exact fun h => nomatch h

theorem abandonRoute_early (s : Mediator) : s.abandonRoute.1.status ≠ .expiredBoth := by
  unfold abandonRoute
  split
  · exact tryNextRoute_early _
  · exact tryNextRoute_early s

/-- What a block makes of a mediator that waits for the secret. -/
theorem step_block_status (h : s.status = .forwardedToNextHop) (number : Height) :
    (s.step (.block number)).1.status
      = if s.received.expiration ≤ number then .expiredBoth else .forwardedToNextHop := by
  have hstep : s.step (.block number) = s.onBlock number := by
    unfold step
    rw [h]
    rfl
  have hremove : ∀ s : Mediator, s.removeDownstream.1.blockNumber = s.blockNumber ∧
      s.removeDownstream.1.status = s.status := by
    intro s
    unfold removeDownstream
    split
    · split
      · exact ⟨rfl, rfl⟩
      · exact ⟨rfl, rfl⟩
    · exact ⟨rfl, rfl⟩
  have hexpire : ∀ s : Mediator, s.status = .forwardedToNextHop → s.expire.1.status
      = if s.received.expiration ≤ s.blockNumber then .expiredBoth else .forwardedToNextHop := by
    intro s hs
    unfold expire
    split
    · rfl
    · exact hs
  obtain ⟨hnumber, hstatus⟩ := hremove { s with blockNumber := number }
  have hdeal := removeDownstream_sameDeal { s with blockNumber := number }
  rw [hstep]
  unfold onBlock
  dsimp only
  split
  · -- Taking back the offered lock comes first, and changes neither clock nor terms.
    rw [hexpire _ (hstatus.trans h), hdeal.received, hnumber]
  · rename_i hwaiting
    cases h.symm.trans hwaiting
  · rename_i hforwarded _
    exact absurd h hforwarded

/-- At the expiration, a mediator without the secret loses the received lock. -/
theorem step_block_expired (h : s.status = .forwardedToNextHop) {number : Height}
    (hlate : s.received.expiration ≤ number) :
    (s.step (.block number)).1.status = .expiredBoth := by
  rw [step_block_status h, if_pos hlate]

/-- A mediator that is not told the secret, keeps its route and is before the expiration goes on
    waiting for the secret. -/
theorem step_untold (h : s.status = .forwardedToNextHop) (htold : s.told? i = none)
    (hfails : ¬ s.Reroutes i)
    (hearly : ∀ number, i = .block number → number < s.received.expiration) :
    (s.step i).1.status = .forwardedToNextHop := by
  -- Five kinds of facts concern a mediator that waits for the secret.
  cases i with
  | block number => rw [step_block_status h, if_neg (Word.not_le.mpr (hearly number rfl))]
  | chain e =>
      have hstep : s.step (.chain e) = s.onChain e := by
        unfold step
        rw [h]
        rfl
      rw [hstep]
      unfold onChain
      split
      · split
        · exact h
        · exact h
      · rename_i secret secretHash registered
        rw [told?, ite_eq_right_iff] at htold
        rw [if_neg (fun hours => Option.some_ne_none _ (htold hours.1))]
        exact h
      · exact h
  | secretRevealed r =>
      have hstep : s.step (.secretRevealed r) = s.onSecretReveal r := by
        unfold step
        rw [h]
        rfl
      rw [told?, ite_eq_right_iff] at htold
      rw [hstep, onSecretReveal]
      split
      · exact h
      · rename_i hpayee
        rw [Bool.not_eq_true', Bool.not_eq_false] at hpayee
        rw [if_pos (fun hhash => Option.some_ne_none _ (htold ⟨hpayee, hhash⟩))]
        exact h
  | routeRefused refusal =>
      rw [step_routeRefused, if_pos h, onRefusal, if_neg (fun hours => hfails ⟨h, hours⟩)]
      exact h
  | lockDisposed d =>
      have hstep : s.step (.lockDisposed d) = s.onDisposal d := by
        unfold step
        rw [h]
        rfl
      rw [hstep, onDisposal, if_neg]
      · exact h
      · intro hours
        rw [Bool.and_eq_true, Bool.and_eq_true] at hours
        exact hfails ⟨h, hours.1.1, hours.1.2, hours.2⟩
  | _ =>
      unfold step
      rw [h]
      exact h

/-- The fact comes from the ledger, and neither tells the secret nor comes at the
    expiration. -/
def Idles (s : Mediator) : Input → Prop
  | .block number => number < s.received.expiration
  | .chain e => s.told? (.chain e) = none
  | _ => False

theorem SameDeal.idles {s' : Mediator} (h : s.SameDeal s') (hidles : s.Idles i) : s'.Idles i := by
  cases i with
  | block number =>
      rw [Idles, h.received]
      exact hidles
  | chain e =>
      cases e with
      | secretRegistered =>
          rw [Idles, told?, h.received]
          exact hidles
      | _ => rfl
  | _ => exact hidles

theorem idles_chain {e : ChainEvent} (h : ∀ secret registered,
    e ≠ .secretRegistered secret s.received.secretHash registered) : s.Idles (.chain e) := by
  cases e with
  | secretRegistered secret secretHash registered =>
      refine if_neg (fun hhash => h secret registered ?_)
      rw [hhash]
  | _ => rfl

/-- Such a fact leaves a mediator waiting for the secret. It goes on offering its lock, and
    no other. -/
theorem step_idles (h : s.status = .forwardedToNextHop) (hidles : s.Idles i) :
    ((s.step i).1.status = .forwardedToNextHop ∧ (s.step i).1.offered? = s.offered?) ∧
      (s.step i).2.any Effect.isLockedTransfer = false := by
  have hkept : ¬ s.Reroutes i ∧ s.told? i = none ∧
      ∀ number, i = .block number → number < s.received.expiration := by
    cases i with
    | block number => exact ⟨id, rfl, fun _ heq => Input.block.inj heq ▸ hidles⟩
    | chain e => exact ⟨id, hidles, fun _ heq => nomatch heq⟩
    | _ => exact hidles.elim
  obtain ⟨hroute, htold, hearly⟩ := hkept
  exact ⟨⟨step_untold h htold hroute hearly, (step_keepsOffer hroute).offered?⟩,
    (step_keepsRoutes hroute).sendsNoLock⟩

/-- Nothing but a block at the expiration or after it makes a mediator lose. -/
theorem step_early (h : s.status ≠ .expiredBoth)
    (hearly : ∀ number, i = .block number → number < s.received.expiration) :
    (s.step i).1.status ≠ .expiredBoth := by
  by_cases hs : s.status = .forwardedToNextHop
  · cases htold : s.told? i with
    | some secret => exact ne_expiredBoth_of_knowsSecret (Learns.knowsSecret ⟨hs, htold⟩)
    | none =>
        by_cases hfails : s.Reroutes i
        · -- The lock goes over the next route or back to the payer.
          rw [step_of_reroutes hfails]
          exact s.abandonRoute_early
        · rw [step_untold hs htold hfails hearly]
          exact fun hexpired => nomatch hexpired
  · exact run_of_not_forwarded hs h [i]

/-- So a run in which no such block comes loses nothing. -/
theorem run_early (h : s.status ≠ .expiredBoth) {facts : List Input}
    (hearly : ∀ number, .block number ∈ facts → number < s.received.expiration) :
    (Machine.run step s facts).status ≠ .expiredBoth := by
  induction facts generalizing s with
  | nil => exact h
  | cons i rest ih =>
      refine ih (step_early h fun number heq => hearly number (heq ▸ List.mem_cons_self)) ?_
      intro number hmem
      rw [(s.step_sameDeal i).received]
      exact hearly number (List.mem_cons_of_mem i hmem)

/-- Who waits for the secret in the end did so all the time. -/
theorem forwarded_of_run {facts : List Input}
    (h : (Machine.run step s facts).status = .forwardedToNextHop) :
    s.status = .forwardedToNextHop := by
  induction facts generalizing s with
  | nil => exact h
  | cons i rest ih => exact (forwarded_of_step (ih h)).1

end Losing

/-! ### Collecting the received lock -/

/-- The deeds of a claim of the received lock. A channel that was closed is not closed
    again. -/
def claimDeeds (s : Mediator) (secret : Secret) (closed : Bool) : List Deed :=
  (Transfer.mediator s).claimDeeds ⟨s.payerRoute.node, s.payerRoute.channelId, s.received.lock⟩
    secret closed (s.received.expiration.satSub 1)
    ((s.received.expiration.satSub 1).satAdd s.payerRoute.settleTimeout)

/-- A mediator that knows the secret is owed the received lock. It waits for its payer, was
    paid by an unlock, or claimed the lock. -/
inductive Collects (s : Mediator) (facts : List Input) : Prop where
  | waits (h : (Machine.run step s facts).status = .waitingSecretPropagation)
  | paid {fact : Input} (hmem : fact ∈ facts)
      (h : fact.isUnlockOf s.payerRoute.node s.received.secretHash = true)
  | claimed (secret : Secret) (closed : Bool)
      (h : s.claimDeeds secret closed ⊆ Effect.deeds (Machine.effects step s facts))

section Collects

variable {s : Mediator}

theorem run_sameDeal (s : Mediator) (facts : List Input) : s.SameDeal (Machine.run step s facts) :=
  Machine.run_invariant (P := s.SameDeal) (fun s' i h => h.trans (s'.step_sameDeal i))
    (SameDeal.refl s) facts

theorem SameDeal.claimDeeds {s' : Mediator} (h : s.SameDeal s') (secret : Secret) (closed : Bool) :
    s'.claimDeeds secret closed = s.claimDeeds secret closed := by
  rw [Mediator.claimDeeds, h.received, h.payerRoute, Mediator.claimDeeds, Transfer.claimDeeds,
    Transfer.claimDeeds, Transfer.tokenNetwork, h.received]
  rfl

/-- Who looks at the clock goes on waiting, or claims. -/
theorem checkPayerDeadline_collects (h : s.status = .waitingSecretPropagation) :
    s.checkPayerDeadline.1.status = .waitingSecretPropagation ∨
    ∃ secret, Effect.deeds s.checkPayerDeadline.2 = s.claimDeeds secret s.payerOnChain := by
  unfold checkPayerDeadline
  split
  · split
    · exact Or.inr ⟨_, Transfer.mediator_claim_deeds s _⟩
    · exact Or.inl h
  · exact Or.inl h

/-- Nothing but an unlock of the payer and a claim ends the wait for the payer. -/
theorem step_collects (hprogress : s.status.isTerminal = false) {i : Input}
    (hknows : (s.step i).1.status.knowsSecret = true) :
    (s.step i).1.status = .waitingSecretPropagation ∨
    i.isUnlockOf s.payerRoute.node s.received.secretHash = true ∨
    ∃ secret closed, Effect.deeds (s.step i).2 = s.claimDeeds secret closed := by
  rcases s.step_cases i with hterminal | hwaiting | ⟨hforwarded, htold⟩ | ⟨secret, hlearns⟩
  · cases hterminal.symm.trans hprogress
  · -- It waits for the payer: the clock moves on, the payer unlocks, or nothing happens.
    rcases step_waiting_cases hwaiting i with ⟨number, -, heq⟩ | ⟨hunlock, -⟩ | ⟨-, hwaits⟩
    · rw [heq]
      rcases checkPayerDeadline_collects (s := { s with blockNumber := number }) hwaiting with
        hstatus | ⟨secret, hclaim⟩
      · exact Or.inl hstatus
      · exact Or.inr (Or.inr ⟨secret, _, hclaim⟩)
    · exact Or.inr (Or.inl hunlock)
    · exact Or.inl hwaits.status
  · cases hknows.symm.trans (step_uninformed hforwarded htold).status
  · rw [hlearns.step_eq, learnSecret_fst, learnSecret_deeds]
    rcases checkPayerDeadline_collects (s := { s with
      secret? := some secret, status := .waitingSecretPropagation }) rfl with
      hstatus | ⟨secret', hclaim⟩
    · exact Or.inl hstatus
    · exact Or.inr (Or.inr ⟨secret', _, hclaim⟩)

/-- Whoever learned the secret collects. -/
theorem run_collects (hunaware : s.status.knowsSecret = false) {facts : List Input}
    (hknows : (Machine.run step s facts).status.knowsSecret = true) : s.Collects facts := by
  induction facts using List.reverseRec with
  | nil => cases hunaware.symm.trans hknows
  | append_singleton facts i ih =>
      have hdeal := s.run_sameDeal facts
      have hrun : Machine.run step s (facts ++ [i]) = ((Machine.run step s facts).step i).1 := by
        rw [Machine.run_append]
        rfl
      have heffects : Effect.deeds (Machine.effects step s (facts ++ [i]))
          = Effect.deeds (Machine.effects step s facts)
            ++ Effect.deeds ((Machine.run step s facts).step i).2 := by
        rw [Machine.effects_append, Effect.deeds_append, Machine.effects_cons, Machine.effects_nil,
          List.append_nil]
      -- Whatever was paid or claimed before still is.
      have hbefore : (Machine.run step s facts).status.knowsSecret = true →
          (Machine.run step s facts).status = .waitingSecretPropagation ∨
          s.Collects (facts ++ [i]) := by
        intro hknown
        rcases ih hknown with hwaits | ⟨hmem, hunlock⟩ | ⟨secret, closed, hclaim⟩
        · exact Or.inl hwaits
        · exact Or.inr (.paid (List.mem_append_left _ hmem) hunlock)
        · refine Or.inr (.claimed secret closed ?_)
          rw [heffects]
          exact List.subset_append_of_subset_left _ hclaim
      cases hprogress : (Machine.run step s facts).status.isTerminal with
      | true =>
          rw [hrun, step_of_isTerminal hprogress] at hknows
          rcases hbefore hknows with hwaits | hcollects
          · rw [hwaits] at hprogress
            cases hprogress
          · exact hcollects
      | false =>
          rw [hrun] at hknows
          rcases step_collects hprogress hknows with hwaits | hunlock | ⟨secret, closed, hclaim⟩
          · exact .waits (hrun ▸ hwaits)
          · rw [hdeal.received, hdeal.payerRoute] at hunlock
            exact .paid (List.mem_append_right _ List.mem_cons_self) hunlock
          · rw [hdeal.claimDeeds] at hclaim
            refine .claimed secret closed ?_
            rw [heffects, hclaim]
            exact List.subset_append_right _ _

end Collects

end Mediator

end PaymentNetwork

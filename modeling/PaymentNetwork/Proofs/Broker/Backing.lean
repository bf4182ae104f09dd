import PaymentNetwork.Proofs.Broker.Clock
import PaymentNetwork.Proofs.Broker.Receipt

/-!
# The Locks Behind a Claim

Whether a channel holds the lock that a node goes to the ledger for.

A node that knows the secret and is not unlocked in time closes the channel with its
payer, and unlocks the lock there. That is worth its cost only as long as the lock is
pending. A lock of the payer can stop to be pending in three ways: the ledger unlocks
it, the payer takes it back, or the payer unlocks it. The ledger is left out here. A
lock is taken back when it has expired, and then the transfer is over. And an unlock
ends the transfer too, if it waits for one.

It does not end a transfer that has not learned the secret. The channel credits the
amount, the transfer learns the secret later, waits for an unlock that it missed, and
claims a lock that is no longer there. So a claim is for a pending lock, or the payer
unlocked the lock of the claim early.

## Main definitions

* `NetworkView.Backs`: A channel holds the lock of an offer.
* `Broker.UnlockedEarly`: The payer unlocked the lock of a transfer that had not learned
  the secret.
* `Broker.BackingLaw`: Every claim is for a pending lock, or for one that was unlocked
  early.

## Theorems

* `NetworkView.Backs.after`: How an input takes a lock away from a transfer.
* `Broker.run_backed`: The lock of a transfer in progress is pending, or was unlocked
  early.
* `Broker.run_backingLaw`: The law after any inputs.
-/

namespace PaymentNetwork

namespace Deed

/-- Does the deed go to the ledger for a lock, by closing its channel or unlocking it? -/
def claims : Deed → Bool
  | call (.closeChannel ..) => true
  | call (.unlock ..) => true
  | _ => false

end Deed

/-- The channel of the offer holds its lock. -/
def NetworkView.Backs (v : NetworkView) (tokenNetwork : Address) (o : Offer) : Prop :=
  ∃ c, v.stored? tokenNetwork o.channelId = some c ∧ c.partner.address = o.sender ∧
    c.partner.pendingLocks.get? o.lock.secretHash = some o.lock

namespace Broker

/-- The payer's unlock of the lock is accepted while the transfer under the key has not
    learned the secret. -/
structure Releases (b : Broker) (k : TransferKey) (tokenNetwork : Address) (o : Offer)
    (u : Unlock) : Prop where
  accepted : ∃ c c', b.Accepts (.message o.sender (.unlock u)) (.unlock u) tokenNetwork c c'
  channelId : u.balanceProof.channelId = o.channelId
  secretHash : hashSecret u.secret = o.lock.secretHash
  unaware : ∃ t, b.transfers.get? k = some t ∧ t.offer? = some o ∧ t.awaitsUnlock = false

/-- That happened during the run, and the transfer has been in progress since. -/
def UnlockedEarly (b₀ : Broker) (inputs : List BrokerInput) (k : TransferKey)
    (tokenNetwork : Address) (o : Offer) : Prop :=
  ∃ before u since, inputs = before ++ .message o.sender (.unlock u) :: since ∧
    (b₀.run before).Releases k tokenNetwork o u ∧
    (b₀.run before).KeepsInProgress k (.message o.sender (.unlock u) :: since)

/-- The locks of all transfers in progress are pending, or were unlocked early. -/
def Backed (b₀ : Broker) (inputs : List BrokerInput) : Prop :=
  ∀ k t o, (b₀.run inputs).transfers.get? k = some t → t.offer? = some o →
    (b₀.run inputs).view.Backs t.tokenNetwork o ∨
      b₀.UnlockedEarly inputs k t.tokenNetwork o

section Backed

variable {log : List Offer} {b b₀ : Broker} {inputs : List BrokerInput}

/-- A lock that has not expired stays pending, unless the payer unlocks it. -/
theorem backs_after (h : b.Logged log) {tokenNetwork : Address} {o : Offer}
    (hbacks : b.view.Backs tokenNetwork o) (htime : b.block < o.lock.expiration)
    {i : BrokerInput} (hsilent : i.unlocksOnChain = false) :
    (b.after i).view.Backs tokenNetwork o ∨
    ∃ u c c', i = .message o.sender (.unlock u) ∧ b.Accepts i (.unlock u) tokenNetwork c c' ∧
      u.balanceProof.channelId = o.channelId ∧ hashSecret u.secret = o.lock.secretHash := by
  rcases hbacks with ⟨c, hc, hpartner, hl⟩
  rcases pending_after h i hc hl with ⟨c', hc', haddress, hlock⟩
  rcases hlock with hl' | ⟨u, c'', haccepts, hchannel, hhash⟩ | hexpired | hchain
  · exact Or.inl ⟨c', hc', haddress.trans hpartner, hl'⟩
  · -- An accepted message comes from the partner, who is the payer.
    rcases haccepts.sent with ⟨message, hi, hm⟩
    cases message with
    | unlock u' =>
        cases hm
        exact Or.inr ⟨u, c, c'', by rw [hi, hpartner], haccepts, hchannel, hhash⟩
    | _ => cases hm
  · exact absurd hexpired (Word.not_le.mpr htime)
  · rw [hsilent] at hchain
    cases hchain

/-- The unlock of the payer ends the transfer if it waits for one, so whoever is still
    in progress did not. -/
theorem not_awaitsUnlock_of_progress (h : b.Filed) {k : TransferKey} {t : Transfer} {o : Offer}
    {u : Unlock} {tokenNetwork : Address} {c c' : Channel} (ht : b.transfers.get? k = some t)
    (ho : t.offer? = some o)
    (haccepts : b.Accepts (.message o.sender (.unlock u)) (.unlock u) tokenNetwork c c')
    (hhash : hashSecret u.secret = o.lock.secretHash)
    (hprogress : (b.after (.message o.sender (.unlock u))).transfers.get? k ≠ none) :
    t.awaitsUnlock = false := by
  rw [Bool.eq_false_iff]
  intro hawaits
  have hpartner : c.partner.address = o.sender := by
    rcases haccepts.sent with ⟨message, heq, -⟩
    exact (BrokerInput.message.inj heq).1.symm
  -- So the unlock is one that the transfer expects, and it would be over.
  have htakes : b.TakesUnlock o.sender u :=
    ⟨c, c', NetworkView.channel?_of_find? haccepts.found, hpartner, haccepts.accepted⟩
  have hkey : k.secretHash = hashSecret u.secret := by
    rw [hhash, Transfer.secretHash_of_offer? ho, ← (h k t ht).1]
    rfl
  exact hprogress ((get?_unlock_eq_none_iff h ht).mpr ⟨htakes, hkey, hawaits, o, ho, rfl⟩)

/-- A lock that was just offered is pending. -/
theorem backs_of_offered (h : b.Grounded log) {i : BrokerInput} {m : LockedTransfer}
    {tokenNetwork : Address} {c c' : Channel}
    (haccepts : b.Accepts i (.transfer m) tokenNetwork c c')
    (hsame : (b.view.putChannel tokenNetwork m.balanceProof.channelId c').SameIncoming
      (b.after i).view) :
    (b.after i).view.Backs m.balanceProof.tokenNetwork
      ⟨c.partner.address, m.balanceProof.channelId, m.lock⟩ := by
  have hname : m.balanceProof.tokenNetwork = tokenNetwork :=
    haccepts.tokenNetwork_eq h.logged h.housed
  have hsound := (h.logged.channels _ c (NetworkView.channel?_of_find? haccepts.found)).sound
  rcases (Channel.accept_eq_ok_iff (hsound .partner)).mp haccepts.accepted with
    ⟨-, -, -, change, hshows, -, rfl⟩
  rcases hsame.stored? (NetworkView.stored?_putChannel_self _ _ _ _) with ⟨d, hd, -, hpartner⟩
  rw [hname]
  refine ⟨d, hd, ?_, ?_⟩
  · rw [hpartner]
    exact ChannelEnd.recommit_address
  · rw [hpartner]
    cases change with
    | added l =>
        have hlock : m.lock = l := hshows
        rw [hlock]
        exact SortedMap.get?_insert_self _ _ _
    | claimed l => exact hshows.elim
    | removed l => exact hshows.elim

/-- An input keeps the locks of the transfers in progress pending, or the payer unlocks
    one of them early. -/
theorem Backed.concat (h : (b₀.run inputs).Grounded log) (hpunctual : (b₀.run inputs).Punctual)
    (hbacked : b₀.Backed inputs) {i : BrokerInput} (hsilent : i.unlocksOnChain = false) :
    b₀.Backed (inputs ++ [i]) := by
  intro k t o ht ho
  have hprogress : (b₀.run (inputs ++ [i])).transfers.get? k ≠ none := by
    rw [ht]
    exact Option.some_ne_none t
  rw [run_append, run_cons, run_nil] at ht ⊢
  have hkey : t.key = k := (h.after i).logged.filed k t ht
  rcases after_comesFrom h.logged i ht o ho with ⟨t₀, ht₀, ho₀, hnetwork⟩ |
    ⟨m, tokenNetwork, c, c', haccepts, rfl, hnetwork, hsame⟩
  -- It was in progress before: its lock is still there, or is unlocked just now.
  · rw [hkey] at ht₀
    rw [← hnetwork]
    rcases hbacked k t₀ o ht₀ ho₀ with hbacks | ⟨before, u, since, rfl, hreleases, hkeeps⟩
    · have htime := hpunctual.inTime k t₀ ht₀ o ho₀
      rcases backs_after h.logged hbacks htime hsilent with
        hstays | ⟨u, c, c', rfl, haccepts, hchannel, hhash⟩
      · exact Or.inl hstays
      · rw [run_append, run_cons, run_nil] at hprogress
        have hunaware := not_awaitsUnlock_of_progress h.logged.toFiled ht₀ ho₀ haccepts hhash
          hprogress
        exact Or.inr ⟨inputs, u, [], rfl, ⟨⟨c, c', haccepts⟩, hchannel, hhash, t₀, ht₀, ho₀,
          hunaware⟩, keepsInProgress_concat.mpr ⟨keepsInProgress_nil _ k, hprogress⟩⟩
    · -- It was unlocked before, and the transfer has gone on.
      rw [List.append_assoc, run_append] at hprogress
      refine Or.inr ⟨before, u, since ++ [i], List.append_assoc _ _ _, hreleases, ?_⟩
      exact keepsInProgress_concat.mpr ⟨hkeeps, hprogress⟩
  -- It begins with this input, and the lock with it.
  · rw [hnetwork]
    exact Or.inl (backs_of_offered h haccepts hsame)

/-- After any inputs without unlocks on the ledger, the lock of a transfer in progress is
    pending, or was unlocked early. -/
theorem run_backed (h : b₀.Grounded log) (hpunctual : b₀.Punctual)
    (hnone : ∀ k, b₀.transfers.get? k = none) {inputs : List BrokerInput}
    (hsilent : ∀ i ∈ inputs, i.unlocksOnChain = false) (hvisits : b₀.VisitsAll inputs) :
    b₀.Backed inputs := by
  induction inputs using List.reverseRec with
  | nil =>
      intro k t o ht
      rw [run_nil, hnone] at ht
      cases ht
  | append_singleton inputs i ih =>
      rw [visitsAll_append] at hvisits
      have hbefore := ih (fun j hj => hsilent j (List.mem_append_left [i] hj)) hvisits.1
      exact hbefore.concat (run_grounded h inputs) (run_punctual h.logged hpunctual hvisits.1)
        (hsilent i (List.mem_append_right inputs (List.mem_singleton_self i)))

end Backed

/-! ### The law of claims -/

/-- What is true of everything that a node does at an input to claim a lock: it is done
    for a transfer in progress, and the channel of the transfer still holds the lock
    afterwards, or the payer unlocked it before the transfer learned the secret. -/
def BackingLaw (b₀ : Broker) (inputs : List BrokerInput) (i : BrokerInput) : Prop :=
  ∀ d ∈ deeds ((b₀.run inputs).react i).2, d.claims = true →
    ∃ k t o, (b₀.run inputs).transfers.get? k = some t ∧ t.offer? = some o ∧ t.Owns d ∧
      (((b₀.run inputs).after i).view.Backs t.tokenNetwork o ∨
        b₀.UnlockedEarly inputs k t.tokenNetwork o)

/-- The law where the locks are pending or were unlocked early. -/
theorem backingLaw_of_backed {log : List Offer} {b₀ : Broker} {inputs : List BrokerInput}
    (h : (b₀.run inputs).Grounded log) (hpunctual : (b₀.run inputs).Punctual)
    (hbacked : b₀.Backed inputs) {i : BrokerInput} (hsilent : i.unlocksOnChain = false) :
    BackingLaw b₀ inputs i := by
  intro d hd hclaims
  have hfiled := h.logged.toFiled
  rcases exists_owner_of_mem_deeds hfiled hd with ⟨k, t, ht, howns⟩
  -- Whoever has a channel to close received a lock in it.
  obtain ⟨o, ho⟩ : ∃ o, t.offer? = some o := by
    cases d with
    | received r => cases hclaims
    | call c =>
        cases c with
        | registerSecret => cases hclaims
        | closeChannel =>
            obtain ⟨o, ho, -⟩ := howns
            exact ⟨o, ho⟩
        | unlock =>
            obtain ⟨o, ho, -⟩ := howns
            exact ⟨o, ho⟩
  refine ⟨k, t, o, ht, ho, howns, ?_⟩
  rcases hbacked k t o ht ho with hbacks | hearly
  · refine Or.inl ?_
    have htime := hpunctual.inTime k t ht o ho
    rcases backs_after h.logged hbacks htime hsilent with
      hstays | ⟨u, c, c', -, haccepts, -, -⟩
    · exact hstays
    · -- An unlock that is accepted is no cause for a claim.
      rw [haccepts.deeds hfiled] at hd
      cases hd
  · exact Or.inr hearly

/-- In any run without unlocks on the ledger, whose blocks visit all transfers in
    progress, every claim is for a pending lock, or for one that the payer unlocked before
    the transfer learned the secret. -/
theorem run_backingLaw (ourAddress : Address) (revealTimeout block : Height)
    (inputs : List BrokerInput) (i : BrokerInput)
    (hsilent : ∀ j ∈ inputs ++ [i], j.unlocksOnChain = false)
    (hvisits : (fresh (NetworkView.fresh ourAddress revealTimeout) block).VisitsAll inputs) :
    BackingLaw (fresh (NetworkView.fresh ourAddress revealTimeout) block) inputs i := by
  have hgrounded := grounded_fresh ourAddress revealTimeout block
  have hpunctual := punctual_fresh (NetworkView.fresh ourAddress revealTimeout) block
  have hbacked := run_backed hgrounded hpunctual (fun _ => SortedMap.get?_empty _)
    (fun j hj => hsilent j (List.mem_append_left [i] hj)) hvisits
  exact backingLaw_of_backed (run_grounded hgrounded inputs)
    (run_punctual hgrounded.logged hpunctual hvisits) hbacked
    (hsilent i (List.mem_append_right inputs (List.mem_singleton_self i)))

end Broker

/-! ### A claim for a lock that is gone -/

namespace LateClaim

open Broker DoubleOffer

/-- The payer unlocks the lock at once, and the secret is revealed afterwards. -/
def inputs : List BrokerInput :=
  EarlyUnlock.inputs ++
    [.message payer (.unlock large.unlock), .message payer (.secretReveal ⟨large.secret⟩)]

/-- The block at which the node goes to the ledger. -/
def deadline : BrokerInput := .block 95 [⟨.target, hashSecret large.secret⟩]

/-- The broker after the unlock. -/
def unlocked : Broker :=
  ((fresh (NetworkView.fresh payee 5) 10).run EarlyUnlock.inputs).after
    (.message payer (.unlock large.unlock))

theorem keys (g : Leg) : (Transfer.target g.target).key = ⟨.target, hashSecret g.secret⟩ ∧
    (Transfer.target g.waiting).key = ⟨.target, hashSecret g.secret⟩ := ⟨rfl, rfl⟩

theorem after_receive (b : Broker) (sender : Address) (m : Message) :
    b.after (.message sender m) = (b.receive sender m).1 := rfl

/-- The target is the only transfer in progress, and asks for the secret. -/
theorem get?_unlocked (k : TransferKey) : unlocked.transfers.get? k
    = if k = ⟨.target, hashSecret large.secret⟩ then some (.target large.target) else none := by
  have hfiled := (run_fresh_grounded payee 5 10 EarlyUnlock.inputs).logged.toFiled
  by_cases hk : k = ⟨.target, hashSecret large.secret⟩
  -- The unlock is not heard of.
  · rw [if_pos hk, hk]
    have hkeeps := EarlyUnlock.receiptLaw_inputs.keeps (by decide)
    rw [EarlyUnlock.target_secretHash] at hkeeps
    exact hkeeps
  -- Nobody else was in progress before, and an unlock begins no transfer.
  · rw [if_neg hk, Option.eq_none_iff_forall_ne_some]
    intro t ht
    rw [unlocked, after_receive] at ht
    rcases receive_unlock payer large.unlock hfiled with
      ⟨hnot, -⟩ | ⟨-, -, -, -, -, -, -, htransfers⟩
    · exact hnot EarlyUnlock.takesUnlock_inputs
    · have hbefore := ((htransfers k t).mp ht).1
      rw [EarlyUnlock.run_inputs, begun, get?_keep_of_not_isTerminal rfl, (keys large).1,
        if_neg hk] at hbefore
      cases hbefore

theorem unlocked_block : unlocked.block = 10 := by
  rcases after_block ((fresh (NetworkView.fresh payee 5) 10).run EarlyUnlock.inputs)
    (.message payer (.unlock large.unlock)) with heq | ⟨number, order, b', hi, -⟩
  · rw [unlocked, heq, EarlyUnlock.run_inputs]
    exact keep_block _ _
  · cases hi

theorem run_inputs : (fresh (NetworkView.fresh payee 5) 10).run inputs
    = unlocked.keep (.target large.waiting) := by
  have hrun : (fresh (NetworkView.fresh payee 5) 10).run inputs
      = unlocked.after (.message payer (.secretReveal ⟨large.secret⟩)) := List.foldl_append
  have hother : ∀ role, role ≠ .target →
      unlocked.transfers.get? ⟨role, hashSecret large.secret⟩ = none := by
    intro role hrole
    rw [get?_unlocked, if_neg (fun h => hrole (congrArg TransferKey.role h))]
  rw [hrun]
  exact after_reveal (hother .initiator (by decide)) (hother .mediator (by decide))
    ((get?_unlocked _).trans (if_pos rfl))

theorem get?_inputs (k : TransferKey) :
    ((fresh (NetworkView.fresh payee 5) 10).run inputs).transfers.get? k
      = if k = ⟨.target, hashSecret large.secret⟩ then some (.target large.waiting) else none := by
  rw [run_inputs, get?_keep_of_not_isTerminal rfl, (keys large).2, get?_unlocked]
  by_cases hk : k = ⟨.target, hashSecret large.secret⟩
  · simp only [if_pos hk]
  · simp only [if_neg hk]

/-- The lock is not pending in the channel any more. -/
theorem stored?_unlocked : unlocked.view.stored? large.tokenNetwork large.channelId
    = some { large.filed with
        partner :=
          large.filed.partner.recommit (.claimed large.lock) large.unlock.balanceProof } := by
  have hfiled := (run_fresh_grounded payee 5 10 EarlyUnlock.inputs).logged.toFiled
  rcases receive_unlock payer large.unlock hfiled with
    ⟨hnot, -⟩ | ⟨tokenNetwork, c, c', hfind, -, hop, hview, -⟩
  · exact absurd EarlyUnlock.takesUnlock_inputs hnot
  · cases hfind.symm.trans EarlyUnlock.find?_inputs
    cases hop.symm.trans (large.receiveUnlock_unlock (by decide))
    rw [unlocked, after_receive, hview]
    exact NetworkView.stored?_putChannel_self _ _ _ _

theorem silent : ∀ j ∈ inputs ++ [deadline], j.unlocksOnChain = false := by
  intro j hj
  simp only [inputs, EarlyUnlock.inputs, EarlyUnlock.opening, List.mem_append, List.mem_cons,
    List.not_mem_nil, or_false] at hj
  rcases hj with ((((rfl | rfl) | rfl) | (rfl | rfl)) | rfl)
  · rfl
  · rfl
  · rfl
  · rfl
  · rfl
  · rfl

theorem visitsAll : (fresh (NetworkView.fresh payee 5) 10).VisitsAll (inputs ++ [deadline]) := by
  rw [visitsAll_append]
  refine ⟨⟨trivial, trivial, trivial, trivial, trivial, trivial⟩, ?_, trivial⟩
  intro k hk
  rw [get?_inputs] at hk
  by_cases hkey : k = ⟨.target, hashSecret large.secret⟩
  · rw [hkey]
    exact List.mem_singleton_self _
  · rw [if_neg hkey] at hk
    exact absurd rfl hk

/-- A block that visits one transfer. -/
theorem deeds_block {b : Broker} {number : Height} {key : TransferKey} {t : Transfer}
    (h : ¬ number ≤ b.block) (ht : b.transfers.get? key = some t) :
    deeds (b.react (.block number [key])).2 = Effect.deeds (t.step (.block number)).2 := by
  have ht' : { b with block := number }.transfers.get? key = some t := ht
  rw [(tells_block h [key]).deeds, feedAll_deeds_cons, feed_deeds ht']
  exact List.append_nil _

theorem block_sameIncoming (b : Broker) (number : Height) (order : List TransferKey) :
    b.view.SameIncoming (b.after (.block number order)).view :=
  advanceInOrder_sameIncoming b number order

/-- A target that waits goes to the ledger five blocks before the expiration. -/
theorem step_deadline (g : Leg) : Effect.deeds ((Transfer.target g.waiting).step (.block 95)).2
    = [.call (.registerSecret g.secret 99),
        .call (.closeChannel g.tokenNetwork g.channelId payer 99),
        .call (.unlock g.tokenNetwork g.channelId payer (hashSecret g.secret) 119)] := by
  have hdue : g.waiting.unlockDeadline ≤ (95 : Height) := by
    change Word.satSub 100 5 ≤ (95 : Height)
    decide
  have hblock : g.waiting.step (.block 95)
      = Target.checkUnlockDeadline { g.waiting with blockNumber := 95 } := rfl
  have hsecret : g.waiting.terms.secret? = some g.secret := rfl
  have hclaim := Target.checkUnlockDeadline_of_le (s := { g.waiting with blockNumber := 95 })
    rfl hsecret hdue
  change Effect.deeds (g.waiting.step (.block 95)).2 = _
  rw [hblock, hclaim, Transfer.target_claim_deeds]
  rfl

theorem deeds_deadline :
    deeds (((fresh (NetworkView.fresh payee 5) 10).run inputs).react deadline).2
      = [.call (.registerSecret large.secret 99),
        .call (.closeChannel large.tokenNetwork large.channelId payer 99),
        .call (.unlock large.tokenNetwork large.channelId payer (hashSecret large.secret)
          119)] := by
  have hblock : ((fresh (NetworkView.fresh payee 5) 10).run inputs).block = 10 := by
    rw [run_inputs, keep_block, unlocked_block]
  have hnews : ¬ (95 : Height) ≤ ((fresh (NetworkView.fresh payee 5) 10).run inputs).block := by
    rw [hblock]
    decide
  have htarget := (get?_inputs ⟨.target, hashSecret large.secret⟩).trans (if_pos rfl)
  rw [deadline, deeds_block hnews htarget, step_deadline]

/-- The node closes the channel and unlocks a lock that is not pending there any more. -/
theorem claims_unbacked :
    let b := (fresh (NetworkView.fresh payee 5) 10).run inputs
    (∀ j ∈ inputs ++ [deadline], j.unlocksOnChain = false) ∧
    (fresh (NetworkView.fresh payee 5) 10).VisitsAll (inputs ++ [deadline]) ∧
    b.transfers.get? ⟨.target, hashSecret large.secret⟩ = some (.target large.waiting) ∧
    .call (.closeChannel large.tokenNetwork large.channelId payer 99)
      ∈ deeds (b.react deadline).2 ∧
    .call (.unlock large.tokenNetwork large.channelId payer (hashSecret large.secret) 119)
      ∈ deeds (b.react deadline).2 ∧
    ∃ c, (b.after deadline).view.stored? large.tokenNetwork large.channelId = some c ∧
      c.partner.pendingLocks.get? (hashSecret large.secret) = none := by
  -- Neither the reveal nor the block touches what the channel holds for payments to us.
  have hstored : ((fresh (NetworkView.fresh payee 5) 10).run inputs).view.stored?
        large.tokenNetwork large.channelId
      = unlocked.view.stored? large.tokenNetwork large.channelId := by
    rw [run_inputs, keep_view]
  have hsame := block_sameIncoming ((fresh (NetworkView.fresh payee 5) 10).run inputs) 95
    [⟨.target, hashSecret large.secret⟩]
  rw [← deadline] at hsame
  rcases hsame.stored? (hstored.trans stored?_unlocked) with ⟨c, hc, -, hpartner⟩
  refine ⟨silent, visitsAll, (get?_inputs _).trans (if_pos rfl), ?_, ?_, c, hc, ?_⟩
  · rw [deeds_deadline]
    exact List.mem_cons_of_mem _ List.mem_cons_self
  · rw [deeds_deadline]
    exact List.mem_cons_of_mem _ (List.mem_cons_of_mem _ List.mem_cons_self)
  · rw [hpartner]
    exact SortedMap.get?_erase_self _ _

theorem run_backingLaw_lateClaim :
    (∀ j ∈ inputs ++ [deadline], j.unlocksOnChain = false) ∧
    (fresh (NetworkView.fresh payee 5) 10).VisitsAll inputs ∧
    BackingLaw (fresh (NetworkView.fresh payee 5) 10) inputs deadline :=
  ⟨silent, (visitsAll_append.mp visitsAll).1,
    run_backingLaw payee 5 10 inputs deadline silent (visitsAll_append.mp visitsAll).1⟩

end LateClaim

end PaymentNetwork

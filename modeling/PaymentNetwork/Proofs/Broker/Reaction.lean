import PaymentNetwork.Proofs.Broker.Deeds

/-!
# What a Broker Makes of an Input

Every input is one of three things to the transfers.

It tells some of them a fact, one after the other. Or it begins a new one, and carries
out the effects of that. Or it concerns none of them. What happens to the channels
before is part of it: a message is accepted by its channel first, and an event of the
ledger changes the view first. Only a block has something left to do afterwards, as it
takes back the expired locks that nobody took back.

`Broker.reaction` says which of the three it is, and `after_eq` that nothing else is
done. So a property of all transfers in progress has to survive two things only: the
step of a transfer that is told a fact, and the refusals that follow. And what is asked
for by a step can be looked at where it happens, in between the steps of others.

## Main definitions

* `Broker.Reaction`, `Broker.reaction`: Which of the three an input is.
* `Broker.Reaction.outcome`: What comes of it.
* `Broker.tidy`: What is left to do after a fact was told.
* `Broker.Reaction.base`: The broker right before the transfers are concerned.
* `Broker.Told`, `Broker.Started`: A fact that is told, and a transfer that begins.
* `Broker.Lasting`: What is kept when a channel is put back.

## Theorems

* `Broker.after_eq`, `Broker.react_deeds`: What an input does is what its reaction says.
* `Broker.tell_of_reaction`, `Broker.start_of_reaction`: Which inputs tell a fact, and
  which begin a transfer.
* `Broker.Lasting.after`: What putting a channel back keeps is kept by an input.
* `Broker.drain_keeps`, `Broker.feedAll_visits`: What the steps of a fact and refusals
  keep, and what they bring about.
-/

namespace PaymentNetwork

namespace Broker

/-- What an input makes of the transfers, and of a broker that is right before that. -/
inductive Reaction where
  /-- Some transfers are told a fact, in order. -/
  | tell (b : Broker) (fact : Input) (keys : List TransferKey)
  /-- A transfer begins with some effects. -/
  | start (b : Broker) (t : Transfer) (effects : List Effect)
  /-- No transfer is concerned. -/
  | rest (b : Broker)

/-- Take back the expired locks that nobody took back, if the fact is a block. -/
def tidy (b : Broker) : Input → Broker
  | .block number =>
    { b with view := (removeLocks b.view number (b.view.expiredLocks number)).view }
  | _ => b

theorem tidy_transfers (b : Broker) (fact : Input) : (b.tidy fact).transfers = b.transfers := by
  cases fact with
  | _ => rfl

theorem tidy_block (b : Broker) (fact : Input) : (b.tidy fact).block = b.block := by
  cases fact with
  | _ => rfl

namespace Reaction

/-- The broker when everything is done. -/
def outcome : Reaction → Broker
  | tell b fact keys => (b.feedAll fact keys).1.tidy fact
  | start b t effects => (b.settle t effects).1
  | rest b => b

/-- The broker right before the transfers are concerned. -/
def base : Reaction → Broker
  | tell b _ _ => b
  | start b _ _ => b
  | rest b => b

/-- What is done to collect. A transfer that begins collects nothing. -/
def deeds : Reaction → List Deed
  | tell b fact keys => Broker.deeds (b.feedAll fact keys).2
  | start .. => []
  | rest _ => []

end Reaction

/-- The keys of some roles on a secret hash. -/
def keysOf (roles : List Role) (secretHash : SecretHash) : List TransferKey :=
  roles.map fun role => ⟨role, secretHash⟩

/-- An offered lock that its channel files begins a transfer, if none is in progress
    under its key. -/
def reactionToOffer (b : Broker) (sender : Address) (m : LockedTransfer) : Reaction :=
  if m.sender ≠ sender ∨ m.recipient ≠ b.view.ourAddress then .rest b
  else
    match b.view.withPartnerChannel m.balanceProof.channelId sender
      (fun c => (c.receiveTransfer m b.block).map fun c' => (c'.route, c')) with
    | .error _ => .rest b
    | .ok (payerRoute, view) =>
      let begun := beginOffered view b.block payerRoute m
      if b.transfers.contains begun.1.key then .rest { b with view := view }
      else .start { b with view := view } begun.1 begun.2

/-- A change of the partner's end is told to the transfers on the lock, if its channel
    takes it. -/
def reactionToProof (b : Broker) (sender : Address) (channelId : ChannelId)
    (secretHash : SecretHash) (message : ProofMessage)
    (operation : Channel → Except ChannelError Channel) : Reaction :=
  match b.view.withPartnerChannel channelId sender
    (fun c => (operation c).map fun c' => ((), c')) with
  | .error _ => .rest b
  | .ok (_, view) =>
    .tell { b with view := view } (.proofReceived ⟨sender, secretHash, message⟩)
      (keysOf [.mediator, .target] secretHash)

/-- What an input makes of the transfers. -/
def reaction (b : Broker) : BrokerInput → Reaction
  | .pay terms =>
    let begun := Initiator.start
      ⟨b.view.ourAddress, terms, b.view.routes terms.tokenNetwork⟩ b.block
    if b.transfers.contains (Transfer.initiator begun.1).key then .rest b
    else .start b (.initiator begun.1) begun.2
  | .message sender m =>
    match m with
    | .lockedTransfer m => b.reactionToOffer sender m
    | .secretRequest m =>
      .tell b (.secretRequested ⟨sender, m.paymentId, m.amount, m.secretHash⟩)
        (keysOf [.initiator] m.secretHash)
    | .secretReveal m =>
      .tell b (.secretRevealed ⟨sender, m.secret, hashSecret m.secret⟩)
        (keysOf [.initiator, .mediator, .target] (hashSecret m.secret))
    | .unlock m =>
      b.reactionToProof sender m.balanceProof.channelId (hashSecret m.secret) (.unlock m)
        (·.receiveUnlock m)
    | .lockRemoval m =>
      b.reactionToProof sender m.balanceProof.channelId m.secretHash (.removal m)
        (·.receiveRemoval m b.block)
    | .disposal m =>
      .tell b (.lockDisposed ⟨sender, m.channelId, m.lock⟩)
        (keysOf [.initiator, .mediator] m.lock.secretHash)
  | .block number order =>
    if number ≤ b.block then .rest b
    else .tell { b with block := number } (.block number) order
  | .chain e =>
    match e with
    | .secretRegistered _ secretHash _ =>
      .tell { b with view := b.view.apply e } (.chain e)
        (keysOf [.initiator, .mediator, .target] secretHash)
    | .channelClosed .. => .tell { b with view := b.view.apply e } (.chain e) b.transfers.keys
    | _ => .rest { b with view := b.view.apply e }

/-! ### Nothing else is done -/

/-- The reaction accounts for what comes of an input. -/
structure Accounts (r : Broker × List Action) (reaction : Reaction) : Prop where
  after : r.1 = reaction.outcome
  deeds : Broker.deeds r.2 = reaction.deeds

theorem receiveTransfer_accounts (b : Broker) (sender : Address) (m : LockedTransfer) :
    Accounts (b.receiveTransfer sender m) (b.reactionToOffer sender m) := by
  have hdeeds := receiveTransfer_deeds b sender m
  unfold receiveTransfer reactionToOffer at *
  by_cases hparties : m.sender ≠ sender ∨ m.recipient ≠ b.view.ourAddress
  · rw [if_pos hparties, if_pos hparties]
    exact ⟨rfl, rfl⟩
  · rw [if_neg hparties] at hdeeds
    rw [if_neg hparties, if_neg hparties]
    cases haccept : b.view.withPartnerChannel m.balanceProof.channelId sender
      (fun c => (c.receiveTransfer m b.block).map fun c' => (c'.route, c')) with
    | error e =>
        simp only [haccept]
        exact ⟨rfl, rfl⟩
    | ok accepted =>
        obtain ⟨payerRoute, view⟩ := accepted
        simp only [haccept, begin?] at hdeeds ⊢
        by_cases hprogress :
            b.transfers.contains (beginOffered view b.block payerRoute m).1.key = true
        · have hprogress' : b.transfers.contains ⟨(beginOffered view b.block payerRoute m).1.role,
              (beginOffered view b.block payerRoute m).1.secretHash⟩ = true := hprogress
          simp only [if_pos hprogress, if_pos hprogress']
          exact ⟨rfl, rfl⟩
        · have hprogress' : ¬ b.transfers.contains
              ⟨(beginOffered view b.block payerRoute m).1.role,
                (beginOffered view b.block payerRoute m).1.secretHash⟩ = true := hprogress
          simp only [if_neg hprogress'] at hdeeds
          simp only [if_neg hprogress, if_neg hprogress']
          exact ⟨rfl, hdeeds⟩

theorem receiveProof_accounts (b : Broker) (sender : Address) (what : String)
    (channelId : ChannelId) (secretHash : SecretHash) (message : ProofMessage)
    (operation : Channel → Except ChannelError Channel) :
    Accounts (b.receiveProof sender what channelId secretHash message operation)
      (b.reactionToProof sender channelId secretHash message operation) := by
  unfold receiveProof reactionToProof
  dsimp only
  cases b.view.withPartnerChannel channelId sender
    (fun c => (operation c).map fun c' => ((), c')) with
  | error e => exact ⟨rfl, rfl⟩
  | ok accepted => exact ⟨rfl, rfl⟩

theorem pay_accounts (b : Broker) (terms : TransferTerms) :
    Accounts (b.react (.pay terms)) (b.reaction (.pay terms)) := by
  have hdeeds := Initiator.start_deeds
    ⟨b.view.ourAddress, terms, b.view.routes terms.tokenNetwork⟩ b.block
  unfold react reaction pay begin?
  dsimp only
  generalize Initiator.start ⟨b.view.ourAddress, terms, b.view.routes terms.tokenNetwork⟩ b.block
    = begun at hdeeds ⊢
  by_cases hprogress : b.transfers.contains (Transfer.initiator begun.1).key = true
  · have hprogress' : b.transfers.contains ⟨(Transfer.initiator begun.1).role,
        (Transfer.initiator begun.1).secretHash⟩ = true := hprogress
    simp only [if_pos hprogress, if_pos hprogress']
    exact ⟨rfl, rfl⟩
  · have hprogress' : ¬ b.transfers.contains ⟨(Transfer.initiator begun.1).role,
        (Transfer.initiator begun.1).secretHash⟩ = true := hprogress
    simp only [if_neg hprogress, if_neg hprogress']
    exact ⟨rfl, (settle_deeds b _ _).trans hdeeds⟩

theorem react_accounts (b : Broker) (i : BrokerInput) : Accounts (b.react i) (b.reaction i) := by
  cases i with
  | pay terms => exact pay_accounts b terms
  | message sender m =>
      cases m with
      | lockedTransfer m => exact receiveTransfer_accounts b sender m
      | unlock m => exact receiveProof_accounts b sender _ _ _ _ _
      | lockRemoval m => exact receiveProof_accounts b sender _ _ _ _ _
      | _ => exact ⟨rfl, rfl⟩
  | block number order =>
      unfold react reaction advanceInOrder
      by_cases hlate : number ≤ b.block
      · simp only [if_pos hlate]
        exact ⟨rfl, rfl⟩
      · simp only [if_neg hlate]
        refine ⟨rfl, ?_⟩
        -- Taking back what expired collects nothing.
        rw [deeds_append, removeLocks_deeds, List.append_nil]
        rfl
  | chain e =>
      cases e with
      | _ => exact ⟨rfl, rfl⟩

theorem after_eq (b : Broker) (i : BrokerInput) : b.after i = (b.reaction i).outcome :=
  (react_accounts b i).after

theorem react_deeds (b : Broker) (i : BrokerInput) :
    deeds (b.react i).2 = (b.reaction i).deeds :=
  (react_accounts b i).deeds

/-- The clock does not move while transfers react. -/
theorem block_of_reaction (b : Broker) (i : BrokerInput) :
    (b.after i).block = (b.reaction i).base.block := by
  rw [after_eq]
  cases b.reaction i with
  | tell b' fact keys =>
      cases fact with
      | _ => exact feedAll_block b' _ keys
  | start b' t effects => exact settle_block b' t effects
  | rest b' => rfl

/-! ### Which inputs do what -/

/-- An input tells a fact to the transfers of some keys. -/
structure Told (b : Broker) (i : BrokerInput) (b' : Broker) (fact : Input)
    (keys : List TransferKey) : Prop where
  transfers : b'.transfers = b.transfers
  block : b'.block = fact.clock b.block
  tells : i.fact? = some fact
  news : ∀ number, fact = .block number → i = .block number keys ∧ b.block < number

/-- An input begins a transfer: a payment of ours, or a lock that a peer offered and
    that its channel filed. -/
structure Started (b : Broker) (i : BrokerInput) (b' : Broker) (t : Transfer)
    (effects : List Effect) : Prop where
  transfers : b'.transfers = b.transfers
  block : b'.block = b.block
  new : b.transfers.get? t.key = none
  begins : (∃ terms, i = .pay terms ∧ (t, effects) = (Initiator.start
      ⟨b.view.ourAddress, terms, b.view.routes terms.tokenNetwork⟩ b.block).map .initiator id) ∨
    (∃ sender m c c', i = .message sender (.lockedTransfer m) ∧
      b.view.channel? m.balanceProof.channelId = some c ∧
      c.receiveTransfer m b.block = .ok c' ∧
      (t, effects) = beginOffered b'.view b.block c'.route m)

section Cases

variable {b b' : Broker} {i : BrokerInput} {fact : Input} {keys : List TransferKey}
  {t : Transfer} {effects : List Effect}

theorem reaction_block (b : Broker) (number : Height) (order : List TransferKey) :
    b.reaction (.block number order) = if number ≤ b.block then .rest b
      else .tell { b with block := number } (.block number) order := rfl

theorem le_block_after (b : Broker) (number : Height) (order : List TransferKey) :
    number ≤ (b.after (.block number order)).block := by
  rw [block_of_reaction, reaction_block]
  split
  · assumption
  · exact Nat.le_refl _

theorem reaction_pay (b : Broker) (terms : TransferTerms) :
    b.reaction (.pay terms) =
      if b.transfers.contains (Transfer.initiator (Initiator.start
          ⟨b.view.ourAddress, terms, b.view.routes terms.tokenNetwork⟩ b.block).1).key then .rest b
      else .start b (.initiator (Initiator.start
          ⟨b.view.ourAddress, terms, b.view.routes terms.tokenNetwork⟩ b.block).1)
        (Initiator.start
          ⟨b.view.ourAddress, terms, b.view.routes terms.tokenNetwork⟩ b.block).2 := rfl

/-- What is made of an offer. -/
theorem reactionToOffer_cases (b : Broker) (sender : Address) (m : LockedTransfer) :
    b.reactionToOffer sender m = .rest b ∨
    ∃ tokenNetwork c c', b.view.find? m.balanceProof.channelId = some (tokenNetwork, c) ∧
      c.partner.address = sender ∧ c.receiveTransfer m b.block = .ok c' ∧
      ∃ view, view = b.view.putChannel tokenNetwork m.balanceProof.channelId c' ∧
        b.reactionToOffer sender m =
          if b.transfers.contains (beginOffered view b.block c'.route m).1.key then
            .rest { b with view := view }
          else .start { b with view := view } (beginOffered view b.block c'.route m).1
            (beginOffered view b.block c'.route m).2 := by
  unfold reactionToOffer
  split
  · exact Or.inl rfl
  · split
    · exact Or.inl rfl
    · rename_i payerRoute view haccept
      obtain ⟨tokenNetwork, c, c', hfind, hpartner, hop, rfl⟩ :=
        NetworkView.withPartnerChannel_eq_ok_iff.mp haccept
      -- The route of the payer is that of the channel after the offer was filed.
      obtain ⟨c₁, hreceive, heq⟩ := map_eq_ok_iff.mp hop
      cases heq
      exact Or.inr ⟨tokenNetwork, c, _, hfind, hpartner, hreceive, _, rfl, rfl⟩

/-- What is made of a change of the partner's end. -/
theorem reactionToProof_cases (b : Broker) (sender : Address) (channelId : ChannelId)
    (secretHash : SecretHash) (message : ProofMessage)
    (operation : Channel → Except ChannelError Channel) :
    b.reactionToProof sender channelId secretHash message operation = .rest b ∨
    ∃ tokenNetwork c c', b.view.find? channelId = some (tokenNetwork, c) ∧
      c.partner.address = sender ∧ operation c = .ok c' ∧
      b.reactionToProof sender channelId secretHash message operation
        = .tell { b with view := b.view.putChannel tokenNetwork channelId c' }
          (.proofReceived ⟨sender, secretHash, message⟩)
          (keysOf [.mediator, .target] secretHash) := by
  unfold reactionToProof
  split
  · exact Or.inl rfl
  · rename_i view haccept
    obtain ⟨tokenNetwork, c, c', hfind, hpartner, hop, rfl⟩ :=
      NetworkView.withPartnerChannel_eq_ok_iff.mp haccept
    obtain ⟨c₁, hc, heq⟩ := map_eq_ok_iff.mp hop
    cases heq
    exact Or.inr ⟨tokenNetwork, c, _, hfind, hpartner, hc, rfl⟩

theorem tell_of_reactionToProof {sender : Address} {channelId : ChannelId}
    {secretHash : SecretHash} {message : ProofMessage}
    {operation : Channel → Except ChannelError Channel}
    (hfact : i.fact? = some (.proofReceived ⟨sender, secretHash, message⟩))
    (h : b.reactionToProof sender channelId secretHash message operation = .tell b' fact keys) :
    b.Told i b' fact keys := by
  rcases reactionToProof_cases b sender channelId secretHash message operation with
    heq | ⟨tokenNetwork, c, c', -, -, -, heq⟩
  · cases heq.symm.trans h
  · cases heq.symm.trans h
    exact ⟨rfl, rfl, hfact, fun _ hblock => nomatch hblock⟩

theorem tell_of_reaction (h : b.reaction i = .tell b' fact keys) : b.Told i b' fact keys := by
  cases i with
  | pay terms =>
      rw [reaction_pay] at h
      split at h
      · cases h
      · cases h
  | message sender m =>
      cases m with
      | lockedTransfer m =>
          have hoffer : b.reactionToOffer sender m = .tell b' fact keys := h
          rcases reactionToOffer_cases b sender m with
            heq | ⟨tokenNetwork, c, c', -, -, -, view, -, heq⟩
          · cases heq.symm.trans hoffer
          · rw [heq] at hoffer
            split at hoffer
            · cases hoffer
            · cases hoffer
      | unlock m => exact tell_of_reactionToProof rfl h
      | lockRemoval m => exact tell_of_reactionToProof rfl h
      | _ =>
          cases h
          exact ⟨rfl, rfl, rfl, fun _ hblock => nomatch hblock⟩
  | block number order =>
      rw [reaction_block] at h
      split at h
      · cases h
      · rename_i hnews
        cases h
        refine ⟨rfl, rfl, rfl, fun number' hblock => ?_⟩
        cases hblock
        exact ⟨rfl, Word.not_le.mp hnews⟩
  | chain e =>
      cases e with
      | secretRegistered =>
          cases h
          exact ⟨rfl, rfl, rfl, fun _ hblock => nomatch hblock⟩
      | channelClosed =>
          cases h
          exact ⟨rfl, rfl, rfl, fun _ hblock => nomatch hblock⟩
      | _ => cases h

theorem not_start_of_reactionToProof {sender : Address} {channelId : ChannelId}
    {secretHash : SecretHash} {message : ProofMessage}
    {operation : Channel → Except ChannelError Channel} :
    b.reactionToProof sender channelId secretHash message operation ≠ .start b' t effects := by
  intro h
  rcases reactionToProof_cases b sender channelId secretHash message operation with
    heq | ⟨tokenNetwork, c, c', -, -, -, heq⟩
  · cases heq.symm.trans h
  · cases heq.symm.trans h

/-- What begins has a key that no transfer in progress has. -/
theorem Started.key_ne {k : TransferKey} {t' : Transfer} (h : b.Started i b' t effects)
    (ht : b.transfers.get? k = some t') : t.key ≠ k := by
  rintro rfl
  cases h.new.symm.trans ht

theorem start_of_reaction (h : b.reaction i = .start b' t effects) : b.Started i b' t effects := by
  cases i with
  | pay terms =>
      rw [reaction_pay] at h
      split at h
      · cases h
      · rename_i hnew
        cases h
        exact ⟨rfl, rfl, get?_eq_none_of_not_contains hnew, Or.inl ⟨terms, rfl, rfl⟩⟩
  | message sender m =>
      cases m with
      | lockedTransfer m =>
          have hoffer : b.reactionToOffer sender m = .start b' t effects := h
          rcases reactionToOffer_cases b sender m with
            heq | ⟨tokenNetwork, c, c', hfind, -, hop, view, rfl, heq⟩
          · cases heq.symm.trans hoffer
          · rw [heq] at hoffer
            split at hoffer
            · cases hoffer
            · rename_i hnew
              cases hoffer
              exact ⟨rfl, rfl, get?_eq_none_of_not_contains hnew, Or.inr
                ⟨sender, m, c, c', rfl, NetworkView.channel?_of_find? hfind, hop, rfl⟩⟩
      | unlock m => exact absurd h not_start_of_reactionToProof
      | lockRemoval m => exact absurd h not_start_of_reactionToProof
      | _ => cases h
  | block number order =>
      rw [reaction_block] at h
      split at h
      · cases h
      · cases h
  | chain e =>
      cases e with
      | _ => cases h

theorem rest_of_reaction (h : b.reaction i = .rest b') :
    b'.transfers = b.transfers ∧ b'.block = b.block := by
  cases i with
  | pay terms =>
      rw [reaction_pay] at h
      split at h
      · cases h
        exact ⟨rfl, rfl⟩
      · cases h
  | message sender m =>
      cases m with
      | lockedTransfer m =>
          have hoffer : b.reactionToOffer sender m = .rest b' := h
          rcases reactionToOffer_cases b sender m with
            heq | ⟨tokenNetwork, c, c', -, -, -, view, -, heq⟩
          · cases heq.symm.trans hoffer
            exact ⟨rfl, rfl⟩
          · rw [heq] at hoffer
            split at hoffer
            · cases hoffer
              exact ⟨rfl, rfl⟩
            · cases hoffer
      | unlock m =>
          rcases reactionToProof_cases b sender m.balanceProof.channelId (hashSecret m.secret)
            (.unlock m) (·.receiveUnlock m) with heq | ⟨_, _, _, -, -, -, heq⟩
          · cases heq.symm.trans h
            exact ⟨rfl, rfl⟩
          · cases heq.symm.trans h
      | lockRemoval m =>
          rcases reactionToProof_cases b sender m.balanceProof.channelId m.secretHash
            (.removal m) (·.receiveRemoval m b.block) with heq | ⟨_, _, _, -, -, -, heq⟩
          · cases heq.symm.trans h
            exact ⟨rfl, rfl⟩
          · cases heq.symm.trans h
      | _ => cases h
  | block number order =>
      rw [reaction_block] at h
      split at h
      · cases h
        exact ⟨rfl, rfl⟩
      · cases h
  | chain e =>
      cases e with
      | secretRegistered => cases h
      | channelClosed => cases h
      | _ =>
          cases h
          exact ⟨rfl, rfl⟩

/-- The channels that a reaction finds: nothing happened to them, or the ledger changed
    them, or one of them accepted a message. -/
theorem base_view_cases (b : Broker) (i : BrokerInput) :
    (b.reaction i).base.view = b.view ∨
    (∃ e, i = .chain e ∧ (b.reaction i).base.view = b.view.apply e) ∨
    (∃ m tokenNetwork c c', b.Accepts i m tokenNetwork c c' ∧ (b.reaction i).base.view
      = b.view.putChannel tokenNetwork m.balanceProof.channelId c') := by
  cases i with
  | pay terms =>
      rw [reaction_pay]
      split
      · exact Or.inl rfl
      · exact Or.inl rfl
  | message sender m =>
      cases m with
      | lockedTransfer m =>
          rcases reactionToOffer_cases b sender m with
            heq | ⟨tokenNetwork, c, c', hfind, rfl, hop, view, rfl, heq⟩
          · exact Or.inl (congrArg (view ∘ Reaction.base) heq)
          · refine Or.inr (Or.inr ⟨.transfer m, tokenNetwork, c, c',
              ⟨⟨_, rfl, rfl⟩, hfind, hop⟩, ?_⟩)
            -- Whoever takes the offer up, the view is the one with the lock.
            refine (congrArg (view ∘ Reaction.base) heq).trans ?_
            dsimp only [Function.comp]
            split
            · rfl
            · rfl
      | unlock m =>
          rcases reactionToProof_cases b sender m.balanceProof.channelId (hashSecret m.secret)
            (.unlock m) (·.receiveUnlock m) with heq | ⟨tokenNetwork, c, c', hfind, rfl, hop, heq⟩
          · exact Or.inl (congrArg (view ∘ Reaction.base) heq)
          · exact Or.inr (Or.inr ⟨.unlock m, tokenNetwork, c, c', ⟨⟨_, rfl, rfl⟩, hfind, hop⟩,
              congrArg (view ∘ Reaction.base) heq⟩)
      | lockRemoval m =>
          rcases reactionToProof_cases b sender m.balanceProof.channelId m.secretHash
            (.removal m) (·.receiveRemoval m b.block) with
            heq | ⟨tokenNetwork, c, c', hfind, rfl, hop, heq⟩
          · exact Or.inl (congrArg (view ∘ Reaction.base) heq)
          · exact Or.inr (Or.inr ⟨.removal m, tokenNetwork, c, c', ⟨⟨_, rfl, rfl⟩, hfind, hop⟩,
              congrArg (view ∘ Reaction.base) heq⟩)
      | _ => exact Or.inl rfl
  | block number order =>
      rw [reaction_block]
      split
      · exact Or.inl rfl
      · exact Or.inl rfl
  | chain e =>
      refine Or.inr (Or.inl ⟨e, rfl, ?_⟩)
      cases e with
      | _ => rfl

/-- Whatever happened to the channels, the transfers are as they were. -/
theorem base_transfers (b : Broker) (i : BrokerInput) :
    (b.reaction i).base.transfers = b.transfers := by
  cases hreaction : b.reaction i with
  | tell b' fact keys => exact (tell_of_reaction hreaction).transfers
  | start b' t effects => exact (start_of_reaction hreaction).transfers
  | rest b' => exact (rest_of_reaction hreaction).1

/-- Only a block moves the clock. -/
theorem base_block (b : Broker) (i : BrokerInput) :
    (b.reaction i).base.block = b.block ∨
    ∃ number keys, b.reaction i = .tell { b with block := number } (.block number) keys ∧
      i = .block number keys ∧ b.block < number := by
  cases hreaction : b.reaction i with
  | tell b' fact keys =>
      have htold := tell_of_reaction hreaction
      cases fact with
      | block number =>
          obtain ⟨rfl, hnews⟩ := htold.news number rfl
          rw [reaction_block, if_neg (Word.not_le.mpr hnews)] at hreaction
          cases hreaction
          exact Or.inr ⟨number, keys, rfl, rfl, hnews⟩
      | _ => exact Or.inl htold.block
  | start b' t effects => exact Or.inl (start_of_reaction hreaction).block
  | rest b' => exact Or.inl (rest_of_reaction hreaction).2

end Cases

/-! ### What putting a channel back keeps -/

/-- A property of views is kept when a channel is put back where it was found. -/
def Lasting (I : NetworkView → Prop) : Prop :=
  ∀ v tokenNetwork channelId c c', v.find? channelId = some (tokenNetwork, c) → I v →
    I (v.putChannel tokenNetwork channelId c')

section Lasting

variable {I : NetworkView → Prop} {view : NetworkView} {b : Broker}

theorem Lasting.withPartnerChannel (hi : Lasting I) (h : I view) {α : Type} {view' : NetworkView}
    {channelId : ChannelId} {partner : Address}
    {operation : Channel → Except ChannelError (α × Channel)} {a : α}
    (hop : view.withPartnerChannel channelId partner operation = .ok (a, view')) : I view' := by
  obtain ⟨tokenNetwork, c, c', hfind, -, -, rfl⟩ := NetworkView.withPartnerChannel_eq_ok_iff.mp hop
  exact hi _ _ _ _ _ hfind h

theorem Lasting.build (hi : Lasting I) (h : I view) {α : Type} {channelId : ChannelId}
    {recipient : Address} {operation : Channel → Except ChannelError (α × Channel)}
    {message : α → Message} {complaint : ChannelError → List Action} :
    I (build view channelId recipient operation message complaint).view := by
  unfold Broker.build
  split
  · rename_i hbuild
    exact hi.withPartnerChannel h hbuild
  · exact h

theorem Lasting.perform (hi : Lasting I) (h : I view) (block : Height) (e : Effect) :
    I (perform view block e).view := by
  cases e with
  | sendUnlock => exact hi.build h
  | sendLockRemoval => exact hi.build h
  | _ => exact h

theorem Lasting.drain (hi : Lasting I) (h : I view) (block : Height) (t : Transfer)
    (effects : List Effect) : I (drain view block t effects).2.view := by
  -- The induction is on the queue: sent, refused and anything else.
  fun_induction Broker.drain view block t effects with
  | case1 view t => exact h
  | case2 view t recipient channelId terms rest m view' hsend t' o hdrain ih =>
      rw [hdrain] at ih
      exact ih (hi.withPartnerChannel h hsend)
  | case3 view t recipient channelId terms rest e hsend refusal ih => exact ih h
  | case4 view t effect rest hne done t' o hdrain ih =>
      rw [hdrain] at ih
      exact ih (hi.perform h block effect)

theorem Lasting.settle (hi : Lasting I) (h : I b.view) (t : Transfer) (effects : List Effect) :
    I (b.settle t effects).1.view := by
  rw [Broker.settle, keep_view]
  exact hi.drain h b.block t effects

theorem Lasting.feed (hi : Lasting I) (h : I b.view) (fact : Input) (key : TransferKey) :
    I (b.feed fact key).1.view := by
  unfold Broker.feed
  split
  · exact h
  · exact hi.settle h _ _

theorem Lasting.feedAll (hi : Lasting I) (h : I b.view) (fact : Input) (keys : List TransferKey) :
    I (b.feedAll fact keys).1.view := by
  induction keys generalizing b with
  | nil => exact h
  | cons key rest ih => exact ih (hi.feed h fact key)

theorem Lasting.removeLocks (hi : Lasting I) (h : I view) (block : Height)
    (locks : List NetworkView.SentLock) : I (removeLocks view block locks).view := by
  induction locks generalizing view with
  | nil => exact h
  | cons l rest ih => exact ih (hi.build h)

/-- An input keeps such a property, if the ledger does. -/
theorem Lasting.after (hi : Lasting I) (h : I b.view) {i : BrokerInput}
    (hchain : ∀ e, i = .chain e → I (b.view.apply e)) : I (b.after i).view := by
  have hbase : I (b.reaction i).base.view := by
    rcases base_view_cases b i with heq | ⟨e, he, heq⟩ | ⟨m, tokenNetwork, c, c', haccepts, heq⟩
    · rw [heq]
      exact h
    · rw [heq]
      exact hchain e he
    · rw [heq]
      exact hi _ _ _ _ _ haccepts.found h
  rw [after_eq]
  cases hreaction : b.reaction i with
  | tell b' fact keys =>
      rw [hreaction] at hbase
      have hfed := hi.feedAll hbase fact keys
      cases fact with
      | block number => exact hi.removeLocks hfed number _
      | _ => exact hfed
  | start b' t effects =>
      rw [hreaction] at hbase
      exact hi.settle hbase t effects
  | rest b' =>
      rw [hreaction] at hbase
      exact hbase

end Lasting

/-! ### What a reaction keeps -/

section Holds

variable {P : ChannelId → Channel → Prop} {R : Transfer → Prop} {b : Broker} {i : BrokerInput}

theorem Holds.tidy (hc : Closed P R) (h : Holds P R b) (fact : Input) :
    Holds P R (b.tidy fact) := by
  cases fact with
  | block number =>
      exact h.withView (removeLocks_holds hc h.channels number (b.view.expiredLocks number))
  | _ => exact h

/-- An input keeps what is closed, if it is true of the channels right before the
    transfers are concerned, and of a transfer that begins. -/
theorem Holds.after_of_base (hc : Closed P R) (h : Holds P R b)
    (hview : (b.reaction i).base.view.Holds P)
    (hstart : ∀ b' t effects, b.reaction i = .start b' t effects → R t) :
    Holds P R (b.after i) := by
  have htransfers := base_transfers b i
  have hbase : Holds P R (b.reaction i).base :=
    { channels := hview
      filed := fun k t ht => h.filed k t (htransfers ▸ ht)
      inProgress := fun k t ht => h.inProgress k t (htransfers ▸ ht)
      transfers := fun k t ht => h.transfers k t (htransfers ▸ ht) }
  rw [after_eq]
  cases hreaction : b.reaction i with
  | tell b' fact keys =>
      rw [hreaction] at hbase
      exact (hbase.feedAll hc fact keys).tidy hc fact
  | start b' t effects =>
      rw [hreaction] at hbase
      exact hbase.settle hc (hstart b' t effects hreaction) effects
  | rest b' =>
      rw [hreaction] at hbase
      exact hbase

end Holds

/-! ### What steps and refusals keep -/

/-- Refusals keep a property of transfers. -/
def Steady (R : Transfer → Prop) : Prop :=
  ∀ t refusal, R t → R (t.step (.routeRefused refusal)).1

section Steady

variable {R R' : Transfer → Prop}

theorem drain_keeps (hr : Steady R) (view : NetworkView) (block : Height) {t : Transfer} (h : R t)
    (effects : List Effect) : R (drain view block t effects).1 := by
  fun_induction drain view block t effects with
  | case1 view t => exact h
  | case2 view t recipient channelId terms rest m view' hsend t' o hdrain ih =>
      rw [hdrain] at ih
      exact ih h
  | case3 view t recipient channelId terms rest e hsend refusal ih => exact ih (hr t _ h)
  | case4 view t effect rest hne done t' o hdrain ih =>
      rw [hdrain] at ih
      exact ih h

/-- Whoever is kept after its effects were carried out has the property, and the others
    are as they were. -/
theorem settle_keeps (hr : Steady R) {b : Broker} {t : Transfer} (h : R t)
    {effects : List Effect} {k : TransferKey} {t' : Transfer}
    (ht' : (b.settle t effects).1.transfers.get? k = some t') :
    (k = t.key ∧ R t') ∨ (k ≠ t.key ∧ b.transfers.get? k = some t') := by
  by_cases hk : k = t.key
  · subst hk
    rw [get?_settle_self] at ht'
    split at ht'
    · cases ht'
    · cases ht'
      exact Or.inl ⟨rfl, drain_keeps hr b.view b.block h effects⟩
  · rw [get?_settle_of_ne hk] at ht'
    exact Or.inr ⟨hk, ht'⟩

variable {b : Broker} {fact : Input}

/-- Telling one transfer brings the property about for it, and keeps it for the others. -/
theorem feed_at (hr : Steady R') (hstep : ∀ t, R t → R' (t.step fact).1) (hf : b.Filed)
    (h : ∀ k t, b.transfers.get? k = some t → R t) {key k : TransferKey} {t : Transfer}
    (ht : (b.feed fact key).1.transfers.get? k = some t) :
    (k = key ∧ R' t) ∨ (k ≠ key ∧ b.transfers.get? k = some t) := by
  cases ht₀ : b.transfers.get? key with
  | none =>
      rw [feed_of_none ht₀] at ht
      refine Or.inr ⟨fun hk => ?_, ht⟩
      rw [hk, ht₀] at ht
      cases ht
  | some t₀ =>
      -- A step does not move a transfer to another key.
      have hkey : (t₀.step fact).1.key = key := (t₀.step_key fact).trans (hf key t₀ ht₀).1
      rw [feed_of_some ht₀] at ht
      have hkept := settle_keeps hr (hstep t₀ (h key t₀ ht₀)) ht
      rwa [hkey] at hkept

/-- A fact brings a property about for all that are told, if its step does. Those that
    are not told keep what they had. -/
theorem feedAll_visits (hr : Steady R') (hstep : ∀ t, R t → R' (t.step fact).1)
    (hsub : ∀ t, R' t → R t) (hf : b.Filed) (h : ∀ k t, b.transfers.get? k = some t → R t)
    {keys : List TransferKey} {k : TransferKey} {t : Transfer}
    (ht : (b.feedAll fact keys).1.transfers.get? k = some t) :
    R t ∧ (k ∈ keys ∨ (∀ t₀, b.transfers.get? k = some t₀ → R' t₀) → R' t) := by
  induction keys generalizing b with
  | nil =>
      refine ⟨h k t ht, fun hk => ?_⟩
      rcases hk with hk | hbefore
      · cases hk
      · exact hbefore t ht
  | cons key rest ih =>
      have hnext : ∀ k t, (b.feed fact key).1.transfers.get? k = some t → R t := by
        intro k t ht
        rcases feed_at hr hstep hf h ht with ⟨-, hnew⟩ | ⟨-, hold⟩
        · exact hsub t hnew
        · exact h k t hold
      obtain ⟨hkeeps, hbrings⟩ := ih (feed_filed hf fact key) hnext ht
      refine ⟨hkeeps, fun hk => hbrings ?_⟩
      -- Whoever is told now has the property when the rest are told.
      by_cases hlater : k ∈ rest
      · exact Or.inl hlater
      · refine Or.inr (fun t₀ ht₀ => ?_)
        rcases feed_at hr hstep hf h ht₀ with ⟨-, hnew⟩ | ⟨hne, hold⟩
        · exact hnew
        · rcases hk with hk | hbefore
          · exact absurd hk (List.not_mem_cons_of_ne_of_not_mem hne hlater)
          · exact hbefore t₀ hold

/-- Every deed was asked for by the step of a transfer that had the property. -/
theorem exists_step_of_mem_feedAll (hr : Steady R) (hstep : ∀ t, R t → R (t.step fact).1)
    (hf : b.Filed) (h : ∀ k t, b.transfers.get? k = some t → R t) {keys : List TransferKey}
    {d : Deed} (hd : d ∈ deeds (b.feedAll fact keys).2) :
    ∃ t, R t ∧ d ∈ Effect.deeds (t.step fact).2 := by
  have hfeed : ∀ (b : Broker) key, (b.Filed ∧ ∀ k t, b.transfers.get? k = some t → R t) →
      (b.feed fact key).1.Filed ∧ ∀ k t, (b.feed fact key).1.transfers.get? k = some t → R t := by
    rintro b key ⟨hf, h⟩
    refine ⟨feed_filed hf fact key, fun k t ht => ?_⟩
    rcases feed_at hr hstep hf h ht with ⟨-, hnew⟩ | ⟨-, hold⟩
    · exact hnew
    · exact h k t hold
  obtain ⟨b', k, t, ⟨-, h'⟩, ht, hmem⟩ := exists_told_of_mem_deeds hfeed ⟨hf, h⟩ hd
  exact ⟨t, h' k t ht, hmem⟩

end Steady

end Broker

end PaymentNetwork

import PaymentNetwork.Proofs.Broker.Actions

/-!
# The Outgoing Side of a Channel

Our end of a channel, and who hears of a change to it.

Our end changes by messages that we create, and the one who checks them is the partner.
So whatever a broker does to our end has to go out to the partner, or the two would not
agree on the channel from then on. It does: a channel only creates a message together with
the change, the message carries the balance proof that the end holds then, and whoever asked
for it is looked up by the partner's address before.

The other half of a channel is the partner's. On its own a broker does not touch it, and
of the messages of peers only those of the partner do.

## Main definitions

* `Channel.Announced`: Our end is as it was, or the partner is sent what it is now.
* `Channel.Heard`: What a message of a peer made of a channel.
* `NetworkView.Announces`: The same for all channels of a view, and nothing else changed.

## Theorems

* `Channel.create_announces`: What a created message does to its channel.
* `Broker.feedAll_announces`, `Broker.settle_announces`: What transfers do to the channels
  is announced.
* `Broker.stored?_receive`: What a message of a peer does to a stored channel.
-/

namespace PaymentNetwork

namespace Channel

/-- A message that we create comes with the change of our end that it announces, and with
    no other. -/
theorem create_announces {c c' : Channel} (r : ChannelRequest) {m : ChannelMessage}
    (h : c.create r = .ok (m, c')) :
    c' = { c with ours := c'.ours } ∧ c'.ours.proof? = some m.balanceProof := by
  cases r with
  | transfer terms now =>
      rw [create, map_eq_ok_iff] at h
      rcases h with ⟨⟨m, c'⟩, hsend, heq⟩
      cases heq
      obtain ⟨-, -, -, -, rfl, rfl⟩ := sendTransfer_eq_ok_iff.mp hsend
      exact ⟨rfl, rfl⟩
  | unlock paymentId secret =>
      rw [create, map_eq_ok_iff] at h
      rcases h with ⟨x, hsend, heq⟩
      rw [sendUnlock, ite_error_eq_ok_iff] at hsend
      replace hsend := hsend.2
      dsimp only at hsend
      split at hsend
      · cases hsend
      · split at hsend
        · cases hsend
        · cases hsend
          cases heq
          exact ⟨rfl, rfl⟩
  | removal secretHash now =>
      rw [create, map_eq_ok_iff] at h
      rcases h with ⟨x, hsend, heq⟩
      rw [sendRemoval, ite_error_eq_ok_iff] at hsend
      replace hsend := hsend.2
      split at hsend
      · cases hsend
      · rw [ite_error_eq_ok_iff] at hsend
        cases hsend.2
        cases heq
        exact ⟨rfl, rfl⟩

/-- Our end is as it was, or the partner is sent a message with the balance proof that it
    has now. -/
def Announced (actions : List Action) (c c' : Channel) : Prop :=
  c'.ours = c.ours ∨ ∃ message m, Action.send c.partner.address message ∈ actions ∧
    message.channelMessage? = some m ∧ c'.ours.proof? = some m.balanceProof

section Announced

variable {actions later : List Action} {c c' c'' : Channel}

theorem Announced.mono (h : Announced actions c c') (hsub : ∀ a ∈ actions, a ∈ later) :
    Announced later c c' := by
  rcases h with heq | ⟨message, m, hmem, hm, hproof⟩
  · exact Or.inl heq
  · exact Or.inr ⟨message, m, hsub _ hmem, hm, hproof⟩

/-- The message that was sent last has the balance proof. -/
theorem Announced.trans (h : Announced actions c c') (h' : Announced later c' c'')
    (hpartner : c'.partner = c.partner) : Announced (actions ++ later) c c'' := by
  rcases h' with heq | ⟨message, m, hmem, hm, hproof⟩
  · rcases h with heq' | ⟨message, m, hmem, hm, hproof⟩
    · exact Or.inl (heq.trans heq')
    · exact Or.inr ⟨message, m, List.mem_append_left _ hmem, hm, heq ▸ hproof⟩
  · -- The later message is the one that counts.
    rw [hpartner] at hmem
    exact Or.inr ⟨message, m, List.mem_append_right _ hmem, hm, hproof⟩

end Announced

/-- What a message of a sender made of a channel: the partner's end changed if the sender
    is the partner, and ours if the partner is told. -/
structure Heard (sender : Address) (actions : List Action) (c c' : Channel) : Prop where
  frame : c' = { c with ours := c'.ours, partner := c'.partner }
  address : c'.partner.address = c.partner.address
  partner : c.partner.address ≠ sender → c'.partner = c.partner
  announced : Announced actions c c'

end Channel

namespace NetworkView

/-- From one view to another, some of our ends changed, their partners are sent what they
    are now, and nothing else happened to the channels. -/
structure Announces (v : NetworkView) (actions : List Action) (v' : NetworkView) : Prop where
  stored : ∀ tokenNetwork id c, v.stored? tokenNetwork id = some c →
    ∃ c', v'.stored? tokenNetwork id = some c' ∧ c' = { c with ours := c'.ours } ∧
      Channel.Announced actions c c'
  absent : ∀ tokenNetwork id, v.stored? tokenNetwork id = none →
    v'.stored? tokenNetwork id = none

section Announces

variable {v v' v'' : NetworkView} {actions later : List Action}

theorem announces_refl (v : NetworkView) (actions : List Action) : v.Announces actions v where
  stored _ _ c hc := ⟨c, hc, rfl, Or.inl rfl⟩
  absent _ _ h := h

theorem Announces.mono (h : v.Announces actions v') (hsub : ∀ a ∈ actions, a ∈ later) :
    v.Announces later v' where
  stored tokenNetwork id c hc := by
    obtain ⟨c', hc', heq, hannounced⟩ := h.stored tokenNetwork id c hc
    exact ⟨c', hc', heq, hannounced.mono hsub⟩
  absent := h.absent

theorem Announces.trans (h : v.Announces actions v') (h' : v'.Announces later v'') :
    v.Announces (actions ++ later) v'' where
  stored tokenNetwork id c hc := by
    obtain ⟨c', hc', heq, hannounced⟩ := h.stored tokenNetwork id c hc
    obtain ⟨c'', hc'', heq', hannounced'⟩ := h'.stored tokenNetwork id c' hc'
    have hpartner : c'.partner = c.partner := by rw [heq]
    refine ⟨c'', hc'', ?_, hannounced.trans hannounced' hpartner⟩
    rw [heq', heq]
  absent tokenNetwork id hnone := h'.absent tokenNetwork id (h.absent tokenNetwork id hnone)

/-- A channel that creates a message for its partner announces the change. -/
theorem announces_withPartnerChannel {α : Type} {channelId : ChannelId} {recipient : Address}
    {operation : Channel → Except ChannelError (α × Channel)} {a : α} {message : Message}
    {m : ChannelMessage} (hm : message.channelMessage? = some m)
    (hdone : v.withPartnerChannel channelId recipient operation = .ok (a, v'))
    (hcreate : ∀ c c', operation c = .ok (a, c') →
      c' = { c with ours := c'.ours } ∧ c'.ours.proof? = some m.balanceProof) :
    v.Announces [.send recipient message] v' := by
  obtain ⟨tokenNetwork, c, c', hfind, hpartner, hop, rfl⟩ := withPartnerChannel_eq_ok_iff.mp hdone
  obtain ⟨heq, hproof⟩ := hcreate c c' hop
  refine ⟨fun other id d hd => ?_, fun other id hnone => ?_⟩
  · rcases stored?_putChannel_cases hfind c' other id with hsame | ⟨rfl, rfl, hc, hput⟩
    · exact ⟨d, hsame.trans hd, rfl, Or.inl rfl⟩
    · cases hc.symm.trans hd
      refine ⟨c', hput, heq, Or.inr ⟨message, m, ?_, hm, hproof⟩⟩
      rw [hpartner]
      exact List.mem_singleton_self _
  · rcases stored?_putChannel_cases hfind c' other id with hsame | ⟨rfl, rfl, hc, hput⟩
    · exact hsame.trans hnone
    · cases hc.symm.trans hnone

end Announces

end NetworkView

namespace Broker

/-! ### What transfers do to the channels -/

section Announces

variable {α : Type} {view : NetworkView} {b : Broker}

/-- Whoever has a channel build a message announces the change. -/
theorem build_announces {channelId : ChannelId} {recipient : Address}
    {operation : Channel → Except ChannelError (α × Channel)} {message : α → Message}
    {complaint : ChannelError → List Action} (asMessage : α → ChannelMessage)
    (hm : ∀ a, (message a).channelMessage? = some (asMessage a))
    (hcreate : ∀ c a c', operation c = .ok (a, c') →
      c' = { c with ours := c'.ours } ∧ c'.ours.proof? = some (asMessage a).balanceProof) :
    view.Announces (build view channelId recipient operation message complaint).actions
      (build view channelId recipient operation message complaint).view := by
  unfold build
  split
  · rename_i a view' hbuild
    exact NetworkView.announces_withPartnerChannel (hm a) hbuild (fun c c' => hcreate c a c')
  · exact NetworkView.announces_refl view _

theorem perform_announces (view : NetworkView) (block : Height) (e : Effect) :
    view.Announces (perform view block e).actions (perform view block e).view := by
  cases e with
  | sendUnlock recipient channelId paymentId secret secretHash =>
      refine build_announces .unlock (fun _ => rfl) (fun c a c' hop => ?_)
      refine Channel.create_announces (.unlock paymentId secret) ?_
      rw [Channel.create, hop]
      rfl
  | sendLockRemoval recipient channelId secretHash =>
      refine build_announces .removal (fun _ => rfl) (fun c a c' hop => ?_)
      refine Channel.create_announces (.removal secretHash block) ?_
      rw [Channel.create, hop]
      rfl
  | _ => exact NetworkView.announces_refl view _

/-- What is done for a transfer is announced, on the way and in the end. -/
theorem drain_announces (view : NetworkView) (block : Height) (t : Transfer)
    (effects : List Effect) :
    view.Announces (drain view block t effects).2.actions (drain view block t effects).2.view := by
  fun_induction drain view block t effects with
  | case1 view t => exact NetworkView.announces_refl view _
  | case2 view t recipient channelId terms rest m view' hsend t' o hdrain ih =>
      have hfirst : view.Announces [.send recipient (.lockedTransfer m)] view' := by
        refine NetworkView.announces_withPartnerChannel (m := .transfer m) rfl hsend
          (fun c c' hop => ?_)
        refine Channel.create_announces (.transfer terms block) ?_
        rw [Channel.create, hop]
        rfl
      rw [hdrain] at ih
      exact hfirst.trans ih
  | case3 view t recipient channelId terms rest e hsend refusal ih => exact ih
  | case4 view t effect rest hne done t' o hdrain ih =>
      rw [hdrain] at ih
      exact (perform_announces view block effect).trans ih

theorem settle_announces (b : Broker) (t : Transfer) (effects : List Effect) :
    b.view.Announces (b.settle t effects).2 (b.settle t effects).1.view := by
  rw [settle, keep_view]
  exact drain_announces b.view b.block t effects

theorem feed_announces (b : Broker) (fact : Input) (key : TransferKey) :
    b.view.Announces (b.feed fact key).2 (b.feed fact key).1.view := by
  unfold feed
  split
  · exact NetworkView.announces_refl b.view _
  · exact settle_announces b _ _

theorem feedAll_announces (b : Broker) (fact : Input) (keys : List TransferKey) :
    b.view.Announces (b.feedAll fact keys).2 (b.feedAll fact keys).1.view := by
  induction keys generalizing b with
  | nil => exact NetworkView.announces_refl b.view _
  | cons key rest ih => exact (feed_announces b fact key).trans (ih (b.feed fact key).1)

end Announces

/-! ### What a message of a peer does to the channels -/

/-- Whatever the transfers make of a message is announced. -/
theorem reaction_announces (b : Broker) (sender : Address) (m : Message) :
    (b.reaction (.message sender m)).base.view.Announces (b.react (.message sender m)).2
      (b.after (.message sender m)).view := by
  obtain ⟨asides, hactions, -⟩ := b.react_actions (.message sender m)
  rw [hactions, after_eq]
  refine NetworkView.Announces.mono ?_ (fun a ha => List.mem_append_right _ ha)
  cases hreaction : b.reaction (.message sender m) with
  | tell b' fact keys =>
      -- A message is no block, so nothing is left to do when it was told.
      cases fact with
      | block number => cases ((tell_of_reaction hreaction).news number rfl).1
      | _ => exact (feedAll_announces b' _ keys).mono (fun a ha => List.mem_append_left _ ha)
  | start b' t effects => exact settle_announces b' t effects
  | rest b' => exact NetworkView.announces_refl b'.view _

section Heard

variable {log : List Offer} {b : Broker} {tokenNetwork : Address} {id : ChannelId} {c : Channel}

/-- Before the transfers are concerned, a message of a peer changes the partner's end of a
    channel with that peer, and nothing else. -/
theorem stored?_base (h : b.Logged log) (sender : Address) (m : Message)
    (hc : b.view.stored? tokenNetwork id = some c) :
    ∃ c', (b.reaction (.message sender m)).base.view.stored? tokenNetwork id = some c' ∧
      c' = { c with partner := c'.partner } ∧ c'.partner.address = c.partner.address ∧
      (c.partner.address ≠ sender → c'.partner = c.partner) := by
  rcases b.base_view_cases (.message sender m) with
    heq | ⟨e, he, -⟩ | ⟨accepted, network, d, d', haccepts, heq⟩
  · rw [heq]
    exact ⟨c, hc, rfl, rfl, fun _ => rfl⟩
  · cases he
  · rw [heq]
    rcases NetworkView.stored?_putChannel_cases haccepts.found d' tokenNetwork id with
      hsame | ⟨rfl, rfl, hd, hput⟩
    · exact ⟨c, hsame.trans hc, rfl, rfl, fun _ => rfl⟩
    · cases hc.symm.trans hd
      have hsound := (h.channels _ c (NetworkView.channel?_of_find? haccepts.found)).sound
      obtain ⟨-, -, -, change, -, -, rfl⟩ :=
        (Channel.accept_eq_ok_iff (hsound .partner)).mp haccepts.accepted
      refine ⟨_, hput, rfl, ChannelEnd.recommit_address, fun hne => absurd ?_ hne⟩
      -- A channel only accepts what its partner sent.
      obtain ⟨message, hmessage, -⟩ := haccepts.sent
      cases hmessage
      rfl

/-- A message of a peer changes a stored channel in two places at most. The partner's end
    changes if the partner is that peer, and ours if the partner is told. -/
theorem stored?_receive (h : b.Logged log) (sender : Address) (m : Message)
    (hc : b.view.stored? tokenNetwork id = some c) :
    ∃ c', (b.after (.message sender m)).view.stored? tokenNetwork id = some c' ∧
      Channel.Heard sender (b.react (.message sender m)).2 c c' := by
  obtain ⟨c₁, hc₁, heq₁, haddress, hpartner⟩ := stored?_base h sender m hc
  obtain ⟨c', hc', heq, hannounced⟩ := (b.reaction_announces sender m).stored _ _ c₁ hc₁
  have hends : c'.partner = c₁.partner := by rw [heq]
  have hours : c₁.ours = c.ours := by rw [heq₁]
  refine ⟨c', hc', ⟨?_, ?_, fun hne => ?_, ?_⟩⟩
  · rw [hends, heq, heq₁]
  · rw [hends, haddress]
  · rw [hends, hpartner hne]
  · rw [Channel.Announced, hours, haddress] at hannounced
    exact hannounced

/-- No message of a peer adds a channel. -/
theorem stored?_receive_none (b : Broker) (sender : Address) (m : Message)
    (hnone : b.view.stored? tokenNetwork id = none) :
    (b.after (.message sender m)).view.stored? tokenNetwork id = none := by
  refine (b.reaction_announces sender m).absent _ _ ?_
  rcases b.base_view_cases (.message sender m) with
    heq | ⟨e, he, -⟩ | ⟨accepted, network, d, d', haccepts, heq⟩
  · rw [heq]
    exact hnone
  · cases he
  · rw [heq]
    rcases NetworkView.stored?_putChannel_cases haccepts.found d' tokenNetwork id with
      hsame | ⟨rfl, rfl, hd, -⟩
    · exact hsame.trans hnone
    · cases hnone.symm.trans hd

end Heard

end Broker

end PaymentNetwork

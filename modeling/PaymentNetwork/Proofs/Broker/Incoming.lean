import PaymentNetwork.Proofs.Broker.Settlement

/-!
# The Incoming Side of a Channel

What a channel holds for payments to us, and who changes it.

A lock that a peer offered lies at the peer's end of a channel. Nothing that a
broker does on its own touches that end: the messages it creates are about our end.
What changes the partner's end is a message of the partner that the channel accepts,
or an event of the ledger, and an input brings at most one of the two.

Channels are looked up here where they are stored, under the network and the
identifier together. A lookup by identifier alone finds the latest channel that was
opened under it, and an older one in another network is hidden then. Hidden or not, it
is still there, and the transfers that began in it go on.

## Main definitions

* `Channel.incoming`, `NetworkView.SameIncoming`: What a channel holds for payments to
  us, and views that agree on it.
* `NetworkView.Creates`: What a broker does on its own to a view.
* `NetworkView.Housed`: Every channel names the network that it is stored in.
* `Broker.Accepts`: A channel accepts the message that an input brings.
* `BrokerInput.unlocksOnChain`: The ledger reports that a lock was unlocked there.
* `Transfer.Anchored`: The channel that a transfer began in is still there.
* `Transfer.ComesFrom`: Where a transfer in progress comes from.
* `Broker.Grounded`: All of this, for every channel and every transfer.

## Theorems

* `Broker.view_after_creates`: What an input does to the view.
* `Broker.view_after_cases`: An input leaves the incoming sides alone, or a channel
  accepts it, or it is an event.
* `Broker.stored?_after`: What an input does to the partner's end of a stored channel.
* `Broker.pending_after`: How a lock of the partner stops to be pending.
* `Broker.after_comesFrom`: What is in progress was so before, or was just offered.
* `Broker.run_grounded`: After any inputs every transfer still has its channel.
-/

namespace PaymentNetwork

/-- What a channel holds for payments to us: its network and the partner's end. -/
def Channel.incoming (c : Channel) : Address × ChannelEnd := (c.tokenNetwork, c.partner)

/-- A message that we create is about our own end. -/
theorem Channel.create_ours {c c' : Channel} {r : ChannelRequest} {m : ChannelMessage}
    (h : c.create r = .ok (m, c')) : ∃ e, c' = { c with ours := e } := by
  cases r with
  | transfer terms now =>
      rw [create, map_eq_ok_iff] at h
      rcases h with ⟨⟨m, c'⟩, hsend, heq⟩
      cases heq
      obtain ⟨-, -, -, -, rfl, rfl⟩ := sendTransfer_eq_ok_iff.mp hsend
      exact ⟨_, rfl⟩
  | unlock paymentId secret =>
      rw [create, map_eq_ok_iff] at h
      rcases h with ⟨x, hsend, heq⟩
      rw [sendUnlock, ite_error_eq_ok_iff] at hsend
      replace hsend := hsend.2
      dsimp only at hsend
      split at hsend
      · cases hsend
      · split at hsend
        · cases hsend
        · cases hsend
          cases heq
          exact ⟨_, rfl⟩
  | removal secretHash now =>
      rw [create, map_eq_ok_iff] at h
      rcases h with ⟨x, hsend, heq⟩
      rw [sendRemoval, ite_error_eq_ok_iff] at hsend
      replace hsend := hsend.2
      split at hsend
      · cases hsend
      · rw [ite_error_eq_ok_iff] at hsend
        cases hsend.2
        cases heq
        exact ⟨_, rfl⟩

theorem Channel.create_incoming {c c' : Channel} {r : ChannelRequest} {m : ChannelMessage}
    (h : c.create r = .ok (m, c')) : c'.incoming = c.incoming := by
  obtain ⟨e, rfl⟩ := create_ours h
  rfl

namespace NetworkView

/-! ### Views that agree on the incoming sides -/

/-- The views store the same channels, and these hold the same for payments to us. -/
def SameIncoming (v v' : NetworkView) : Prop :=
  ∀ tokenNetwork id, (v'.stored? tokenNetwork id).map Channel.incoming
    = (v.stored? tokenNetwork id).map Channel.incoming

theorem SameIncoming.refl (v : NetworkView) : v.SameIncoming v := fun _ _ => rfl

theorem SameIncoming.trans {v v' v'' : NetworkView} (h : v.SameIncoming v')
    (h' : v'.SameIncoming v'') : v.SameIncoming v'' :=
  fun tokenNetwork id => (h' tokenNetwork id).trans (h tokenNetwork id)

theorem SameIncoming.symm {v v' : NetworkView} (h : v.SameIncoming v') : v'.SameIncoming v :=
  fun tokenNetwork id => (h tokenNetwork id).symm

theorem SameIncoming.stored? {v v' : NetworkView} (h : v.SameIncoming v') {tokenNetwork : Address}
    {id : ChannelId} {c : Channel} (hc : v.stored? tokenNetwork id = some c) :
    ∃ c', v'.stored? tokenNetwork id = some c' ∧ c'.tokenNetwork = c.tokenNetwork ∧
      c'.partner = c.partner := by
  have hsame := h tokenNetwork id
  rw [hc, Option.map_some, Option.map_eq_some_iff] at hsame
  rcases hsame with ⟨c', hc', heq⟩
  exact ⟨c', hc', congrArg Prod.fst heq, congrArg Prod.snd heq⟩

theorem sameIncoming_putChannel {v : NetworkView} {tokenNetwork : Address} {channelId : ChannelId}
    {c c' : Channel} (hfind : v.find? channelId = some (tokenNetwork, c))
    (h : c'.incoming = c.incoming) : v.SameIncoming (v.putChannel tokenNetwork channelId c') := by
  intro other id
  rcases stored?_putChannel_cases hfind c' other id with heq | ⟨-, -, hc, heq⟩
  · rw [heq]
  · rw [heq, hc, Option.map_some, Option.map_some, h]

/-! ### Messages that are created -/

/-- One view comes from another one in that channels create messages. -/
inductive Creates (v : NetworkView) : NetworkView → Prop where
  | refl : v.Creates v
  | create {v' : NetworkView} {tokenNetwork : Address} {channelId : ChannelId} {c c' : Channel}
      {r : ChannelRequest} {m : ChannelMessage} (before : v.Creates v')
      (found : v'.find? channelId = some (tokenNetwork, c))
      (created : c.create r = .ok (m, c')) :
      v.Creates (v'.putChannel tokenNetwork channelId c')

theorem Creates.trans {v v' v'' : NetworkView} (h : v.Creates v') (h' : v'.Creates v'') :
    v.Creates v'' := by
  induction h' with
  | refl => exact h
  | create _ found created ih => exact .create ih found created

theorem creates_withPartnerChannel {α : Type} {v v' : NetworkView} {channelId : ChannelId}
    {partner : Address} {operation : Channel → Except ChannelError (α × Channel)} {a : α}
    (hop : v.withPartnerChannel channelId partner operation = .ok (a, v'))
    (h : ∀ c c', operation c = .ok (a, c') → ∃ r m, c.create r = .ok (m, c')) : v.Creates v' := by
  rcases withPartnerChannel_eq_ok_iff.mp hop with ⟨tokenNetwork, c, c', hfind, -, hc, rfl⟩
  obtain ⟨r, m, hcreate⟩ := h c c' hc
  exact .create .refl hfind hcreate

theorem Creates.sameIncoming {v v' : NetworkView} (h : v.Creates v') : v.SameIncoming v' := by
  induction h with
  | refl => exact .refl v
  | create _ found created ih =>
      exact ih.trans (sameIncoming_putChannel found (Channel.create_incoming created))

/-! ### Channels and their networks -/

/-- Every channel names the network that it is stored in. -/
def Housed (v : NetworkView) : Prop :=
  ∀ tokenNetwork id c, v.stored? tokenNetwork id = some c → c.tokenNetwork = tokenNetwork

theorem housed_fresh (ourAddress : Address) (revealTimeout : Height) :
    (fresh ourAddress revealTimeout).Housed := by
  intro tokenNetwork id c hc
  cases hc

theorem Housed.congr {v v' : NetworkView} (h : v.Housed) (hsame : v.SameIncoming v') :
    v'.Housed := by
  intro tokenNetwork id c hc
  rcases hsame.symm.stored? hc with ⟨c', hc', hnetwork, -⟩
  rw [← hnetwork]
  exact h tokenNetwork id c' hc'

theorem Housed.putChannel {v : NetworkView} (h : v.Housed) {tokenNetwork : Address}
    {channelId : ChannelId} {c c' : Channel} (hfind : v.find? channelId = some (tokenNetwork, c))
    (heq : c'.tokenNetwork = c.tokenNetwork) : (v.putChannel tokenNetwork channelId c').Housed := by
  intro other id d hd
  rcases stored?_putChannel_cases hfind c' other id with hsame | ⟨rfl, rfl, hc, hput⟩
  · exact h other id d (hsame ▸ hd)
  · rw [hput, Option.some.injEq] at hd
    rw [← hd, heq]
    exact h _ _ c hc

theorem Housed.apply {v : NetworkView} (h : v.Housed) (e : ChainEvent) : (v.apply e).Housed := by
  intro tokenNetwork id d hd
  rcases stored?_apply v e tokenNetwork id with
    hsame | ⟨c, hc, heq⟩ | ⟨-, c, heq, hnetwork, -⟩
  · exact h tokenNetwork id d (hsame ▸ hd)
  · rw [heq, Option.some.injEq] at hd
    rw [← hd, Channel.applyEvent_tokenNetwork]
    exact h tokenNetwork id c hc
  · rw [heq, Option.some.injEq] at hd
    rwa [← hd]

end NetworkView

namespace Broker

/-! ### What a broker does on its own -/

theorem build_creates (view : NetworkView) {α : Type} {channelId : ChannelId}
    {recipient : Address} {operation : Channel → Except ChannelError (α × Channel)}
    (message : α → Message) (complaint : ChannelError → List Action)
    (hop : ∀ c a c', operation c = .ok (a, c') → ∃ r m, c.create r = .ok (m, c')) :
    view.Creates (build view channelId recipient operation message complaint).view := by
  unfold build
  split
  · rename_i m view' hbuild
    exact NetworkView.creates_withPartnerChannel hbuild (fun c c' hc => hop c m c' hc)
  · exact .refl

theorem create_of_sendRemoval (secretHash : SecretHash) (block : Height) (c : Channel)
    (m : LockRemoval) (c' : Channel) (hop : c.sendRemoval secretHash block = .ok (m, c')) :
    ∃ r m', c.create r = .ok (m', c') :=
  ⟨.removal secretHash block, .removal m, by rw [Channel.create, hop]; rfl⟩

theorem perform_creates (view : NetworkView) (block : Height) (e : Effect) :
    view.Creates (perform view block e).view := by
  cases e with
  | sendUnlock recipient channelId paymentId secret secretHash =>
      refine build_creates view _ _ (fun c m c' hop => ⟨.unlock paymentId secret, .unlock m, ?_⟩)
      rw [Channel.create, hop]
      rfl
  | sendLockRemoval recipient channelId secretHash =>
      exact build_creates view _ _ (create_of_sendRemoval secretHash block)
  | _ => exact .refl

theorem drain_creates (view : NetworkView) (block : Height) (t : Transfer)
    (effects : List Effect) : view.Creates (drain view block t effects).2.view := by
  fun_induction drain view block t effects with
  | case1 view t => exact .refl
  -- The channel created the locked transfer.
  | case2 view t recipient channelId terms rest m view' hsend t' o hdrain ih =>
      have hview : view.Creates view' := by
        refine NetworkView.creates_withPartnerChannel hsend
          (fun c c' hop => ⟨.transfer terms block, .transfer m, ?_⟩)
        rw [Channel.create, hop]
        rfl
      rw [hdrain] at ih
      exact hview.trans ih
  -- The channel refused it, and the transfer reacts to that.
  | case3 view t recipient channelId terms rest e hsend refusal ih => exact ih
  -- Any other effect asks a channel for a message, or for none.
  | case4 view t effect rest hne done t' o hdrain ih =>
      rw [hdrain] at ih
      exact (perform_creates view block effect).trans ih

theorem settle_creates (b : Broker) (t : Transfer) (effects : List Effect) :
    b.view.Creates (b.settle t effects).1.view := by
  rw [settle, keep_view]
  exact drain_creates b.view b.block t effects

theorem begin?_creates (b : Broker) {t : Transfer} {effects : List Effect}
    {r : Broker × List Action} (hb : b.begin? t effects = .ok r) :
    b.view.Creates r.1.view := by
  rw [begin?, ite_error_eq_ok_iff, Except.ok.injEq] at hb
  rw [← hb.2]
  exact settle_creates b t effects

theorem feed_creates (b : Broker) (i : Input) (key : TransferKey) :
    b.view.Creates (b.feed i key).1.view := by
  unfold feed
  split
  · exact .refl
  · exact settle_creates b _ _

theorem feedAll_creates (b : Broker) (i : Input) (keys : List TransferKey) :
    b.view.Creates (b.feedAll i keys).1.view := by
  induction keys generalizing b with
  | nil => exact .refl
  | cons key rest ih => exact (feed_creates b i key).trans (ih (b.feed i key).1)

theorem removeLocks_creates (view : NetworkView) (block : Height)
    (locks : List NetworkView.SentLock) :
    view.Creates (removeLocks view block locks).view := by
  induction locks generalizing view with
  | nil => exact .refl
  | cons l rest ih =>
      exact (build_creates view _ _ (create_of_sendRemoval l.secretHash block)).trans (ih _)

theorem advanceInOrder_creates (b : Broker) (block : Height) (order : List TransferKey) :
    b.view.Creates (b.advanceInOrder block order).1.view := by
  unfold advanceInOrder
  split
  · exact .refl
  · exact (feedAll_creates { b with block := block } (.block block) order).trans
      (removeLocks_creates _ block _)

theorem advanceInOrder_sameIncoming (b : Broker) (block : Height) (order : List TransferKey) :
    b.view.SameIncoming (b.advanceInOrder block order).1.view :=
  (advanceInOrder_creates b block order).sameIncoming

theorem observe_creates (b : Broker) (e : ChainEvent) :
    b.view.Creates (b.observe e).1.view := by
  cases e with
  | secretRegistered => exact feedAll_creates b _ _
  | channelClosed => exact feedAll_creates b _ _
  | _ => exact .refl

end Broker

namespace BrokerInput

/-- Does the ledger report that a lock was unlocked there? -/
def unlocksOnChain : BrokerInput → Bool
  | chain (.channelUnlocked ..) => true
  | _ => false

theorem unlocksOnChain_of_endChange? {e : ChainEvent} {participant : Address}
    {secretHash : SecretHash} (h : e.endChange? = some (participant, .removeLock secretHash)) :
    (chain e).unlocksOnChain = true := by
  cases e with
  | channelUnlocked => rfl
  | _ => cases h

end BrokerInput

namespace Broker

/-! ### What an input brings -/

/-- The input is a message of the partner that its channel accepts. -/
structure Accepts (b : Broker) (i : BrokerInput) (m : ChannelMessage) (tokenNetwork : Address)
    (c c' : Channel) : Prop where
  sent : ∃ message, i = .message c.partner.address message ∧ message.channelMessage? = some m
  found : b.view.find? m.balanceProof.channelId = some (tokenNetwork, c)
  accepted : c.accept m b.block = .ok c'

/-- An offer that its channel files changes this channel. -/
theorem view_after_lockedTransfer {b : Broker} {sender : Address} {m : LockedTransfer}
    {tokenNetwork : Address} {c c' : Channel} (hsender : m.sender = sender)
    (hrecipient : m.recipient = b.view.ourAddress)
    (hfind : b.view.find? m.balanceProof.channelId = some (tokenNetwork, c))
    (hpartner : c.partner.address = sender) (hop : c.receiveTransfer m b.block = .ok c') :
    (b.view.putChannel tokenNetwork m.balanceProof.channelId c').Creates
      (b.after (.message sender (.lockedTransfer m))).view := by
  rw [Broker.after, react, receive,
    receiveTransfer_of_ok hsender hrecipient hfind hpartner hop rfl]
  split
  · exact .refl
  · exact settle_creates
      { b with view := b.view.putChannel tokenNetwork m.balanceProof.channelId c' } _ _

/-- Channels create messages because of an input, after one of them accepted it, if one does,
    or after an event of the ledger, if it is one. -/
theorem view_after_creates (b : Broker) (i : BrokerInput) :
    b.view.Creates (b.after i).view ∨
    (∃ m tokenNetwork c c', b.Accepts i m tokenNetwork c c' ∧
      (b.view.putChannel tokenNetwork m.balanceProof.channelId c').Creates
        (b.after i).view) ∨
    (∃ e, i = .chain e ∧ (b.view.apply e).Creates (b.after i).view) := by
  cases i with
  | pay terms =>
      refine Or.inl ?_
      rw [Broker.after, react, Broker.pay]
      split
      · rename_i r hpay
        exact begin?_creates b hpay
      · exact .refl
  | message sender m =>
      cases m with
      | lockedTransfer m =>
          rcases receiveTransfer_cases b sender m with
            heq | ⟨tokenNetwork, c, c', hsender, hrecipient, hfind, hpartner, hop⟩
          · refine Or.inl ?_
            rw [Broker.after, react, receive, heq]
            exact .refl
          · exact Or.inr (Or.inl ⟨.transfer m, tokenNetwork, c, c',
              ⟨⟨.lockedTransfer m, by rw [hpartner], rfl⟩, hfind, hop⟩,
              view_after_lockedTransfer hsender hrecipient hfind hpartner hop⟩)
      | unlock m =>
          rcases receiveProof_cases b sender "unlock" m.balanceProof.channelId
            (hashSecret m.secret) (.unlock m) (·.receiveUnlock m) with
            ⟨heq, -⟩ | ⟨tokenNetwork, c, c', hfind, hpartner, hop, heq⟩
          · refine Or.inl ?_
            rw [Broker.after, react, receive, heq]
            exact .refl
          · refine Or.inr (Or.inl ⟨.unlock m, tokenNetwork, c, c',
              ⟨⟨.unlock m, by rw [hpartner], rfl⟩, hfind, hop⟩, ?_⟩)
            rw [Broker.after, react, receive, heq]
            exact feedAll_creates { b with
              view := b.view.putChannel tokenNetwork m.balanceProof.channelId c' } _ _
      | lockRemoval m =>
          rcases receiveProof_cases b sender "expired lock removal" m.balanceProof.channelId
            m.secretHash (.removal m) (·.receiveRemoval m b.block) with
            ⟨heq, -⟩ | ⟨tokenNetwork, c, c', hfind, hpartner, hop, heq⟩
          · refine Or.inl ?_
            rw [Broker.after, react, receive, heq]
            exact .refl
          · refine Or.inr (Or.inl ⟨.removal m, tokenNetwork, c, c',
              ⟨⟨.lockRemoval m, by rw [hpartner], rfl⟩, hfind, hop⟩, ?_⟩)
            rw [Broker.after, react, receive, heq]
            exact feedAll_creates { b with
              view := b.view.putChannel tokenNetwork m.balanceProof.channelId c' } _ _
      -- The other messages are only for transfers.
      | secretRequest m => exact Or.inl (feedAll_creates b _ _)
      | secretReveal m => exact Or.inl (feedAll_creates b _ _)
      | disposal m => exact Or.inl (feedAll_creates b _ _)
  | block number order => exact Or.inl (advanceInOrder_creates b number order)
  | chain e =>
      exact Or.inr (Or.inr ⟨e, rfl, observe_creates { b with view := b.view.apply e } e⟩)

/-- An input leaves the incoming sides alone, or a channel accepts it, or it is an
    event of the ledger. -/
theorem view_after_cases (b : Broker) (i : BrokerInput) :
    b.view.SameIncoming (b.after i).view ∨
    (∃ m tokenNetwork c c', b.Accepts i m tokenNetwork c c' ∧
      (b.view.putChannel tokenNetwork m.balanceProof.channelId c').SameIncoming
        (b.after i).view) ∨
    (∃ e, i = .chain e ∧ (b.view.apply e).SameIncoming (b.after i).view) := by
  rcases b.view_after_creates i with
    hcreates | ⟨m, tokenNetwork, c, c', haccepts, hcreates⟩ | ⟨e, he, hcreates⟩
  · exact Or.inl hcreates.sameIncoming
  · exact Or.inr (Or.inl ⟨m, tokenNetwork, c, c', haccepts, hcreates.sameIncoming⟩)
  · exact Or.inr (Or.inr ⟨e, he, hcreates.sameIncoming⟩)

section Stored

variable {log : List Offer} {b : Broker} {tokenNetwork : Address} {id : ChannelId} {c : Channel}

/-- What an input does to the partner's end of a stored channel: nothing, the change
    that a message of the partner shows, or what the ledger says. -/
theorem stored?_after (h : b.Logged log) (i : BrokerInput)
    (hc : b.view.stored? tokenNetwork id = some c) :
    ∃ c', (b.after i).view.stored? tokenNetwork id = some c' ∧
      (c'.partner = c.partner ∨
      (∃ m c'' change, b.Accepts i m tokenNetwork c c'' ∧ m.balanceProof.channelId = id ∧
        m.Timely c.partner b.block ∧ m.Shows change ∧
        c.partner.Recommits c.id c.tokenNetwork c.ours change m.balanceProof ∧
        c'.partner = c.partner.recommit change m.balanceProof) ∨
      (∃ e change, i = .chain e ∧ e.endChange? = some (c.partner.address, change) ∧
        c'.partner = c.partner.apply change)) := by
  rcases view_after_cases b i with hsame | ⟨m, network, d, d', haccepts, hsame⟩ | ⟨e, rfl, hsame⟩
  · rcases hsame.stored? hc with ⟨c', hc', -, hpartner⟩
    exact ⟨c', hc', Or.inl hpartner⟩
  · rcases NetworkView.stored?_putChannel_cases haccepts.found d' tokenNetwork id with
      heq | ⟨rfl, rfl, hd, heq⟩
    · rcases hsame.stored? (heq.trans hc) with ⟨c', hc', -, hpartner⟩
      exact ⟨c', hc', Or.inl hpartner⟩
    · cases hc.symm.trans hd
      have hsound := (h.channels _ c (NetworkView.channel?_of_find? haccepts.found)).sound
      rcases (Channel.accept_eq_ok_iff (hsound .partner)).mp haccepts.accepted with
        ⟨-, htimely, -, change, hshows, hrecommits, rfl⟩
      rcases hsame.stored? heq with ⟨c', hc', -, hpartner⟩
      exact ⟨c', hc', Or.inr (Or.inl ⟨m, _, change, haccepts, rfl, htimely, hshows, hrecommits,
        hpartner⟩)⟩
  · rcases NetworkView.stored?_apply b.view e tokenNetwork id with heq | ⟨d, hd, heq⟩ | ⟨hnone, -⟩
    · rcases hsame.stored? (heq.trans hc) with ⟨c', hc', -, hpartner⟩
      exact ⟨c', hc', Or.inl hpartner⟩
    · cases hc.symm.trans hd
      rcases hsame.stored? heq with ⟨c', hc', -, hpartner⟩
      rcases Channel.applyEvent_endOf c e .partner with hend | ⟨change, -, he, hend⟩
      · exact ⟨c', hc', Or.inl (hpartner.trans hend)⟩
      · exact ⟨c', hc', Or.inr (Or.inr ⟨e, change, rfl, he, hpartner.trans hend⟩)⟩
    · rw [hnone] at hc
      cases hc

/-- The partner of a stored channel is always the same. -/
theorem address_after (h : b.Logged log) (i : BrokerInput)
    (hc : b.view.stored? tokenNetwork id = some c) :
    ∃ c', (b.after i).view.stored? tokenNetwork id = some c' ∧
      c'.partner.address = c.partner.address := by
  rcases stored?_after h i hc with ⟨c', hc', hend⟩
  refine ⟨c', hc', ?_⟩
  rcases hend with heq | ⟨m, c'', change, -, -, -, -, -, heq⟩ | ⟨e, change, -, he, heq⟩
  · rw [heq]
  · rw [heq, ChannelEnd.recommit_address]
  · rw [heq]
    rcases ChainEvent.endChange?_cases he with ⟨total, rfl⟩ | ⟨total, rfl⟩ | ⟨k, rfl⟩
    · rfl
    · rfl
    · rfl

/-- A pending lock of the partner stays pending, or the partner unlocks it, or takes it
    back when it has expired, or the ledger unlocks it. -/
theorem pending_after (h : b.Logged log) (i : BrokerInput)
    (hc : b.view.stored? tokenNetwork id = some c) {secretHash : SecretHash} {l : Lock}
    (hl : c.partner.pendingLocks.get? secretHash = some l) :
    ∃ c', (b.after i).view.stored? tokenNetwork id = some c' ∧
      c'.partner.address = c.partner.address ∧
      (c'.partner.pendingLocks.get? secretHash = some l ∨
      (∃ u c'', b.Accepts i (.unlock u) tokenNetwork c c'' ∧ u.balanceProof.channelId = id ∧
        hashSecret u.secret = secretHash) ∨
      l.expiration ≤ b.block ∨ i.unlocksOnChain = true) := by
  rcases stored?_after h i hc with ⟨c', hc', hend⟩
  refine ⟨c', hc', ?_⟩
  rcases hend with heq | ⟨m, c'', change, haccepts, hid, htimely, hshows, hrecommits, heq⟩ |
    ⟨e, change, rfl, he, heq⟩
  · rw [heq]
    exact ⟨rfl, Or.inl hl⟩
  · have hallowed := hrecommits.allowed
    rw [heq, ChannelEnd.recommit_address]
    refine ⟨rfl, ?_⟩
    cases change with
    -- A new lock has a hash of its own.
    | added l' =>
        have hne : secretHash ≠ l'.secretHash := by
          rintro rfl
          rw [hallowed.1] at hl
          cases hl
        exact Or.inl ((SortedMap.get?_insert_of_ne hne).trans hl)
    -- The lock itself can leave in two ways, and each belongs to one kind of message.
    | claimed l' =>
        by_cases hhash : secretHash = l'.secretHash
        · cases m with
          | unlock u => exact Or.inr (Or.inl ⟨u, c'', haccepts, hid, hshows.trans hhash.symm⟩)
          | transfer m => exact hshows.elim
          | removal m => exact hshows.elim
        · exact Or.inl ((SortedMap.get?_erase_of_ne hhash).trans hl)
    | removed l' =>
        by_cases hhash : secretHash = l'.secretHash
        · cases m with
          | removal m =>
              have hsame : m.secretHash = secretHash := hshows.trans hhash.symm
              exact Or.inr (Or.inr (Or.inl (htimely l (hsame ▸ hl))))
          | transfer m => exact hshows.elim
          | unlock u => exact hshows.elim
        · exact Or.inl ((SortedMap.get?_erase_of_ne hhash).trans hl)
  · rw [heq]
    rcases ChainEvent.endChange?_cases he with ⟨total, rfl⟩ | ⟨total, rfl⟩ | ⟨k, rfl⟩
    · exact ⟨rfl, Or.inl hl⟩
    · exact ⟨rfl, Or.inl hl⟩
    · exact ⟨rfl, Or.inr (Or.inr (Or.inr (BrokerInput.unlocksOnChain_of_endChange? he)))⟩

/-- An input keeps the channels with their networks. -/
theorem after_housed (h : b.Logged log) (hhoused : b.view.Housed) (i : BrokerInput) :
    (b.after i).view.Housed := by
  rcases view_after_cases b i with hsame | ⟨m, network, d, d', haccepts, hsame⟩ | ⟨e, rfl, hsame⟩
  · exact hhoused.congr hsame
  · have hsound := (h.channels _ d (NetworkView.channel?_of_find? haccepts.found)).sound
    rcases (Channel.accept_eq_ok_iff (hsound .partner)).mp haccepts.accepted with
      ⟨-, -, -, change, -, -, rfl⟩
    refine NetworkView.Housed.congr ?_ hsame
    exact hhoused.putChannel haccepts.found rfl
  · exact (hhoused.apply e).congr hsame

end Stored

end Broker

/-! ### Transfers and their channels -/

namespace Transfer

/-- The channel that the transfer began in is stored, and the one who offered the lock
    is the partner there. -/
def Anchored (v : NetworkView) (t : Transfer) : Prop :=
  ∀ o, t.offer? = some o →
    ∃ c, v.stored? t.tokenNetwork o.channelId = some c ∧ c.partner.address = o.sender

/-- A transfer that is in progress after an input was so before, or the input offered
    its lock and the channel that accepts it files the lock. -/
def ComesFrom (b : Broker) (i : BrokerInput) (t : Transfer) : Prop :=
  ∀ o, t.offer? = some o →
    (∃ t₀, b.transfers.get? t.key = some t₀ ∧ t₀.offer? = some o ∧
      t₀.tokenNetwork = t.tokenNetwork) ∨
    (∃ m tokenNetwork c c', b.Accepts i (.transfer m) tokenNetwork c c' ∧
      o = ⟨c.partner.address, m.balanceProof.channelId, m.lock⟩ ∧
      t.tokenNetwork = m.balanceProof.tokenNetwork ∧
      (b.view.putChannel tokenNetwork m.balanceProof.channelId c').SameIncoming (b.after i).view)

end Transfer

namespace Broker

theorem beginOffered_tokenNetwork (view : NetworkView) (block : Height) (payerRoute : Route)
    (m : LockedTransfer) :
    (beginOffered view block payerRoute m).1.tokenNetwork = m.balanceProof.tokenNetwork := by
  unfold beginOffered
  split
  · unfold Target.start
    dsimp only
    split
    · rfl
    · rfl
  · unfold Mediator.start
    exact congrArg TransferTerms.tokenNetwork (Mediator.tryNextRoute_sameDeal _).received

section Anchored

variable {log : List Offer} {b : Broker}

theorem closed_comesFrom (b : Broker) (i : BrokerInput) :
    Closed (fun _ _ => True) (Transfer.ComesFrom b i) where
  create _ _ _ _ _ _ _ := trivial
  step t j h o ho := by
    rw [Transfer.step_offer?] at ho
    rw [Transfer.step_key, Transfer.step_tokenNetwork]
    exact h o ho

/-- What is in progress after an input was so before, or the input offered it. -/
theorem after_comesFrom (h : b.Logged log) (i : BrokerInput) {k : TransferKey} {t : Transfer}
    (ht : (b.after i).transfers.get? k = some t) : t.ComesFrom b i := by
  have hbefore : Holds (fun _ _ => True) (Transfer.ComesFrom b i) b := by
    refine ⟨fun _ _ _ => trivial, h.filed, h.inProgress, fun k t ht o ho => ?_⟩
    rw [← h.filed k t ht] at ht
    exact Or.inl ⟨t, ht, ho, rfl⟩
  refine (hbefore.after (closed_comesFrom b i) ?_).transfers k t ht
  refine ⟨?_, fun _ _ _ _ _ _ _ _ _ _ _ => trivial, ?_, fun _ _ _ _ _ _ _ _ _ => trivial,
    fun _ _ _ _ _ => trivial⟩
  · intro terms hi o ho
    cases ho
  · intro sender m view c c' hi hto hc hpartner hop o ho
    subst hi
    have hlogged := h.channels _ c hc
    have hop' : c.accept (.transfer m) b.block = .ok c' := hop
    rcases (Channel.accept_eq_ok_iff (hlogged.sound .partner)).mp hop' with
      ⟨-, -, -, change, -, -, rfl⟩
    rcases NetworkView.find?_of_channel? hc with ⟨tokenNetwork, hfind⟩
    rw [beginOffered_offer?, Option.some.injEq] at ho
    have hnode : (c.partner.recommit change m.balanceProof).address = c.partner.address :=
      ChannelEnd.recommit_address
    refine Or.inr ⟨m, tokenNetwork, c, _, ⟨⟨_, by rw [hpartner], rfl⟩, hfind, hop⟩, ?_,
      beginOffered_tokenNetwork view b.block _ m,
      (view_after_lockedTransfer hto.1 hto.2 hfind hpartner hop).sameIncoming⟩
    rw [← ho, Offer.mk.injEq]
    exact ⟨hnode, hlogged.id_eq, rfl⟩

/-- An accepted message names the network that its channel is stored in. -/
theorem Accepts.tokenNetwork_eq (h : b.Logged log) (hhoused : b.view.Housed) {i : BrokerInput}
    {m : ChannelMessage} {tokenNetwork : Address} {c c' : Channel}
    (haccepts : b.Accepts i m tokenNetwork c c') : m.balanceProof.tokenNetwork = tokenNetwork := by
  have hsound := (h.channels _ c (NetworkView.channel?_of_find? haccepts.found)).sound
  rcases (Channel.accept_eq_ok_iff (hsound .partner)).mp haccepts.accepted with
    ⟨-, -, -, change, -, hrecommits, -⟩
  rw [hrecommits.tokenNetwork_eq]
  exact hhoused tokenNetwork _ c (NetworkView.stored?_of_find? haccepts.found)

/-- Everything goes back to offers, and every transfer still has its channel. -/
structure Grounded (log : List Offer) (b : Broker) : Prop where
  logged : b.Logged log
  housed : b.view.Housed
  anchored : ∀ k t, b.transfers.get? k = some t → t.Anchored b.view

theorem grounded_fresh (ourAddress : Address) (revealTimeout block : Height) :
    (fresh (NetworkView.fresh ourAddress revealTimeout) block).Grounded [] where
  logged := holds_fresh (NetworkView.holds_fresh ourAddress revealTimeout) block
  housed := NetworkView.housed_fresh ourAddress revealTimeout
  anchored k t ht := by
    rw [fresh, SortedMap.get?_empty] at ht
    cases ht

theorem Grounded.after (h : b.Grounded log) (i : BrokerInput) :
    (b.after i).Grounded (log ++ b.offered i) where
  logged := by
    have hrun := run_logged h.logged [i]
    rw [collect, collect, List.append_nil] at hrun
    exact hrun
  housed := after_housed h.logged h.housed i
  anchored k t ht o ho := by
    rcases after_comesFrom h.logged i ht o ho with ⟨t₀, ht₀, ho₀, hnetwork⟩ |
      ⟨m, tokenNetwork, c, c', haccepts, rfl, hnetwork, -⟩
    · obtain ⟨c, hc, haddress⟩ := h.anchored _ t₀ ht₀ o ho₀
      obtain ⟨c', hc', heq⟩ := address_after h.logged i hc
      rw [← hnetwork]
      exact ⟨c', hc', heq.trans haddress⟩
    · have hname : m.balanceProof.tokenNetwork = tokenNetwork :=
        haccepts.tokenNetwork_eq h.logged h.housed
      rw [hnetwork, hname]
      exact address_after h.logged i (NetworkView.stored?_of_find? haccepts.found)

/-- After any inputs everything goes back to offers, and every transfer still has its
    channel. -/
theorem run_grounded (h : b.Grounded log) (inputs : List BrokerInput) :
    (b.run inputs).Grounded (log ++ collect after offered b inputs) := by
  induction inputs generalizing b log with
  | nil =>
      rw [collect, List.append_nil]
      exact h
  | cons i rest ih =>
      have hrest := ih (h.after i)
      rw [List.append_assoc] at hrest
      exact hrest

/-- Counted from the start. -/
theorem run_fresh_grounded (ourAddress : Address) (revealTimeout block : Height)
    (inputs : List BrokerInput) :
    ((fresh (NetworkView.fresh ourAddress revealTimeout) block).run inputs).Grounded
      (collect after offered (fresh (NetworkView.fresh ourAddress revealTimeout) block) inputs) :=
  run_grounded (grounded_fresh ourAddress revealTimeout block) inputs

end Anchored

end Broker

end PaymentNetwork

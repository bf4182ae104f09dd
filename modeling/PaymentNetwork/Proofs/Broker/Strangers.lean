import PaymentNetwork.Proofs.Transfer.Strangers
import PaymentNetwork.Proofs.Broker.Outgoing

/-!
# What a Message of a Peer Can Do

The parts of a broker that a peer reaches with a message.

A peer reaches the channels that it is the partner in, and through them whoever the
transfers there pay. A message for a channel of somebody else is refused before anything
happens. A message that goes straight to the transfers is taken from the nodes that their
locks go to, and those are partners of ours: the candidates of a transfer come from the
channels, and no channel is ever forgotten. So to a peer without a channel all of this is
closed. What is left to it is to know a secret that we asked for, or to be the target of a
payment of ours that did not ask for the secret yet.

## Main definitions

* `NetworkView.HasPartner`: Somebody is the partner in a channel of ours.
* `Broker.Acquainted`: The locks of all transfers go to partners of ours.
* `Broker.Invited`: What is left to a peer without a channel.
* `Broker.PeerLaw`: What a message of a peer changes, and what it cannot.

## Theorems

* `Broker.Acquainted.after`: Locks go to partners whatever the input.
* `Broker.receive_of_stranger`: What comes of a message of a stranger.
* `Broker.run_peerLaw`: The law for every run.
-/

namespace PaymentNetwork

/-- Does the action only tell the user something? The others are a message to a peer and a
    call of a contract. -/
def Action.isReport : Action → Bool
  | .report _ => true
  | _ => false

namespace NetworkView

/-- Somebody is the partner in a channel of ours. -/
def HasPartner (v : NetworkView) (a : Address) : Prop :=
  ∃ tokenNetwork id c, v.stored? tokenNetwork id = some c ∧ c.partner.address = a

/-- Every candidate route leads to a partner. -/
theorem hasPartner_of_mem_routes {v : NetworkView} {tokenNetwork : Address} {a : Address}
    (h : a ∈ (v.routes tokenNetwork).map Route.node) : v.HasPartner a := by
  obtain ⟨r, hr, rfl⟩ := List.mem_map.mp h
  obtain ⟨c, hopen, rfl⟩ := List.mem_map.mp hr
  have hvalue : c ∈ (v.network tokenNetwork).channels.values := (List.mem_filter.mp hopen).1
  obtain ⟨id, hid⟩ := SortedMap.mem_values_iff.mp hvalue
  exact ⟨tokenNetwork, id, c, hid, rfl⟩

/-- What is announced happens to channels that stay. -/
theorem Announces.hasPartner {v v' : NetworkView} {actions : List Action}
    (h : v.Announces actions v') {a : Address} (hpartner : v.HasPartner a) :
    v'.HasPartner a := by
  obtain ⟨tokenNetwork, id, c, hc, rfl⟩ := hpartner
  obtain ⟨c', hc', heq, -⟩ := h.stored tokenNetwork id c hc
  exact ⟨tokenNetwork, id, c', hc', by rw [heq]⟩

/-- Whoever is no partner of ours gets nothing from our channels. -/
theorem withPartnerChannel_of_stranger {v : NetworkView} {stranger : Address}
    (h : ¬ v.HasPartner stranger) {α : Type} (channelId : ChannelId)
    (operation : Channel → Except ChannelError (α × Channel)) :
    ∃ e, v.withPartnerChannel channelId stranger operation = .error e := by
  cases hop : v.withPartnerChannel channelId stranger operation with
  | error e => exact ⟨e, rfl⟩
  | ok result =>
      obtain ⟨tokenNetwork, c, c', hfind, hpartner, -⟩ := withPartnerChannel_eq_ok_iff.mp hop
      exact absurd ⟨tokenNetwork, channelId, c, stored?_of_find? hfind, hpartner⟩ h

end NetworkView

namespace Broker

/-! ### Locks go to partners -/

/-- The locks of all transfers go to partners of ours, and will. -/
def Acquainted (b : Broker) : Prop :=
  ∀ k t, b.transfers.get? k = some t → ∀ a ∈ t.nextHops, b.view.HasPartner a

section Acquainted

variable {log : List Offer} {b : Broker}

theorem hasPartner_after (h : b.Logged log) (i : BrokerInput) {a : Address}
    (hpartner : b.view.HasPartner a) : (b.after i).view.HasPartner a := by
  obtain ⟨tokenNetwork, id, c, hc, rfl⟩ := hpartner
  obtain ⟨c', hc', heq⟩ := address_after h i hc
  exact ⟨tokenNetwork, id, c', hc', heq⟩

/-- No fact gives a transfer a next hop that is not in a given set. -/
theorem closed_nextHops (K : Address → Prop) :
    Closed (fun _ _ => True) (fun t => ∀ a ∈ t.nextHops, K a) where
  create _ _ _ _ _ _ _ := trivial
  step t i h a ha := h a (t.step_nextHops i ha)

/-- A transfer that begins takes its candidates from the channels. -/
theorem Started.hasPartner {b' : Broker} {i : BrokerInput} {t : Transfer}
    {effects : List Effect} (h : b.Logged log) (hreaction : b.reaction i = .start b' t effects)
    {a : Address} (ha : a ∈ t.nextHops) : (b.after i).view.HasPartner a := by
  rcases (start_of_reaction hreaction).begins with
    ⟨terms, rfl, heq⟩ | ⟨sender, m, c, c', rfl, -, -, heq⟩
  · cases heq
    have hcandidate := Initiator.start_hops
      ⟨b.view.ourAddress, terms, b.view.routes terms.tokenNetwork⟩ b.block ha
    exact hasPartner_after h _ (NetworkView.hasPartner_of_mem_routes hcandidate)
  · have hmove := b.reaction_announces sender (.lockedTransfer m)
    rw [hreaction] at hmove
    refine hmove.hasPartner ?_
    unfold beginOffered at heq
    split at heq
    · cases heq
      cases ha
    · cases heq
      exact NetworkView.hasPartner_of_mem_routes (Mediator.start_hops
        ⟨b'.view.ourAddress, c'.route, m, b'.view.routes m.balanceProof.tokenNetwork⟩ b.block ha)

/-- Locks go to partners whatever the input. -/
theorem Acquainted.after (h : b.Logged log) (hacquainted : b.Acquainted) (i : BrokerInput) :
    (b.after i).Acquainted := by
  have hbefore : Holds (fun _ _ => True)
      (fun t => ∀ a ∈ t.nextHops, (b.after i).view.HasPartner a) b :=
    ⟨fun _ _ _ => trivial, h.filed, h.inProgress,
      fun k t ht a ha => hasPartner_after h i (hacquainted k t ht a ha)⟩
  have hafter := hbefore.after_of_base (closed_nextHops _) (fun _ _ _ => trivial)
    (fun b' t effects hreaction a ha => Started.hasPartner h hreaction ha)
  exact hafter.transfers

/-- Counted from the start. -/
theorem run_acquainted (ourAddress : Address) (revealTimeout block : Height)
    (inputs : List BrokerInput) :
    ((fresh (.fresh ourAddress revealTimeout) block).run inputs).Acquainted := by
  induction inputs using List.reverseRec with
  | nil =>
      intro k t ht
      rw [run_nil, fresh, SortedMap.get?_empty] at ht
      cases ht
  | append_singleton inputs i ih =>
      rw [run_append]
      exact Acquainted.after (run_fresh_grounded ourAddress revealTimeout block inputs).logged ih i

end Acquainted

/-! ### Messages of strangers -/

section Stranger

variable {b : Broker} {stranger : Address} {i : Input} {keys : List TransferKey}

/-- A stranger to a broker: all locks go to somebody else. -/
def StrangerTo (b : Broker) (stranger : Address) : Prop :=
  ∀ k t, b.transfers.get? k = some t → stranger ∉ t.nextHops

theorem noticeOf_reports (level : NoticeLevel) (info : String) :
    ∀ a ∈ noticeOf level info, a.isReport = true := by
  unfold noticeOf
  split
  · exact List.forall_mem_nil _
  · exact fun _ ha => List.mem_singleton.mp ha ▸ rfl

/-- Notices are all that comes of notices. -/
theorem drain_reports_of_notices (view : NetworkView) (block : Height) (t : Transfer)
    {effects : List Effect} (h : effects.all Effect.isNotice = true) :
    ∀ a ∈ (drain view block t effects).2.actions, a.isReport = true := by
  induction effects generalizing view with
  | nil =>
      rw [drain]
      exact List.forall_mem_nil _
  | cons e rest ih =>
      rw [List.all_cons, Bool.and_eq_true] at h
      cases e with
      | notice level info =>
          rw [drain]
          · intro a ha
            rcases List.mem_append.mp ha with ha | ha
            · exact noticeOf_reports level info a ha
            · exact ih view h.2 a ha
          · intro recipient channelId terms hsend
            cases hsend
      | _ => cases h.1

/-- A transfer that shrugs leaves the broker as it is. -/
theorem feed_of_shrugged (hf : b.Filed) {key : TransferKey}
    (h : ∀ t, b.transfers.get? key = some t → Shrugged t (t.step i)) :
    (b.feed i key).1 = b ∧ ∀ a ∈ (b.feed i key).2, a.isReport = true := by
  cases ht : b.transfers.get? key with
  | none =>
      rw [feed, ht]
      exact ⟨rfl, List.forall_mem_nil _⟩
  | some t =>
      have hshrugged := h t ht
      obtain ⟨hkey, hprogress⟩ := hf key t ht
      rw [feed_of_some ht]
      refine ⟨?_, drain_reports_of_notices _ _ _ hshrugged.notices⟩
      rw [settle_of_quiet b _ hshrugged.quiet, hshrugged.same, keep, hprogress]
      have hsame : b.transfers.insert t.key t = b.transfers := by
        rw [hkey]
        exact SortedMap.insert_of_get? ht
      exact congrArg (fun transfers => { b with transfers := transfers }) hsame

/-- Nothing comes of a stranger's message that no transfer invites. -/
theorem feedAll_of_uninvited (hf : b.Filed) (hspeaks : i.speaker? = some stranger)
    (h : b.StrangerTo stranger)
    (hinvited : ∀ k ∈ keys, ∀ t, b.transfers.get? k = some t → ¬ t.Invites i) :
    (b.feedAll i keys).1 = b ∧ ∀ a ∈ (b.feedAll i keys).2, a.isReport = true := by
  induction keys with
  | nil => exact ⟨rfl, List.forall_mem_nil _⟩
  | cons key rest ih =>
      have hshrugged : ∀ t, b.transfers.get? key = some t → Shrugged t (t.step i) := fun t ht =>
        Transfer.step_of_stranger hspeaks (h key t ht) (hinvited key List.mem_cons_self t ht)
      obtain ⟨hsame, hreports⟩ := feed_of_shrugged hf hshrugged
      obtain ⟨hsame', hreports'⟩ := ih (fun k hk => hinvited k (List.mem_cons_of_mem key hk))
      have hlater : (b.feedAll i (key :: rest)).1 = ((b.feed i key).1.feedAll i rest).1 := rfl
      refine ⟨?_, fun a ha => ?_⟩
      · rw [hlater, hsame, hsame']
      · rw [feedAll_cons, hsame] at ha
        rcases List.mem_append.mp ha with ha | ha
        · exact hreports a ha
        · exact hreports' a ha

/-- No message of a stranger reaches the channels, invited or not. -/
theorem feedAll_view_of_stranger (hf : b.Filed) (hspeaks : i.speaker? = some stranger)
    (h : b.StrangerTo stranger) : (b.feedAll i keys).1.view = b.view := by
  induction keys generalizing b with
  | nil => rfl
  | cons key rest ih =>
      have hfeed : (b.feed i key).1.view = b.view := by
        cases ht : b.transfers.get? key with
        | none => rw [feed_of_none ht]
        | some t =>
            rw [feed_of_quiet ht (Transfer.step_quiet_of_stranger hspeaks (h key t ht)), keep_view]
      -- Whoever was a stranger is one to what became of the transfers.
      have hholds : Holds (fun _ _ => True) (fun t => stranger ∉ t.nextHops) b :=
        ⟨fun _ _ _ => trivial, fun k t ht => (hf k t ht).1, fun k t ht => (hf k t ht).2, h⟩
      have hclosed : Closed (fun _ _ => True) (fun t => stranger ∉ t.nextHops) :=
        ⟨fun _ _ _ _ _ _ _ => trivial, fun t i hnot hmem => hnot (t.step_nextHops i hmem)⟩
      have hstill := (hholds.feed hclosed i key).transfers
      exact (ih (feed_filed hf i key) hstill).trans hfeed

end Stranger

/-- What is left to a peer without a channel: a secret that a target asked for, or the
    request that the target of a payment of ours has to make. -/
def Invited (b : Broker) (sender : Address) : Message → Prop
  | .secretReveal m => ∃ s, b.transfers.get? ⟨.target, hashSecret m.secret⟩ = some (.target s) ∧
      s.status = .requestedSecret
  | .secretRequest m => ∃ s, b.transfers.get? ⟨.initiator, m.secretHash⟩ = some (.initiator s) ∧
      s.status = .waitingSecretRequest ∧ sender = s.terms.target ∧
      m.paymentId = s.terms.paymentId ∧ m.amount = s.terms.amount ∧
      m.secretHash = s.terms.secretHash
  | _ => False

/-- What a message of a sender changes, and what it cannot. -/
structure PeerLaw (b : Broker) (sender : Address) (m : Message) : Prop where
  /-- A stored channel stays. Its partner's end changes only if the partner is the sender,
      ours only if the partner is sent a message with the new balance proof, and nothing
      else does. -/
  channels : ∀ tokenNetwork id c, b.view.stored? tokenNetwork id = some c →
    ∃ c', (b.after (.message sender m)).view.stored? tokenNetwork id = some c' ∧
      Channel.Heard sender (b.react (.message sender m)).2 c c'
  /-- No channel is added. -/
  absent : ∀ tokenNetwork id, b.view.stored? tokenNetwork id = none →
    (b.after (.message sender m)).view.stored? tokenNetwork id = none
  /-- A sender without a channel changes nothing in the view. -/
  view : ¬ b.view.HasPartner sender → (b.after (.message sender m)).view = b.view
  /-- It changes nothing at all unless it is invited, and nothing is sent or called. -/
  stranger : ¬ b.view.HasPartner sender → ¬ b.Invited sender m →
    b.after (.message sender m) = b ∧
    ∀ a ∈ (b.react (.message sender m)).2, a.isReport = true

section Receive

variable {b : Broker} {sender : Address} {m : Message}

theorem reject_reports (b : Broker) (sender : Address) (what : String) (e : ChannelError) :
    (b.reject sender what e).1 = b ∧ ∀ a ∈ (b.reject sender what e).2, a.isReport = true :=
  ⟨rfl, fun _ ha => List.mem_singleton.mp ha ▸ rfl⟩

theorem receiveTransfer_of_stranger (h : ¬ b.view.HasPartner sender) (m : LockedTransfer) :
    (b.receiveTransfer sender m).1 = b ∧
    ∀ a ∈ (b.receiveTransfer sender m).2, a.isReport = true := by
  obtain ⟨e, he⟩ := NetworkView.withPartnerChannel_of_stranger h m.balanceProof.channelId
    (fun c => (c.receiveTransfer m b.block).map fun c' => (c'.route, c'))
  unfold receiveTransfer
  split
  · exact reject_reports b sender _ _
  · simp only [he]
    exact reject_reports b sender _ _

theorem receiveProof_of_stranger (h : ¬ b.view.HasPartner sender) (what : String)
    (channelId : ChannelId) (secretHash : SecretHash) (message : ProofMessage)
    (operation : Channel → Except ChannelError Channel) :
    (b.receiveProof sender what channelId secretHash message operation).1 = b ∧
    ∀ a ∈ (b.receiveProof sender what channelId secretHash message operation).2,
      a.isReport = true := by
  obtain ⟨e, he⟩ := NetworkView.withPartnerChannel_of_stranger h channelId
    (fun c => (operation c).map fun c' => ((), c'))
  unfold receiveProof
  simp only [he]
  exact reject_reports b sender _ _

/-- All locks go to somebody else than a sender without a channel. -/
theorem Acquainted.strangerTo (hacquainted : b.Acquainted) (h : ¬ b.view.HasPartner sender) :
    b.StrangerTo sender :=
  fun k t ht hmem => h (hacquainted k t ht sender hmem)

/-- The transfers that are told of a message invite it only as the broker does. -/
theorem not_invites {k : TransferKey} {t : Transfer} {fact : Input} (hf : b.Filed)
    (hinvited : ¬ b.Invited sender m) (hfact : (BrokerInput.message sender m).fact? = some fact)
    (ht : b.transfers.get? k = some t) : ¬ t.Invites fact := by
  intro hinvites
  refine hinvited ?_
  have hkey := (hf k t ht).1
  cases m with
  | secretReveal m =>
      cases hfact
      cases t with
      | target s =>
          obtain ⟨hstatus, hhash⟩ := hinvites
          refine ⟨s, ?_, hstatus⟩
          rw [← ht, ← hkey]
          exact congrArg (fun h => b.transfers.get? ⟨.target, h⟩) hhash
      | _ => cases hinvites
  | secretRequest m =>
      cases hfact
      cases t with
      | initiator s =>
          obtain ⟨hstatus, hvalid⟩ := hinvites
          simp only [Initiator.isValidRequest, Bool.and_eq_true, decide_eq_true_eq] at hvalid
          obtain ⟨⟨⟨hsender, hhash⟩, hamount⟩, hpayment⟩ := hvalid
          refine ⟨s, ?_, hstatus, hsender, hpayment, hamount, hhash⟩
          rw [← ht, ← hkey]
          exact congrArg (fun h => b.transfers.get? ⟨.initiator, h⟩) hhash
      | _ => cases hinvites
  | lockedTransfer m => cases hfact
  | _ =>
      cases hfact
      cases t with
      | _ => cases hinvites

/-- What comes of a message of a stranger: nothing but reports, unless it is invited, and
    nothing for the channels in any case. -/
theorem receive_of_stranger (hf : b.Filed) (hacquainted : b.Acquainted)
    (h : ¬ b.view.HasPartner sender) (m : Message) :
    (b.after (.message sender m)).view = b.view ∧
    (¬ b.Invited sender m → b.after (.message sender m) = b ∧
      ∀ a ∈ (b.react (.message sender m)).2, a.isReport = true) := by
  have hstranger := hacquainted.strangerTo h
  cases m with
  | lockedTransfer m =>
      have hrejected := receiveTransfer_of_stranger h m
      exact ⟨congrArg view hrejected.1, fun _ => hrejected⟩
  | unlock m =>
      have hrejected := receiveProof_of_stranger h "unlock" m.balanceProof.channelId
        (hashSecret m.secret) (.unlock m) (·.receiveUnlock m)
      exact ⟨congrArg view hrejected.1, fun _ => hrejected⟩
  | lockRemoval m =>
      have hrejected := receiveProof_of_stranger h "expired lock removal" m.balanceProof.channelId
        m.secretHash (.removal m) (·.receiveRemoval m b.block)
      exact ⟨congrArg view hrejected.1, fun _ => hrejected⟩
  -- The others go straight to the transfers.
  | secretRequest m =>
      exact ⟨feedAll_view_of_stranger hf rfl hstranger, fun hinvited =>
        feedAll_of_uninvited hf rfl hstranger (fun k _ t ht => not_invites hf hinvited rfl ht)⟩
  | secretReveal m =>
      exact ⟨feedAll_view_of_stranger hf rfl hstranger, fun hinvited =>
        feedAll_of_uninvited hf rfl hstranger (fun k _ t ht => not_invites hf hinvited rfl ht)⟩
  | disposal m =>
      exact ⟨feedAll_view_of_stranger hf rfl hstranger, fun hinvited =>
        feedAll_of_uninvited hf rfl hstranger (fun k _ t ht => not_invites hf hinvited rfl ht)⟩

/-- After any inputs, peers only touch their own channels. -/
theorem run_peerLaw (ourAddress : Address) (revealTimeout block : Height)
    (inputs : List BrokerInput) (sender : Address) (m : Message) :
    ((fresh (.fresh ourAddress revealTimeout) block).run inputs).PeerLaw sender m := by
  have hlogged := (run_fresh_grounded ourAddress revealTimeout block inputs).logged
  have hacquainted := run_acquainted ourAddress revealTimeout block inputs
  exact
    { channels := fun tokenNetwork id c hc => stored?_receive hlogged sender m hc
      absent := fun tokenNetwork id hnone => stored?_receive_none _ sender m hnone
      view := fun h => (receive_of_stranger hlogged.toFiled hacquainted h m).1
      stranger := fun h => (receive_of_stranger hlogged.toFiled hacquainted h m).2 }

end Receive

end Broker

end PaymentNetwork

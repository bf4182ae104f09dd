import PaymentNetwork.NetworkView
import PaymentNetwork.Proofs.Channel.Recommitment

/-!
# Channels of a Network View

What a view says of one channel, and what it says of all of them.

A channel is found in two steps, first its token network and then the channel
there, and an operation on it goes the same way back. So an operation changes the
channel it names, and no identifier but its own finds anything else than before.
That a channel may be opened again under its identifier in another network only
hides the older one.

`Holds` is the form in which later results speak of all channels at once. It is
kept by everything that keeps it for a single channel.

## Main definitions

* `NetworkView.stored?`: The channel of a network under an identifier.
* `NetworkView.opened?`, `NetworkView.learn`: What an event opens, and who it names.
* `NetworkView.Change`: What an event does to a view.
* `NetworkView.Holds`: Every channel that can be found has a property.

## Theorems

* `NetworkView.channel?_putChannel_self`, `NetworkView.channel?_putChannel_of_ne`:
  What is found after a channel is replaced.
* `NetworkView.withPartnerChannel_eq_ok_iff`: When an operation on a channel with a
  partner succeeds, and what it does.
* `NetworkView.find?_addChannel_self`, `NetworkView.find?_addChannel_of_ne`: What is
  found after a channel is added.
* `NetworkView.change_apply`: Every event makes one of these changes. All else that is said
  of events is read off them.
* `NetworkView.apply_cases`, `NetworkView.channel?_apply_cases`,
  `NetworkView.channel?_apply_of_ne`: What one event does, to all channels and to one.
* `NetworkView.network_apply_cases`: What one event does to a token network.
* `NetworkView.stored?_apply`: What one event does to a stored channel.
* `NetworkView.Holds.putChannel`, `NetworkView.Holds.withPartnerChannel`,
  `NetworkView.Holds.apply`: What keeps a property of all channels.
-/

namespace PaymentNetwork

/-- Is a channel opened? -/
def ChainEvent.isOpening : ChainEvent → Bool
  | .channelOpened .. => true
  | _ => false

namespace NetworkView

theorem network_setNetwork_self (v : NetworkView) (tokenNetwork : Address) (n : TokenNetwork) :
    (v.setNetwork tokenNetwork n).network tokenNetwork = n := by
  rw [network, setNetwork, SortedMap.get?_insert_self]
  rfl

theorem network_setNetwork_of_ne {v : NetworkView} {tokenNetwork other : Address}
    {n : TokenNetwork} (h : other ≠ tokenNetwork) :
    (v.setNetwork tokenNetwork n).network other = v.network other := by
  rw [network, setNetwork, SortedMap.get?_insert_of_ne h, network]

/-- A network that keeps its channels leaves them where they are found. -/
theorem find?_setNetwork {v : NetworkView} {tokenNetwork : Address} {n : TokenNetwork}
    (h : n.channels = (v.network tokenNetwork).channels) (channelId : ChannelId) :
    (v.setNetwork tokenNetwork n).find? channelId = v.find? channelId := by
  unfold find?
  cases hid : v.channelNetworks.get? channelId with
  | none => simp only [setNetwork, hid]
  | some other =>
      -- The network of the channel may be the one that was replaced.
      have hchannels : ((v.setNetwork tokenNetwork n).network other).channels
          = (v.network other).channels := by
        by_cases ho : other = tokenNetwork
        · rw [ho, network_setNetwork_self, h]
        · rw [network_setNetwork_of_ne ho]
      have hid' : (v.setNetwork tokenNetwork n).channelNetworks.get? channelId = some other := hid
      simp only [hid', hchannels]

theorem find?_eq_some_iff {v : NetworkView} {channelId : ChannelId} {tokenNetwork : Address}
    {c : Channel} :
    v.find? channelId = some (tokenNetwork, c) ↔
      v.channelNetworks.get? channelId = some tokenNetwork ∧
      (v.network tokenNetwork).channels.get? channelId = some c := by
  unfold find?
  constructor
  · intro h
    split at h
    · cases h
    · rename_i tokenNetwork' hid
      split at h
      · cases h
      · rename_i c' hc
        cases h
        exact ⟨hid, hc⟩
  · rintro ⟨hid, hc⟩
    simp only [hid, hc]

theorem find?_putChannel_self {v : NetworkView} {tokenNetwork : Address} {channelId : ChannelId}
    {c c' : Channel} (h : v.find? channelId = some (tokenNetwork, c)) :
    (v.putChannel tokenNetwork channelId c').find? channelId = some (tokenNetwork, c') := by
  rw [find?_eq_some_iff] at h ⊢
  refine ⟨h.1, ?_⟩
  rw [putChannel, network_setNetwork_self, SortedMap.get?_insert_self]

theorem find?_putChannel_of_ne {v : NetworkView} {tokenNetwork : Address}
    {channelId other : ChannelId} {c : Channel} (h : other ≠ channelId) :
    (v.putChannel tokenNetwork channelId c).find? other = v.find? other := by
  unfold find?
  cases hid : v.channelNetworks.get? other with
  | none => simp only [putChannel, setNetwork, hid]
  | some tokenNetwork' =>
      have hid' : (v.putChannel tokenNetwork channelId c).channelNetworks.get? other
          = some tokenNetwork' := hid
      -- Two channels may share a network, but not an identifier.
      have hget :
          ((v.putChannel tokenNetwork channelId c).network tokenNetwork').channels.get? other
          = (v.network tokenNetwork').channels.get? other := by
        by_cases ht : tokenNetwork' = tokenNetwork
        · rw [ht, putChannel, network_setNetwork_self, SortedMap.get?_insert_of_ne h]
        · rw [putChannel, network_setNetwork_of_ne ht]
      simp only [hid', hget]

theorem channel?_of_find? {v : NetworkView} {channelId : ChannelId} {tokenNetwork : Address}
    {c : Channel} (h : v.find? channelId = some (tokenNetwork, c)) :
    v.channel? channelId = some c := by
  rw [channel?, h]
  rfl

theorem find?_of_channel? {v : NetworkView} {channelId : ChannelId} {c : Channel}
    (h : v.channel? channelId = some c) :
    ∃ tokenNetwork, v.find? channelId = some (tokenNetwork, c) := by
  rw [channel?, Option.map_eq_some_iff] at h
  rcases h with ⟨⟨tokenNetwork, c'⟩, hfind, rfl⟩
  exact ⟨tokenNetwork, hfind⟩

theorem channel?_putChannel_self {v : NetworkView} {tokenNetwork : Address}
    {channelId : ChannelId} {c c' : Channel} (h : v.find? channelId = some (tokenNetwork, c)) :
    (v.putChannel tokenNetwork channelId c').channel? channelId = some c' :=
  channel?_of_find? (find?_putChannel_self h)

theorem channel?_putChannel_of_ne {v : NetworkView} {tokenNetwork : Address}
    {channelId other : ChannelId} {c : Channel} (h : other ≠ channelId) :
    (v.putChannel tokenNetwork channelId c).channel? other = v.channel? other := by
  rw [channel?, find?_putChannel_of_ne h, channel?]

/-- Replacing a channel that is found concerns no identifier but its own. -/
theorem channel?_putChannel_cases {v : NetworkView} {tokenNetwork : Address}
    {channelId : ChannelId} {c : Channel} (h : v.find? channelId = some (tokenNetwork, c))
    (c' : Channel) (id : ChannelId) :
    (v.putChannel tokenNetwork channelId c').channel? id = v.channel? id ∨
    (id = channelId ∧ v.channel? id = some c ∧
      (v.putChannel tokenNetwork channelId c').channel? id = some c') := by
  by_cases hid : id = channelId
  · subst hid
    exact Or.inr ⟨rfl, channel?_of_find? h, channel?_putChannel_self h⟩
  · exact Or.inl (channel?_putChannel_of_ne hid)

/-- An operation on a channel with a partner succeeds exactly if the channel is
    there, is one with the partner, and takes the operation. -/
theorem withPartnerChannel_eq_ok_iff {α : Type} {v v' : NetworkView} {channelId : ChannelId}
    {partner : Address} {operation : Channel → Except ChannelError (α × Channel)} {a : α} :
    v.withPartnerChannel channelId partner operation = .ok (a, v') ↔
      ∃ tokenNetwork c c', v.find? channelId = some (tokenNetwork, c) ∧
        c.partner.address = partner ∧ operation c = .ok (a, c') ∧
        v' = v.putChannel tokenNetwork channelId c' := by
  unfold withPartnerChannel withChannel
  cases hfind : v.find? channelId with
  | none =>
      constructor
      · intro h
        cases h
      · rintro ⟨tokenNetwork, c, c', h, -⟩
        cases h
  | some found =>
      rcases found with ⟨tokenNetwork, c⟩
      by_cases hpartner : c.partner.address = partner
      · have hnot : ¬ c.partner.address ≠ partner := fun h => h hpartner
        cases hop : operation c with
        | error e =>
            constructor
            · intro h
              simp only [if_neg hnot, hop] at h
              cases h
            · rintro ⟨tokenNetwork', c₁, c', h, -, hop', -⟩
              cases h
              rw [hop] at hop'
              cases hop'
        | ok result =>
            rcases result with ⟨a', c'⟩
            simp only [if_neg hnot, hop]
            constructor
            · intro h
              cases h
              exact ⟨tokenNetwork, c, c', rfl, hpartner, hop, rfl⟩
            · rintro ⟨tokenNetwork', c₁, c₁', h, -, hop', rfl⟩
              cases h
              rw [hop] at hop'
              cases hop'
              rfl
      · constructor
        · intro h
          simp only [if_pos hpartner] at h
          cases h
        · rintro ⟨tokenNetwork', c₁, c', h, hpartner', -⟩
          cases h
          exact absurd hpartner' hpartner

/-- Only the network of a channel that is added is another than before. -/
theorem network_addChannel (v : NetworkView) (c : Channel) (tokenNetwork : Address) :
    (v.addChannel c).network tokenNetwork
      = if tokenNetwork = c.tokenNetwork then
          { v.network c.tokenNetwork with
            channels := (v.network c.tokenNetwork).channels.insert c.id c
            partnerChannels := (v.network c.tokenNetwork).partnerChannels.insert
              c.partner.address c.id }
        else v.network tokenNetwork := by
  by_cases ht : tokenNetwork = c.tokenNetwork
  · rw [if_pos ht, ht]
    exact network_setNetwork_self v c.tokenNetwork _
  · rw [if_neg ht]
    exact network_setNetwork_of_ne ht

theorem find?_addChannel_self (v : NetworkView) (c : Channel) :
    (v.addChannel c).find? c.id = some (c.tokenNetwork, c) := by
  have hid : (v.addChannel c).channelNetworks.get? c.id = some c.tokenNetwork :=
    SortedMap.get?_insert_self ..
  refine find?_eq_some_iff.mpr ⟨hid, ?_⟩
  rw [network_addChannel, if_pos rfl, SortedMap.get?_insert_self]

/-- A channel that is added hides no other. -/
theorem find?_addChannel_of_ne {v : NetworkView} {c : Channel} {other : ChannelId}
    (h : other ≠ c.id) : (v.addChannel c).find? other = v.find? other := by
  have hid : (v.addChannel c).channelNetworks.get? other = v.channelNetworks.get? other :=
    SortedMap.get?_insert_of_ne h
  unfold find?
  rw [hid]
  cases v.channelNetworks.get? other with
  | none => rfl
  | some tokenNetwork =>
      have hget : ((v.addChannel c).network tokenNetwork).channels.get? other
          = (v.network tokenNetwork).channels.get? other := by
        rw [network_addChannel]
        by_cases ht : tokenNetwork = c.tokenNetwork
        · rw [if_pos ht, SortedMap.get?_insert_of_ne h, ht]
        · rw [if_neg ht]
      simp only [hget]

/-! ### Stored channels -/

/-- The channel of a network under an identifier. -/
def stored? (v : NetworkView) (tokenNetwork : Address) (channelId : ChannelId) : Option Channel :=
  (v.network tokenNetwork).channels.get? channelId

theorem stored?_of_find? {v : NetworkView} {tokenNetwork : Address} {channelId : ChannelId}
    {c : Channel} (h : v.find? channelId = some (tokenNetwork, c)) :
    v.stored? tokenNetwork channelId = some c :=
  (find?_eq_some_iff.mp h).2

theorem stored?_putChannel_self (v : NetworkView) (tokenNetwork : Address) (channelId : ChannelId)
    (c : Channel) :
    (v.putChannel tokenNetwork channelId c).stored? tokenNetwork channelId = some c := by
  rw [stored?, putChannel, network_setNetwork_self, SortedMap.get?_insert_self]

theorem stored?_putChannel_of_ne {v : NetworkView} {tokenNetwork other : Address}
    {channelId id : ChannelId} (c : Channel) (h : ¬ (other = tokenNetwork ∧ id = channelId)) :
    (v.putChannel tokenNetwork channelId c).stored? other id = v.stored? other id := by
  by_cases ht : other = tokenNetwork
  · subst ht
    rw [stored?, putChannel, network_setNetwork_self,
      SortedMap.get?_insert_of_ne (fun hid => h ⟨rfl, hid⟩), stored?]
  · rw [stored?, putChannel, network_setNetwork_of_ne ht, stored?]

/-- Replacing a channel that is found replaces it where it is stored. -/
theorem stored?_putChannel_cases {v : NetworkView} {tokenNetwork : Address}
    {channelId : ChannelId} {c : Channel} (h : v.find? channelId = some (tokenNetwork, c))
    (c' : Channel) (other : Address) (id : ChannelId) :
    (v.putChannel tokenNetwork channelId c').stored? other id = v.stored? other id ∨
    (other = tokenNetwork ∧ id = channelId ∧ v.stored? other id = some c ∧
      (v.putChannel tokenNetwork channelId c').stored? other id = some c') := by
  by_cases hself : other = tokenNetwork ∧ id = channelId
  · obtain ⟨rfl, rfl⟩ := hself
    exact Or.inr ⟨rfl, rfl, stored?_of_find? h, stored?_putChannel_self v _ _ c'⟩
  · exact Or.inl (stored?_putChannel_of_ne c' hself)

/-- A network that keeps its channels keeps them stored. -/
theorem stored?_setNetwork {v : NetworkView} {tokenNetwork : Address} {n : TokenNetwork}
    (h : n.channels = (v.network tokenNetwork).channels) (other : Address) (id : ChannelId) :
    (v.setNetwork tokenNetwork n).stored? other id = v.stored? other id := by
  by_cases ht : other = tokenNetwork
  · rw [stored?, ht, network_setNetwork_self, h, stored?]
  · rw [stored?, network_setNetwork_of_ne ht, stored?]

theorem stored?_addChannel_self (v : NetworkView) (c : Channel) :
    (v.addChannel c).stored? c.tokenNetwork c.id = some c := by
  have hnetwork : (v.addChannel c).network c.tokenNetwork
      = { v.network c.tokenNetwork with
          channels := (v.network c.tokenNetwork).channels.insert c.id c
          partnerChannels := (v.network c.tokenNetwork).partnerChannels.insert
            c.partner.address c.id } := network_setNetwork_self v c.tokenNetwork _
  rw [stored?, hnetwork, SortedMap.get?_insert_self]

theorem stored?_addChannel_of_ne {v : NetworkView} {c : Channel} {other : Address}
    {id : ChannelId} (h : ¬ (other = c.tokenNetwork ∧ id = c.id)) :
    (v.addChannel c).stored? other id = v.stored? other id := by
  by_cases ht : other = c.tokenNetwork
  · subst ht
    have hnetwork : (v.addChannel c).network c.tokenNetwork
        = { v.network c.tokenNetwork with
            channels := (v.network c.tokenNetwork).channels.insert c.id c
            partnerChannels := (v.network c.tokenNetwork).partnerChannels.insert
              c.partner.address c.id } := network_setNetwork_self v c.tokenNetwork _
    rw [stored?, hnetwork, SortedMap.get?_insert_of_ne (fun hid => h ⟨rfl, hid⟩), stored?]
  · have hnetwork : (v.addChannel c).network other = v.network other :=
      network_setNetwork_of_ne ht
    rw [stored?, hnetwork, stored?]

/-! ### What an event does -/

/-- The channel of ours that an event opens, as it is at first. -/
def opened? (v : NetworkView) : ChainEvent → Option Channel
  | .channelOpened tokenNetwork channelId participant1 participant2 settleTimeout block =>
      (v.partnerOf? participant1 participant2).map fun partner =>
        Channel.fresh channelId tokenNetwork v.ourAddress partner v.revealTimeout settleTimeout
          block
  | _ => none

theorem exists_of_opened? {v : NetworkView} {e : ChainEvent} {c : Channel}
    (h : v.opened? e = some c) :
    ∃ tokenNetwork id participant1 participant2 settleTimeout block partner,
      e = .channelOpened tokenNetwork id participant1 participant2 settleTimeout block ∧
      c = Channel.fresh id tokenNetwork v.ourAddress partner v.revealTimeout settleTimeout
        block := by
  cases e with
  | channelOpened tokenNetwork id participant1 participant2 settleTimeout block =>
      obtain ⟨partner, -, rfl⟩ := Option.map_eq_some_iff.mp h
      exact ⟨_, _, _, _, _, _, partner, rfl, rfl⟩
  | _ => cases h

theorem channelId?_of_opened? {v : NetworkView} {e : ChainEvent} {c : Channel}
    (h : v.opened? e = some c) : e.channelId? = some c.id := by
  obtain ⟨_, _, _, _, _, _, _, rfl, rfl⟩ := exists_of_opened? h
  rfl

theorem isOpening_of_opened? {v : NetworkView} {e : ChainEvent} {c : Channel}
    (h : v.opened? e = some c) : e.isOpening = true := by
  obtain ⟨_, _, _, _, _, _, _, rfl, -⟩ := exists_of_opened? h
  rfl

theorem isOpen_of_opened? {v : NetworkView} {e : ChainEvent} {c : Channel}
    (h : v.opened? e = some c) : c.isOpen = true := by
  obtain ⟨_, _, _, _, _, _, _, -, rfl⟩ := exists_of_opened? h
  rfl

/-- The view with the networks and the participants that an event names. -/
def learn (v : NetworkView) : ChainEvent → NetworkView
  | .tokenNetworkCreated _ tokenNetwork _ => v.setNetwork tokenNetwork (v.network tokenNetwork)
  | .channelOpened tokenNetwork _ participant1 participant2 _ _ =>
      (v.addParticipant tokenNetwork participant1).addParticipant tokenNetwork participant2
  | _ => v

section Learn

variable (v : NetworkView) (e : ChainEvent)

theorem ourAddress_learn : (v.learn e).ourAddress = v.ourAddress := by cases e <;> rfl

theorem revealTimeout_learn : (v.learn e).revealTimeout = v.revealTimeout := by cases e <;> rfl

theorem channelNetworks_learn : (v.learn e).channelNetworks = v.channelNetworks := by
  cases e <;> rfl

theorem network_addParticipant (v : NetworkView) (other participant tokenNetwork : Address) :
    ∃ participants, (v.addParticipant other participant).network tokenNetwork
      = { v.network tokenNetwork with participants := participants } := by
  by_cases ho : tokenNetwork = other
  · subst ho
    exact ⟨_, network_setNetwork_self v tokenNetwork _⟩
  · exact ⟨_, network_setNetwork_of_ne ho⟩

/-- Of a network, an event names nothing but participants. -/
theorem network_learn (tokenNetwork : Address) :
    ∃ participants, (v.learn e).network tokenNetwork
      = { v.network tokenNetwork with participants := participants } := by
  cases e with
  | tokenNetworkCreated token other block =>
      by_cases ho : tokenNetwork = other
      · subst ho
        exact ⟨_, network_setNetwork_self v tokenNetwork _⟩
      · exact ⟨_, network_setNetwork_of_ne ho⟩
  | channelOpened other channelId participant1 participant2 settleTimeout block =>
      obtain ⟨_, h₁⟩ := v.network_addParticipant other participant1 tokenNetwork
      obtain ⟨participants, h₂⟩ :=
        (v.addParticipant other participant1).network_addParticipant other participant2 tokenNetwork
      rw [h₁] at h₂
      exact ⟨participants, h₂⟩
  | _ => exact ⟨_, rfl⟩

theorem stored?_learn (tokenNetwork : Address) (id : ChannelId) :
    (v.learn e).stored? tokenNetwork id = v.stored? tokenNetwork id := by
  obtain ⟨_, hnetwork⟩ := v.network_learn e tokenNetwork
  rw [stored?, hnetwork, stored?]

theorem find?_learn (id : ChannelId) : (v.learn e).find? id = v.find? id := by
  unfold find?
  rw [channelNetworks_learn]
  cases v.channelNetworks.get? id with
  | none => rfl
  | some tokenNetwork =>
      obtain ⟨_, hnetwork⟩ := v.network_learn e tokenNetwork
      simp only [hnetwork]

end Learn

/-- What an event does to a view. Whoever it names is known from then on, and besides it adds
    one channel, or changes one, or neither. -/
inductive Change (v : NetworkView) (e : ChainEvent) : NetworkView → Prop where
  /-- It opens a channel of ours at a free place. -/
  | opens {c : Channel} (hopened : v.opened? e = some c)
      (hfree : v.stored? c.tokenNetwork c.id = none) : Change v e ((v.learn e).addChannel c)
  /-- It opens a channel of ours, and the place is taken. -/
  | turnsDown {c : Channel} (hopened : v.opened? e = some c)
      (htaken : (v.stored? c.tokenNetwork c.id).isSome) : Change v e (v.learn e)
  /-- It reaches the channel that is found under its identifier. -/
  | reaches {id : ChannelId} {tokenNetwork : Address} {c : Channel}
      (hopened : v.opened? e = none) (hid : e.channelId? = some id)
      (hfind : v.find? id = some (tokenNetwork, c)) (hlearn : v.learn e = v) :
      Change v e (v.putChannel tokenNetwork id (c.applyEvent e))
  /-- It is an opening among others, or there is no channel that it could reach. -/
  | learns (hopened : v.opened? e = none)
      (hnone : e.channelId?.bind v.find? = none ∨ e.isOpening = true) : Change v e (v.learn e)

theorem change_apply (v : NetworkView) (e : ChainEvent) : v.Change e (v.apply e) := by
  cases e with
  | tokenNetworkCreated => exact .learns rfl (Or.inl rfl)
  | secretRegistered => exact .learns rfl (Or.inl rfl)
  | channelOpened tokenNetwork channelId participant1 participant2 settleTimeout block =>
      rw [NetworkView.apply]
      split
      · rename_i hnone
        exact .learns (Option.map_eq_none_iff.mpr hnone) (Or.inr rfl)
      · rename_i partner hpartner
        have hopened := congrArg (Option.map fun partner => Channel.fresh channelId tokenNetwork
          v.ourAddress partner v.revealTimeout settleTimeout block) hpartner
        split
        · rename_i htaken
          exact .turnsDown hopened htaken
        · rename_i hfree
          rw [SortedMap.contains, Bool.not_eq_true, Option.isSome_eq_false_iff,
            Option.isNone_iff_eq_none] at hfree
          exact .opens hopened hfree
  | _ =>
      -- All other events go where the identifier of their channel leads.
      unfold NetworkView.apply
      dsimp only [ChainEvent.channelId?]
      split
      · rename_i hnone
        exact .learns rfl (Or.inl hnone)
      · rename_i hfind
        exact .reaches rfl rfl hfind rfl

theorem ourAddress_apply (v : NetworkView) (e : ChainEvent) :
    (v.apply e).ourAddress = v.ourAddress := by
  have hlearn := v.ourAddress_learn e
  have hchange := v.change_apply e
  generalize v.apply e = w at hchange ⊢
  cases hchange with
  | reaches => rfl
  | _ => exact hlearn

theorem revealTimeout_apply (v : NetworkView) (e : ChainEvent) :
    (v.apply e).revealTimeout = v.revealTimeout := by
  have hlearn := v.revealTimeout_learn e
  have hchange := v.change_apply e
  generalize v.apply e = w at hchange ⊢
  cases hchange with
  | reaches => rfl
  | _ => exact hlearn

/-- What one event does: it leaves all channels alone, changes one, or opens one. -/
theorem apply_cases (v : NetworkView) (e : ChainEvent) :
    (∀ channelId, (v.apply e).find? channelId = v.find? channelId) ∨
    (∃ tokenNetwork channelId c, v.find? channelId = some (tokenNetwork, c) ∧
      v.apply e = v.putChannel tokenNetwork channelId (c.applyEvent e)) ∨
    (∃ v' id tokenNetwork partner settleTimeout block,
      (∀ channelId, find? v' channelId = v.find? channelId) ∧
      v.apply e = v'.addChannel (Channel.fresh id tokenNetwork v.ourAddress partner
        v.revealTimeout settleTimeout block)) := by
  have hlearn := v.find?_learn e
  have hchange := v.change_apply e
  generalize v.apply e = w at hchange ⊢
  cases hchange with
  | opens hopened hfree =>
      obtain ⟨_, _, _, _, _, _, _, -, rfl⟩ := exists_of_opened? hopened
      exact Or.inr (Or.inr ⟨_, _, _, _, _, _, hlearn, rfl⟩)
  | turnsDown => exact Or.inl hlearn
  | reaches hopened hid hfind => exact Or.inr (Or.inl ⟨_, _, _, hfind, rfl⟩)
  | learns => exact Or.inl hlearn

/-- What one event makes of the channel under an identifier: nothing, or what it makes
    of the channel itself, or it opens a new one there. -/
theorem channel?_apply_cases (v : NetworkView) (e : ChainEvent) (id : ChannelId) :
    (v.apply e).channel? id = v.channel? id ∨
    (∃ c, v.channel? id = some c ∧ (v.apply e).channel? id = some (c.applyEvent e)) ∨
    (∃ tokenNetwork participant1 participant2 settleTimeout block partner,
      e = .channelOpened tokenNetwork id participant1 participant2 settleTimeout block ∧
      (v.apply e).channel? id = some (Channel.fresh id tokenNetwork v.ourAddress partner
        v.revealTimeout settleTimeout block)) := by
  have hlearn := congrArg (Option.map Prod.snd) (v.find?_learn e id)
  have hchange := v.change_apply e
  generalize v.apply e = w at hchange ⊢
  cases hchange with
  | opens hopened hfree =>
      obtain ⟨tokenNetwork, other, _, _, _, _, _, rfl, rfl⟩ := exists_of_opened? hopened
      by_cases hid : id = other
      · subst hid
        exact Or.inr (Or.inr ⟨_, _, _, _, _, _, rfl,
          channel?_of_find? (find?_addChannel_self _ _)⟩)
      · refine Or.inl (Eq.trans ?_ hlearn)
        exact congrArg (Option.map Prod.snd) (find?_addChannel_of_ne hid)
  | turnsDown => exact Or.inl hlearn
  | @reaches _ _ c hopened hid hfind =>
      rcases channel?_putChannel_cases hfind (c.applyEvent e) id with heq | ⟨-, hc, heq⟩
      · exact Or.inl heq
      · exact Or.inr (Or.inl ⟨c, hc, heq⟩)
  | learns => exact Or.inl hlearn

/-- An event of another channel does not concern the one under an identifier. -/
theorem channel?_apply_of_ne {v : NetworkView} {e : ChainEvent} {id : ChannelId}
    (h : e.channelId? ≠ some id) : (v.apply e).channel? id = v.channel? id := by
  have hlearn := congrArg (Option.map Prod.snd) (v.find?_learn e id)
  have hchange := v.change_apply e
  generalize v.apply e = w at hchange ⊢
  cases hchange with
  | @opens c hopened hfree =>
      rw [channelId?_of_opened? hopened] at h
      have hid : id ≠ c.id := fun heq => h (congrArg some heq.symm)
      refine Eq.trans ?_ hlearn
      exact congrArg (Option.map Prod.snd) (find?_addChannel_of_ne hid)
  | turnsDown => exact hlearn
  | reaches hopened hid hfind =>
      rw [hid] at h
      exact channel?_putChannel_of_ne fun heq => h (congrArg some heq.symm)
  | learns => exact hlearn

/-- What an event does to what is known of a token network: it never blocks it, and it
    changes one channel at most or adds one. -/
theorem network_apply_cases (v : NetworkView) (e : ChainEvent) (tokenNetwork : Address) :
    ((v.apply e).network tokenNetwork).blocked = (v.network tokenNetwork).blocked ∧
    (((v.apply e).network tokenNetwork).channels = (v.network tokenNetwork).channels ∨
    (∃ id c, v.find? id = some (tokenNetwork, c) ∧ e.channelId? = some id ∧
      ((v.apply e).network tokenNetwork).channels
        = (v.network tokenNetwork).channels.insert id (c.applyEvent e)) ∨
    (∃ id c, (v.network tokenNetwork).channels.get? id = none ∧
      ((v.apply e).network tokenNetwork).channels
        = (v.network tokenNetwork).channels.insert id c)) := by
  obtain ⟨_, hlearn⟩ := v.network_learn e tokenNetwork
  have hchange := v.change_apply e
  -- An event stores one channel at most, so another token network has all that it had.
  generalize v.apply e = w at hchange ⊢
  cases hchange with
  | @opens c hopened hfree =>
      rw [network_addChannel]
      split
      · rename_i ho
        subst ho
        rw [hlearn]
        exact ⟨rfl, Or.inr (Or.inr ⟨c.id, c, hfree, rfl⟩)⟩
      · rw [hlearn]
        exact ⟨rfl, Or.inl rfl⟩
  | turnsDown =>
      rw [hlearn]
      exact ⟨rfl, Or.inl rfl⟩
  | @reaches id other c hopened hid hfind =>
      by_cases ho : tokenNetwork = other
      · subst ho
        rw [putChannel, network_setNetwork_self]
        exact ⟨rfl, Or.inr (Or.inl ⟨id, c, hfind, hid, rfl⟩)⟩
      · rw [putChannel, network_setNetwork_of_ne ho]
        exact ⟨rfl, Or.inl rfl⟩
  | learns =>
      rw [hlearn]
      exact ⟨rfl, Or.inl rfl⟩

theorem isBlocked_apply (v : NetworkView) (e : ChainEvent) (tokenNetwork : Address) :
    (v.apply e).isBlocked tokenNetwork = v.isBlocked tokenNetwork :=
  (v.network_apply_cases e tokenNetwork).1

/-- What one event does to a stored channel: it leaves it alone, changes it, or stores
    a new one in its place if there was none, with the reveal timeout of the view. -/
theorem stored?_apply (v : NetworkView) (e : ChainEvent) (tokenNetwork : Address)
    (id : ChannelId) :
    (v.apply e).stored? tokenNetwork id = v.stored? tokenNetwork id ∨
    (∃ c, v.stored? tokenNetwork id = some c ∧
      (v.apply e).stored? tokenNetwork id = some (c.applyEvent e)) ∨
    (v.stored? tokenNetwork id = none ∧
      ∃ c, (v.apply e).stored? tokenNetwork id = some c ∧ c.tokenNetwork = tokenNetwork ∧
        c.revealTimeout = v.revealTimeout) := by
  have hlearn := v.stored?_learn e tokenNetwork id
  have hchange := v.change_apply e
  generalize v.apply e = w at hchange ⊢
  cases hchange with
  | @opens c hopened hfree =>
      by_cases hself : tokenNetwork = c.tokenNetwork ∧ id = c.id
      · obtain ⟨rfl, rfl⟩ := hself
        have htimeout : c.revealTimeout = v.revealTimeout := by
          obtain ⟨_, _, _, _, _, _, _, -, rfl⟩ := exists_of_opened? hopened
          rfl
        exact Or.inr (Or.inr ⟨hfree, c, stored?_addChannel_self _ c, rfl, htimeout⟩)
      · exact Or.inl ((stored?_addChannel_of_ne hself).trans hlearn)
  | turnsDown => exact Or.inl hlearn
  | @reaches _ _ c hopened hid hfind =>
      rcases stored?_putChannel_cases hfind (c.applyEvent e) tokenNetwork id with
        heq | ⟨-, -, hc, heq⟩
      · exact Or.inl heq
      · exact Or.inr (Or.inl ⟨c, hc, heq⟩)
  | learns => exact Or.inl hlearn

/-! ### All channels at once -/

/-- Every channel that can be found has the property. -/
def Holds (v : NetworkView) (P : ChannelId → Channel → Prop) : Prop :=
  ∀ channelId c, v.channel? channelId = some c → P channelId c

section Holds

variable {P Q : ChannelId → Channel → Prop} {v : NetworkView}

theorem holds_fresh (ourAddress : Address) (revealTimeout : Height) :
    (fresh ourAddress revealTimeout).Holds P := by
  intro channelId c h
  have hnone : (fresh ourAddress revealTimeout).channel? channelId = none := by
    rw [channel?, find?, fresh, SortedMap.get?_empty]
    rfl
  rw [hnone] at h
  cases h

theorem Holds.mono (h : v.Holds P) (hpq : ∀ channelId c, P channelId c → Q channelId c) :
    v.Holds Q :=
  fun channelId c hc => hpq channelId c (h channelId c hc)

theorem Holds.congr {v' : NetworkView} (h : v.Holds P)
    (heq : ∀ channelId, v'.find? channelId = v.find? channelId) : v'.Holds P := by
  intro channelId c hc
  rw [channel?, heq] at hc
  exact h channelId c hc

theorem Holds.putChannel (h : v.Holds P) {tokenNetwork : Address} {channelId : ChannelId}
    {c c' : Channel} (hfind : v.find? channelId = some (tokenNetwork, c))
    (hp : P channelId c') : (v.putChannel tokenNetwork channelId c').Holds P := by
  intro other d hd
  by_cases ho : other = channelId
  · subst ho
    rw [channel?_putChannel_self hfind, Option.some.injEq] at hd
    rwa [← hd]
  · rw [channel?_putChannel_of_ne ho] at hd
    exact h other d hd

/-- A channel that was added is found, and hides no other. -/
theorem Holds.addChannel (h : v.Holds P) {c : Channel} (hp : P c.id c) :
    (v.addChannel c).Holds P := by
  intro other d hd
  by_cases ho : other = c.id
  · subst ho
    rw [channel?, find?_addChannel_self, Option.map_some, Option.some.injEq] at hd
    rwa [← hd]
  · rw [channel?, find?_addChannel_of_ne ho] at hd
    exact h other d hd

/-- A successful operation keeps a property that it keeps for its own channel. -/
theorem Holds.withPartnerChannel (h : v.Holds P) {α : Type} {channelId : ChannelId}
    {partner : Address} {operation : Channel → Except ChannelError (α × Channel)} {a : α}
    {v' : NetworkView} (hop : v.withPartnerChannel channelId partner operation = .ok (a, v'))
    (hkeep : ∀ c c', P channelId c → c.partner.address = partner → operation c = .ok (a, c') →
      P channelId c') : v'.Holds P := by
  rcases withPartnerChannel_eq_ok_iff.mp hop with
    ⟨tokenNetwork, c, c', hfind, hpartner, hc, rfl⟩
  exact h.putChannel hfind
    (hkeep c c' (h channelId c (channel?_of_find? hfind)) hpartner hc)

/-- An event keeps a property of all channels that new channels have and that it
    keeps for each of them. -/
theorem Holds.apply (h : v.Holds P) {e : ChainEvent}
    (hfresh : ∀ id tokenNetwork ourAddress partnerAddress revealTimeout settleTimeout block,
      P id (Channel.fresh id tokenNetwork ourAddress partnerAddress revealTimeout settleTimeout
        block))
    (hevent : ∀ id c, P id c → P id (c.applyEvent e)) : (v.apply e).Holds P := by
  rcases apply_cases v e with hsame | ⟨tokenNetwork, channelId, c, hfind, heq⟩ |
    ⟨v', id, tokenNetwork, partner, settleTimeout, block, hsame, heq⟩
  · exact h.congr hsame
  · rw [heq]
    exact h.putChannel hfind (hevent channelId c (h channelId c (channel?_of_find? hfind)))
  · rw [heq]
    exact (h.congr hsame).addChannel (hfresh ..)

/-- An event keeps a property that the channel has which it opens, and that it keeps for
    each of the others. -/
theorem Holds.apply_of_opened (h : v.Holds P) {e : ChainEvent}
    (hopened : ∀ tokenNetwork id participant1 participant2 settleTimeout block partner,
      e = .channelOpened tokenNetwork id participant1 participant2 settleTimeout block →
      P id (Channel.fresh id tokenNetwork v.ourAddress partner v.revealTimeout settleTimeout
        block))
    (hevent : ∀ id c, P id c → P id (c.applyEvent e)) : (v.apply e).Holds P := by
  intro id d hd
  rcases channel?_apply_cases v e id with
    hsame | ⟨c, hc, heq⟩ | ⟨tokenNetwork, participant1, participant2, settleTimeout, block,
      partner, he, heq⟩
  · exact h id d (hsame ▸ hd)
  · rw [heq, Option.some.injEq] at hd
    rw [← hd]
    exact hevent id c (h id c hc)
  · rw [heq, Option.some.injEq] at hd
    rw [← hd]
    exact hopened tokenNetwork id participant1 participant2 settleTimeout block partner he

end Holds

end NetworkView

end PaymentNetwork

import PaymentNetwork.Proofs.NetworkView.Openings

/-!
# What One Event Changes

A view is five maps, and an event touches each of them in its own way. Here every map has
one equation: what it holds at a key after the event, in terms of what the view held before.
An equation says at the same time what the event does and what it leaves alone, and which
part of the view decides it.

Three of the maps are about channels. An opening of ours writes to all three, at a place
that is free; any other event writes to the stored channels alone, where its identifier
leads. The two others are about networks: which of them are known, and who takes part in
them. There an event only ever adds, and what it adds is in the event itself.

## Main definitions

* `ChainEvent.founds`, `ChainEvent.introduces`: Does the event make a network or a
  participant known?
* `ChainEvent.concerns`: Is the event about a channel?
* `ChainEvent.opensWith`: Does it open a channel of ours with a partner?

## Theorems

* `NetworkView.stored?_apply_eq`, `NetworkView.channelNetworks_apply_eq`,
  `NetworkView.partnerChannel?_apply_eq`: The channels after an event, and where they are
  found.
* `NetworkView.get?_participants_apply`, `NetworkView.isSome_networks_apply`: The
  participants and the networks after an event.
-/

namespace PaymentNetwork

namespace ChainEvent

/-- Does the event make a network known? -/
def founds (tokenNetwork : Address) : ChainEvent → Bool
  | .tokenNetworkCreated _ other _ => decide (other = tokenNetwork)
  | .channelOpened other _ _ _ _ _ => decide (other = tokenNetwork)
  | _ => false

/-- Does the event make a participant of a network known? -/
def introduces (tokenNetwork participant : Address) : ChainEvent → Bool
  | .channelOpened other _ participant1 participant2 _ _ =>
      decide (other = tokenNetwork ∧ (participant1 = participant ∨ participant2 = participant))
  | _ => false

/-- Is the event about a channel? -/
def concerns (id : ChannelId) (e : ChainEvent) : Bool := decide (e.channelId? = some id)

/-- Does the event open a channel of ours with a partner in a network? -/
def opensWith (ourAddress tokenNetwork partner : Address) (e : ChainEvent) : Bool :=
  (e.opening? ourAddress).any fun o => decide (o.tokenNetwork = tokenNetwork ∧ o.partner = partner)

end ChainEvent

/-- A channel does not take an opening for its own. -/
theorem Channel.applyEvent_of_isOpening (c : Channel) {e : ChainEvent} (h : e.isOpening = true) :
    c.applyEvent e = c := by
  cases e with
  | channelOpened =>
      rw [applyEvent]
      split <;> rfl
  | _ => cases h

namespace NetworkView

theorem founds_of_opened? {v : NetworkView} {e : ChainEvent} {c : Channel}
    (h : v.opened? e = some c) : e.founds c.tokenNetwork = true := by
  obtain ⟨_, _, _, _, _, _, _, rfl, rfl⟩ := exists_of_opened? h
  exact decide_eq_true rfl

/-! ### Channels -/

/-- An opening of ours stores a channel if there is none at its place. Any other event changes
    what is stored under its identifier, in the network to which this leads. -/
theorem stored?_apply_eq (v : NetworkView) (e : ChainEvent) (tokenNetwork : Address)
    (id : ChannelId) :
    (v.apply e).stored? tokenNetwork id =
      match v.opened? e with
      | some c =>
        if c.tokenNetwork = tokenNetwork ∧ c.id = id then some ((v.stored? tokenNetwork id).getD c)
        else v.stored? tokenNetwork id
      | none =>
        if e.channelId? = some id ∧ v.channelNetworks.get? id = some tokenNetwork then
          (v.stored? tokenNetwork id).map (·.applyEvent e)
        else v.stored? tokenNetwork id := by
  have hlearn := (v.sameChannels_learn e).stored tokenNetwork id
  have hchange := v.change_apply e
  generalize v.apply e = w at hchange
  cases hchange with
  | @opens c hopened hfree =>
      rw [hopened]
      dsimp only
      split
      · rename_i hplace
        obtain ⟨rfl, rfl⟩ := hplace
        rw [stored?_addChannel_self, hfree, Option.getD_none]
      · rename_i hplace
        rw [stored?_addChannel_of_ne fun h => hplace ⟨h.1.symm, h.2.symm⟩, hlearn]
  | @turnsDown c hopened htaken =>
      rw [hopened, hlearn]
      dsimp only
      split
      · rename_i hplace
        obtain ⟨rfl, rfl⟩ := hplace
        obtain ⟨d, hd⟩ := Option.isSome_iff_exists.mp htaken
        rw [hd, Option.getD_some]
      · rfl
  | @reaches id' other c hopened hid hfind hsame =>
      obtain ⟨hhome, hstored⟩ := find?_eq_some_iff.mp hfind
      rw [hopened]
      dsimp only
      split
      · rename_i hreached
        obtain rfl : id' = id := Option.some.inj (hid.symm.trans hreached.1)
        obtain rfl : other = tokenNetwork := Option.some.inj (hhome.symm.trans hreached.2)
        rw [stored?_putChannel_self, stored?_of_find? hfind, Option.map_some]
      · rename_i hnot
        refine stored?_putChannel_of_ne _ ?_
        rintro ⟨rfl, rfl⟩
        exact hnot ⟨hid, hhome⟩
  | learns hopened hnone =>
      rw [hopened, hlearn]
      dsimp only
      split
      · rename_i hreached
        cases hc : v.stored? tokenNetwork id with
        | none => rfl
        | some c =>
            -- There is a channel to reach, so the event is an opening among others.
            have hfind := find?_eq_some_iff.mpr ⟨hreached.2, hc⟩
            rw [hreached.1, Option.bind_some, hfind] at hnone
            have hopening := hnone.resolve_left (Option.some_ne_none _)
            rw [Option.map_some, Channel.applyEvent_of_isOpening c hopening]
      · rfl

/-- An opening of ours at a free place leads its identifier there. -/
theorem channelNetworks_apply_eq (v : NetworkView) (e : ChainEvent) (id : ChannelId) :
    (v.apply e).channelNetworks.get? id =
      match v.opened? e with
      | some c =>
        if c.id = id ∧ v.stored? c.tokenNetwork id = none then some c.tokenNetwork
        else v.channelNetworks.get? id
      | none => v.channelNetworks.get? id := by
  have hlearn := congrArg (SortedMap.get? · id) (v.sameChannels_learn e).networks
  have hchange := v.change_apply e
  generalize v.apply e = w at hchange
  cases hchange with
  | @opens c hopened hfree =>
      rw [hopened]
      by_cases hid : id = c.id
      · subst hid
        exact (SortedMap.get?_insert_self ..).trans (if_pos ⟨rfl, hfree⟩).symm
      · exact (SortedMap.get?_insert_of_ne hid).trans
          (hlearn.trans (if_neg fun h => hid h.1.symm).symm)
  | @turnsDown c hopened htaken =>
      rw [hopened]
      refine hlearn.trans (if_neg ?_).symm
      rintro ⟨rfl, hnone⟩
      rw [hnone] at htaken
      cases htaken
  | reaches hopened =>
      rw [hopened]
      rfl
  | learns hopened =>
      rw [hopened]
      exact hlearn

/-- An opening of ours at a free place leads its partner to the new channel. -/
theorem partnerChannel?_apply_eq (v : NetworkView) (e : ChainEvent)
    (tokenNetwork partner : Address) :
    (v.apply e).partnerChannel? tokenNetwork partner =
      match v.opened? e with
      | some c =>
        if (c.tokenNetwork = tokenNetwork ∧ c.partner.address = partner) ∧
            v.stored? c.tokenNetwork c.id = none then some c.id
        else v.partnerChannel? tokenNetwork partner
      | none => v.partnerChannel? tokenNetwork partner := by
  have hlearn := (v.sameChannels_learn e).partners tokenNetwork partner
  have hchange := v.change_apply e
  generalize v.apply e = w at hchange
  cases hchange with
  | @opens c hopened hfree =>
      rw [hopened, partnerChannel?_addChannel, hlearn]
      simp only [hfree, and_true]
  | @turnsDown c hopened htaken =>
      rw [hopened]
      refine hlearn.trans (if_neg fun h => ?_).symm
      rw [h.2] at htaken
      cases htaken
  | reaches hopened =>
      rw [hopened]
      exact partnerChannel?_putChannel ..
  | learns hopened =>
      rw [hopened]
      exact hlearn

/-! ### Networks and participants -/

/-- A network that keeps its participants keeps them known. -/
theorem participants_setNetwork {v : NetworkView} {other : Address} {n : TokenNetwork}
    (h : n.participants = (v.network other).participants) (tokenNetwork : Address) :
    ((v.setNetwork other n).network tokenNetwork).participants
      = (v.network tokenNetwork).participants := by
  by_cases ho : tokenNetwork = other
  · rw [ho, network_setNetwork_self, h]
  · rw [network_setNetwork_of_ne ho]

theorem get?_participants_addParticipant (v : NetworkView) (other participant : Address)
    (tokenNetwork p : Address) :
    ((v.addParticipant other participant).network tokenNetwork).participants.get? p
      = if other = tokenNetwork ∧ participant = p then some ()
        else (v.network tokenNetwork).participants.get? p := by
  by_cases ho : tokenNetwork = other
  · subst ho
    rw [addParticipant, network_setNetwork_self]
    by_cases hp : p = participant
    · rw [hp, if_pos ⟨rfl, rfl⟩, SortedMap.get?_insert_self]
    · rw [if_neg fun h => hp h.2.symm, SortedMap.get?_insert_of_ne hp]
  · rw [addParticipant, network_setNetwork_of_ne ho, if_neg fun h => ho h.1.symm]

theorem get?_participants_learn (v : NetworkView) (e : ChainEvent) (tokenNetwork p : Address) :
    ((v.learn e).network tokenNetwork).participants.get? p
      = if e.introduces tokenNetwork p then some ()
        else (v.network tokenNetwork).participants.get? p := by
  cases e with
  | tokenNetworkCreated =>
      exact congrArg (SortedMap.get? · p) (participants_setNetwork rfl tokenNetwork)
  | channelOpened other channelId participant1 participant2 settleTimeout block =>
      rw [learn, get?_participants_addParticipant, get?_participants_addParticipant,
        ChainEvent.introduces]
      by_cases h₁ : other = tokenNetwork ∧ participant1 = p
      · simp [h₁]
      · by_cases h₂ : other = tokenNetwork ∧ participant2 = p
        · simp [h₂]
        · simp [and_or_left, h₁, h₂]
  | _ => rfl

/-- The participants are those of before and those that the event names. -/
theorem get?_participants_apply (v : NetworkView) (e : ChainEvent) (tokenNetwork p : Address) :
    ((v.apply e).network tokenNetwork).participants.get? p
      = if e.introduces tokenNetwork p then some ()
        else (v.network tokenNetwork).participants.get? p := by
  have hchange := v.change_apply e
  generalize v.apply e = w at hchange
  rw [← get?_participants_learn]
  cases hchange with
  | opens => exact congrArg (SortedMap.get? · p) (participants_setNetwork (by rfl) tokenNetwork)
  | reaches hopened hid hfind hsame =>
      rw [hsame]
      exact congrArg (SortedMap.get? · p) (participants_setNetwork (by rfl) tokenNetwork)
  | turnsDown => rfl
  | learns => rfl

theorem isSome_networks_setNetwork (v : NetworkView) (other : Address) (n : TokenNetwork)
    (tokenNetwork : Address) :
    ((v.setNetwork other n).networks.get? tokenNetwork).isSome
      = (decide (other = tokenNetwork) || (v.networks.get? tokenNetwork).isSome) := by
  by_cases ho : tokenNetwork = other
  · subst ho
    rw [setNetwork, SortedMap.get?_insert_self, decide_eq_true rfl]
    rfl
  · rw [setNetwork, SortedMap.get?_insert_of_ne ho, decide_eq_false (Ne.symm ho), Bool.false_or]

/-- A network that stores a channel is known. -/
theorem isSome_networks_of_stored? {v : NetworkView} {tokenNetwork : Address} {id : ChannelId}
    {c : Channel} (h : v.stored? tokenNetwork id = some c) :
    (v.networks.get? tokenNetwork).isSome := by
  rw [stored?, network] at h
  cases hn : v.networks.get? tokenNetwork with
  | none =>
      rw [hn] at h
      cases h
  | some n => rfl

theorem isSome_networks_learn (v : NetworkView) (e : ChainEvent) (tokenNetwork : Address) :
    ((v.learn e).networks.get? tokenNetwork).isSome
      = (e.founds tokenNetwork || (v.networks.get? tokenNetwork).isSome) := by
  cases e with
  | tokenNetworkCreated => exact isSome_networks_setNetwork ..
  | channelOpened =>
      rw [learn, addParticipant, isSome_networks_setNetwork, addParticipant,
        isSome_networks_setNetwork, ← Bool.or_assoc, Bool.or_self, ChainEvent.founds]
  | _ => exact (Bool.false_or _).symm

/-- The known networks are those of before and the one that the event names. -/
theorem isSome_networks_apply (v : NetworkView) (e : ChainEvent) (tokenNetwork : Address) :
    ((v.apply e).networks.get? tokenNetwork).isSome
      = (e.founds tokenNetwork || (v.networks.get? tokenNetwork).isSome) := by
  -- The network of a channel was known before the channel is written.
  have hwritten : ∀ other n, ((v.learn e).networks.get? other).isSome →
      (((v.learn e).setNetwork other n).networks.get? tokenNetwork).isSome
        = ((v.learn e).networks.get? tokenNetwork).isSome := by
    intro other n hknown
    rw [isSome_networks_setNetwork]
    by_cases ho : other = tokenNetwork
    · rw [← ho, hknown, Bool.or_true]
    · rw [decide_eq_false ho, Bool.false_or]
  have hchange := v.change_apply e
  generalize v.apply e = w at hchange
  rw [← isSome_networks_learn]
  cases hchange with
  | opens hopened =>
      refine hwritten _ _ ?_
      rw [isSome_networks_learn, founds_of_opened? hopened, Bool.true_or]
  | reaches hopened hid hfind hsame =>
      rw [hsame] at hwritten ⊢
      exact hwritten _ _ (isSome_networks_of_stored? (stored?_of_find? hfind))
  | turnsDown => rfl
  | learns => rfl

end NetworkView

end PaymentNetwork

import PaymentNetwork.Proofs.NetworkView
import PaymentNetwork.Proofs.Channel.History
import Mathlib.Data.List.Induction
import Mathlib.Data.List.Nodup

/-!
# Channels and Where They Are Found

Three indexes lead to a channel: its token network lists it, its identifier finds it,
and so does its partner. What the three say is read off the openings alone. A view that
applied any events lists one channel for each place that was opened, a place being a
network and an identifier, and the other two indexes answer with the latest opening.

An opening is turned down if its own network has the identifier already. It is not
turned down if another network has it, and then the identifier finds the new channel and
the older one is hidden: still listed, but reached by no event and no operation. So the
indexes agree exactly if no identifier was opened in two networks.

## Main definitions

* `Opening`, `ourOpenings`: A channel of ours as the ledger opened it, and those that events
  open.
* `Opening.at?`, `Opening.latest?`, `Opening.latestWith?`: The opening of a place, the
  latest of an identifier, and the latest with a partner.
* `NetworkView.Indexed`: The indexes of a view are those of a list of openings.
* `NetworkView.Agree`: The indexes agree with each other.
* `NetworkView.IndexLaw`: What the indexes answer, and what openings, events and
  operations do to them.

## Theorems

* `NetworkView.Indexed.apply`, `NetworkView.indexed_applyAll`: One event keeps the
  indexes, and so all events do.
* `NetworkView.Indexed.agree_iff`: When the indexes agree.
* `NetworkView.applyAll_indexLaw`: After any events the indexes follow the law.
-/

namespace PaymentNetwork

/-- A channel of ours as the ledger opened it. -/
structure Opening where
  tokenNetwork : Address
  channelId : ChannelId
  partner : Address
deriving DecidableEq

/-- The opening that a channel came from. -/
def Channel.opening (c : Channel) : Opening := ⟨c.tokenNetwork, c.id, c.partner.address⟩

theorem Channel.applyEvent_opening (c : Channel) (e : ChainEvent) :
    (c.applyEvent e).opening = c.opening := by
  have hpartner : (c.applyEvent e).partner.address = c.partner.address := by
    rcases applyEvent_endOf c e .partner with heq | ⟨change, -, -, heq⟩
    · exact congrArg ChannelEnd.address heq
    · exact (congrArg ChannelEnd.address heq).trans (by cases change <;> rfl)
  rw [opening, opening, applyEvent_id, applyEvent_tokenNetwork, hpartner]

/-- The channel of ours that an event opens, if it opens one. -/
def ChainEvent.opening? (ourAddress : Address) : ChainEvent → Option Opening
  | .channelOpened tokenNetwork channelId participant1 participant2 _ _ =>
      if participant1 = ourAddress then some ⟨tokenNetwork, channelId, participant2⟩
      else if participant2 = ourAddress then some ⟨tokenNetwork, channelId, participant1⟩
      else none
  | _ => none

/-- A channel that an event opens came from the opening of this event. -/
theorem NetworkView.opening?_eq (v : NetworkView) (e : ChainEvent) :
    e.opening? v.ourAddress = (v.opened? e).map Channel.opening := by
  cases e with
  | channelOpened =>
      rw [ChainEvent.opening?, opened?, partnerOf?]
      split
      · rfl
      · split <;> rfl
  | _ => rfl

namespace Opening

/-- Where the channel is stored. -/
def place (o : Opening) : Address × ChannelId := (o.tokenNetwork, o.channelId)

/-- Take note of an opening. A place is opened once. -/
def record (opened : List Opening) (o : Opening) : List Opening :=
  if o.place ∈ opened.map place then opened else o :: opened

/-- The opening of a place. -/
def at? (opened : List Opening) (tokenNetwork : Address) (channelId : ChannelId) :
    Option Opening :=
  opened.find? fun o => o.place = (tokenNetwork, channelId)

/-- The latest opening of an identifier. -/
def latest? (opened : List Opening) (channelId : ChannelId) : Option Opening :=
  opened.find? fun o => o.channelId = channelId

/-- The latest opening in a network with a partner. -/
def latestWith? (opened : List Opening) (tokenNetwork partner : Address) : Option Opening :=
  opened.find? fun o => o.tokenNetwork = tokenNetwork ∧ o.partner = partner

section

variable {opened : List Opening} {o : Opening} {tokenNetwork partner : Address}
  {channelId : ChannelId}

theorem at?_eq_some (h : at? opened tokenNetwork channelId = some o) :
    o ∈ opened ∧ o.tokenNetwork = tokenNetwork ∧ o.channelId = channelId := by
  have hplace := List.find?_some h
  rw [decide_eq_true_eq, place, Prod.mk.injEq] at hplace
  exact ⟨List.mem_of_find?_eq_some h, hplace⟩

theorem latest?_eq_some (h : latest? opened channelId = some o) :
    o ∈ opened ∧ o.channelId = channelId := by
  have hid := List.find?_some h
  exact ⟨List.mem_of_find?_eq_some h, of_decide_eq_true hid⟩

theorem latestWith?_eq_some (h : latestWith? opened tokenNetwork partner = some o) :
    o ∈ opened ∧ o.tokenNetwork = tokenNetwork ∧ o.partner = partner := by
  have hpartner := List.find?_some h
  exact ⟨List.mem_of_find?_eq_some h, of_decide_eq_true hpartner⟩

theorem isSome_latest? (h : o ∈ opened) : (latest? opened o.channelId).isSome :=
  List.find?_isSome.mpr ⟨o, h, decide_eq_true rfl⟩

/-- Places are opened once, so an opening is the one of its place. -/
theorem at?_of_mem (hplaces : (opened.map place).Nodup) (h : o ∈ opened) :
    at? opened o.tokenNetwork o.channelId = some o := by
  have hsome : (at? opened o.tokenNetwork o.channelId).isSome :=
    List.find?_isSome.mpr ⟨o, h, decide_eq_true rfl⟩
  obtain ⟨o', ho'⟩ := Option.isSome_iff_exists.mp hsome
  -- Some opening of the place is found, and there is only one.
  obtain ⟨hmem, hnetwork, hid⟩ := at?_eq_some ho'
  have hsame : o' = o := List.inj_on_of_nodup_map hplaces hmem h (Prod.ext hnetwork hid)
  rw [ho', hsame]

theorem at?_eq_none_iff :
    at? opened tokenNetwork channelId = none ↔ (tokenNetwork, channelId) ∉ opened.map place := by
  rw [at?, List.find?_eq_none, List.mem_map]
  simp only [decide_eq_true_eq, not_exists, not_and]

end

end Opening

/-- The channels of ours that events open, the latest first. -/
def ourOpenings (ourAddress : Address) (events : List ChainEvent) : List Opening :=
  (events.filterMap (ChainEvent.opening? ourAddress)).foldl Opening.record []

theorem ourOpenings_append_singleton (ourAddress : Address) (events : List ChainEvent)
    (e : ChainEvent) :
    ourOpenings ourAddress (events ++ [e])
      = ((e.opening? ourAddress).toList).foldl Opening.record (ourOpenings ourAddress events) := by
  rw [ourOpenings, List.filterMap_append, List.foldl_append, ourOpenings]
  cases he : e.opening? ourAddress with
  | none => simp [he]
  | some o => simp [he]

namespace NetworkView

/-- The view after events of the ledger. -/
def applyAll (v : NetworkView) (events : List ChainEvent) : NetworkView := events.foldl apply v

/-! ### The three indexes -/

/-- The identifier of the latest channel with a partner. -/
def partnerChannel? (v : NetworkView) (tokenNetwork partner : Address) : Option ChannelId :=
  (v.network tokenNetwork).partnerChannels.get? partner

theorem partnerChannel?_setNetwork {v : NetworkView} {tokenNetwork : Address} {n : TokenNetwork}
    (h : n.partnerChannels = (v.network tokenNetwork).partnerChannels) (other partner : Address) :
    (v.setNetwork tokenNetwork n).partnerChannel? other partner
      = v.partnerChannel? other partner := by
  by_cases ho : other = tokenNetwork
  · rw [partnerChannel?, ho, network_setNetwork_self, h, partnerChannel?]
  · rw [partnerChannel?, network_setNetwork_of_ne ho, partnerChannel?]

theorem partnerChannel?_putChannel (v : NetworkView) (tokenNetwork : Address)
    (channelId : ChannelId) (c : Channel) (other partner : Address) :
    (v.putChannel tokenNetwork channelId c).partnerChannel? other partner
      = v.partnerChannel? other partner := by
  rw [putChannel]
  exact partnerChannel?_setNetwork (by rfl) other partner

theorem partnerChannel?_addChannel (v : NetworkView) (c : Channel)
    (tokenNetwork partner : Address) :
    (v.addChannel c).partnerChannel? tokenNetwork partner
      = if c.tokenNetwork = tokenNetwork ∧ c.partner.address = partner then some c.id
        else v.partnerChannel? tokenNetwork partner := by
  rw [partnerChannel?, network_addChannel]
  by_cases ht : tokenNetwork = c.tokenNetwork
  · subst ht
    by_cases hp : partner = c.partner.address
    · subst hp
      rw [if_pos rfl, if_pos ⟨rfl, rfl⟩, SortedMap.get?_insert_self]
    · rw [if_pos rfl, if_neg (fun h => hp h.2.symm), SortedMap.get?_insert_of_ne hp,
        partnerChannel?]
  · rw [if_neg ht, if_neg (fun h => ht h.1.symm), partnerChannel?]

theorem channelByPartner?_eq (v : NetworkView) (tokenNetwork partner : Address) :
    v.channelByPartner? tokenNetwork partner
      = (v.partnerChannel? tokenNetwork partner).bind (v.stored? tokenNetwork) := by
  rw [channelByPartner?, partnerChannel?]
  cases (v.network tokenNetwork).partnerChannels.get? partner with
  | none => rfl
  | some id => rfl

theorem channel?_eq (v : NetworkView) (id : ChannelId) :
    v.channel? id = (v.channelNetworks.get? id).bind (fun network => v.stored? network id) := by
  rw [channel?, find?]
  cases v.channelNetworks.get? id with
  | none => rfl
  | some network =>
      dsimp only [Option.bind_some, stored?]
      cases (v.network network).channels.get? id with
      | none => rfl
      | some c => rfl

/-- The views store the same channels and find them in the same way. -/
structure SameChannels (v v' : NetworkView) : Prop where
  stored : ∀ tokenNetwork id, v'.stored? tokenNetwork id = v.stored? tokenNetwork id
  networks : v'.channelNetworks = v.channelNetworks
  partners : ∀ tokenNetwork partner,
    v'.partnerChannel? tokenNetwork partner = v.partnerChannel? tokenNetwork partner

section SameChannels

variable {v v' : NetworkView}

theorem SameChannels.refl (v : NetworkView) : v.SameChannels v :=
  ⟨fun _ _ => rfl, rfl, fun _ _ => rfl⟩

theorem sameChannels_setNetwork {tokenNetwork : Address} {n : TokenNetwork}
    (hchannels : n.channels = (v.network tokenNetwork).channels)
    (hpartners : n.partnerChannels = (v.network tokenNetwork).partnerChannels) :
    v.SameChannels (v.setNetwork tokenNetwork n) :=
  ⟨stored?_setNetwork hchannels, rfl, partnerChannel?_setNetwork hpartners⟩

theorem sameChannels_setBlocked (v : NetworkView) (tokenNetwork : Address) (blocked : Bool) :
    v.SameChannels (v.setBlocked tokenNetwork blocked) :=
  sameChannels_setNetwork rfl rfl

theorem SameChannels.channels (h : v.SameChannels v') (tokenNetwork : Address) :
    v'.channels tokenNetwork = v.channels tokenNetwork :=
  congrArg SortedMap.values (SortedMap.ext_get? (h.stored tokenNetwork))

theorem SameChannels.channel? (h : v.SameChannels v') (id : ChannelId) :
    v'.channel? id = v.channel? id := by
  rw [channel?_eq, channel?_eq, h.networks, funext (fun network => h.stored network id)]

theorem SameChannels.channelByPartner? (h : v.SameChannels v') (tokenNetwork partner : Address) :
    v'.channelByPartner? tokenNetwork partner = v.channelByPartner? tokenNetwork partner := by
  rw [channelByPartner?_eq, channelByPartner?_eq, h.partners, funext (h.stored tokenNetwork)]

end SameChannels

/-- What an event names is no channel. -/
theorem sameChannels_learn (v : NetworkView) (e : ChainEvent) : v.SameChannels (v.learn e) where
  stored := v.stored?_learn e
  networks := v.channelNetworks_learn e
  partners tokenNetwork partner := by
    obtain ⟨_, hnetwork⟩ := v.network_learn e tokenNetwork
    rw [partnerChannel?, hnetwork, partnerChannel?]

/-- The view stores one channel for each opening, and its indexes by identifier and by
    partner hold the latest one. -/
structure Indexed (v : NetworkView) (opened : List Opening) : Prop where
  /-- No place was opened twice. -/
  places : (opened.map Opening.place).Nodup
  /-- What is stored at a place came from the opening of the place. -/
  stored : ∀ tokenNetwork id,
    (v.stored? tokenNetwork id).map Channel.opening = Opening.at? opened tokenNetwork id
  /-- An identifier leads to the network where it was opened last. -/
  networks : ∀ id,
    v.channelNetworks.get? id = (Opening.latest? opened id).map Opening.tokenNetwork
  /-- A partner leads to the channel that was opened last with it. -/
  partners : ∀ tokenNetwork partner, v.partnerChannel? tokenNetwork partner
    = (Opening.latestWith? opened tokenNetwork partner).map Opening.channelId

section Indexed

variable {v v' : NetworkView} {opened : List Opening}

theorem indexed_fresh (ourAddress : Address) (revealTimeout : Height) :
    (fresh ourAddress revealTimeout).Indexed [] where
  places := List.nodup_nil
  stored _ _ := rfl
  networks _ := rfl
  partners _ _ := rfl

theorem Indexed.congr (h : v.Indexed opened) (hsame : v.SameChannels v') : v'.Indexed opened where
  places := h.places
  stored tokenNetwork id := by
    rw [hsame.stored]
    exact h.stored tokenNetwork id
  networks id := hsame.networks ▸ h.networks id
  partners tokenNetwork partner :=
    (hsame.partners tokenNetwork partner).trans (h.partners tokenNetwork partner)

theorem Indexed.putChannel (h : v.Indexed opened) {tokenNetwork : Address} {id : ChannelId}
    {c c' : Channel} (hfind : v.find? id = some (tokenNetwork, c))
    (heq : c'.opening = c.opening) : (v.putChannel tokenNetwork id c').Indexed opened := by
  have hstored : ∀ other id', ((v.putChannel tokenNetwork id c').stored? other id').map
      Channel.opening = (v.stored? other id').map Channel.opening := by
    intro other id'
    rcases stored?_putChannel_cases hfind c' other id' with hsame | ⟨-, -, hc, hput⟩
    · rw [hsame]
    · rw [hput, hc, Option.map_some, Option.map_some, heq]
  exact ⟨h.places, fun other id' => (hstored other id').trans (h.stored other id'), h.networks,
    fun other partner => (partnerChannel?_putChannel v _ _ c' other partner).trans
      (h.partners other partner)⟩

/-- A channel that is new at its place comes first in all indexes. -/
theorem Indexed.addChannel (h : v.Indexed opened) {c : Channel}
    (hnew : c.opening.place ∉ opened.map Opening.place) :
    (v.addChannel c).Indexed (c.opening :: opened) where
  places := List.nodup_cons.mpr ⟨hnew, h.places⟩
  stored tokenNetwork id := by
    -- Each index is asked for the new entry first, and for the rest as before.
    rw [Opening.at?, List.find?_cons]
    by_cases hplace : c.opening.place = (tokenNetwork, id)
    · rw [decide_eq_true hplace]
      rw [Opening.place, Prod.mk.injEq] at hplace
      obtain ⟨rfl, rfl⟩ := hplace
      exact congrArg (Option.map Channel.opening) (stored?_addChannel_self v c)
    · rw [decide_eq_false hplace,
        stored?_addChannel_of_ne (fun heq => hplace (Prod.ext heq.1.symm heq.2.symm))]
      exact h.stored tokenNetwork id
  networks id := by
    rw [Opening.latest?, List.find?_cons]
    by_cases hid : c.id = id
    · subst hid
      rw [decide_eq_true (show c.opening.channelId = c.id from rfl)]
      exact SortedMap.get?_insert_self ..
    · rw [decide_eq_false (show ¬ c.opening.channelId = id from hid)]
      exact (SortedMap.get?_insert_of_ne (Ne.symm hid)).trans (h.networks id)
  partners tokenNetwork partner := by
    rw [Opening.latestWith?, List.find?_cons, partnerChannel?_addChannel]
    by_cases hp : c.tokenNetwork = tokenNetwork ∧ c.partner.address = partner
    · rw [if_pos hp, decide_eq_true (show c.opening.tokenNetwork = tokenNetwork ∧
        c.opening.partner = partner from hp)]
      rfl
    · rw [if_neg hp, decide_eq_false (show ¬ (c.opening.tokenNetwork = tokenNetwork ∧
        c.opening.partner = partner) from hp)]
      exact h.partners tokenNetwork partner

/-- A place is stored exactly if it was opened. -/
theorem Indexed.isSome_stored? (h : v.Indexed opened) (tokenNetwork : Address) (id : ChannelId) :
    (v.stored? tokenNetwork id).isSome ↔ (tokenNetwork, id) ∈ opened.map Opening.place := by
  rw [← Option.isSome_map (f := Channel.opening), h.stored, ← not_iff_not,
    Bool.not_eq_true, Option.isSome_eq_false_iff, Option.isNone_iff_eq_none,
    Opening.at?_eq_none_iff]

/-- One event keeps the indexes, if it is noted in case that it opens a channel. -/
theorem Indexed.apply (h : v.Indexed opened) (e : ChainEvent) :
    (v.apply e).Indexed
      (((e.opening? v.ourAddress).toList).foldl Opening.record opened) := by
  have hsame := v.sameChannels_learn e
  have hchange := v.change_apply e
  rw [v.opening?_eq]
  generalize v.apply e = w at hchange ⊢
  cases hchange with
  | @opens c hopened hfree =>
      -- The place is free, so it was never opened: channels are not forgotten.
      have hmem : c.opening.place ∉ opened.map Opening.place := by
        intro hplace
        have hsome : (v.stored? c.tokenNetwork c.id).isSome := (h.isSome_stored? _ _).mpr hplace
        rw [hfree] at hsome
        cases hsome
      rw [hopened, Option.map_some, Option.toList_some, List.foldl_cons, List.foldl_nil,
        Opening.record, if_neg hmem]
      exact (h.congr hsame).addChannel hmem
  | @turnsDown c hopened htaken =>
      have hmem : c.opening.place ∈ opened.map Opening.place := (h.isSome_stored? _ _).mp htaken
      rw [hopened, Option.map_some, Option.toList_some, List.foldl_cons, List.foldl_nil,
        Opening.record, if_pos hmem]
      exact h.congr hsame
  | @reaches _ _ c hopened hid hfind =>
      rw [hopened]
      exact h.putChannel hfind (Channel.applyEvent_opening c e)
  | learns hopened =>
      rw [hopened]
      exact h.congr hsame

theorem applyAll_append_singleton (v : NetworkView) (events : List ChainEvent) (e : ChainEvent) :
    v.applyAll (events ++ [e]) = (v.applyAll events).apply e := by
  rw [applyAll, List.foldl_append, List.foldl_cons, List.foldl_nil, applyAll]

theorem ourAddress_applyAll (v : NetworkView) (events : List ChainEvent) :
    (v.applyAll events).ourAddress = v.ourAddress := by
  induction events using List.reverseRec with
  | nil => rfl
  | append_singleton events e ih => rw [applyAll_append_singleton, ourAddress_apply, ih]

theorem indexed_applyAll (ourAddress : Address) (revealTimeout : Height)
    (events : List ChainEvent) :
    ((fresh ourAddress revealTimeout).applyAll events).Indexed (ourOpenings ourAddress events) := by
  induction events using List.reverseRec with
  | nil => exact indexed_fresh ourAddress revealTimeout
  | append_singleton events e ih =>
      have hstep := ih.apply e
      rw [ourAddress_applyAll] at hstep
      rw [applyAll_append_singleton, ourOpenings_append_singleton]
      exact hstep

/-! ### What the indexes answer -/

theorem Indexed.mem_channels (h : v.Indexed opened) {tokenNetwork : Address} {c : Channel} :
    c ∈ v.channels tokenNetwork ↔ v.stored? tokenNetwork c.id = some c := by
  rw [channels, SortedMap.mem_values_iff]
  constructor
  · rintro ⟨id, hget⟩
    have hstored : v.stored? tokenNetwork id = some c := hget
    have hat := h.stored tokenNetwork id
    rw [hstored, Option.map_some] at hat
    obtain ⟨-, -, hid⟩ := Opening.at?_eq_some hat.symm
    rwa [show c.id = id from hid]
  · intro hget
    exact ⟨c.id, hget⟩

/-- A listed channel names the network that lists it, and came from an opening. -/
theorem Indexed.opening_of_mem (h : v.Indexed opened) {tokenNetwork : Address} {c : Channel}
    (hc : c ∈ v.channels tokenNetwork) : c.tokenNetwork = tokenNetwork ∧ c.opening ∈ opened := by
  have hat := h.stored tokenNetwork c.id
  rw [h.mem_channels.mp hc, Option.map_some] at hat
  obtain ⟨hmem, hnetwork, -⟩ := Opening.at?_eq_some hat.symm
  exact ⟨hnetwork, hmem⟩

theorem Indexed.stored?_of_mem (h : v.Indexed opened) {o : Opening} (ho : o ∈ opened) :
    ∃ c, v.stored? o.tokenNetwork o.channelId = some c ∧ c.opening = o := by
  have hat := h.stored o.tokenNetwork o.channelId
  rw [Opening.at?_of_mem h.places ho, Option.map_eq_some_iff] at hat
  exact hat

/-- A channel is stored under its own identifier, so a network lists its channels in the order
    of their identifiers. -/
theorem Indexed.map_id_channels (h : v.Indexed opened) (tokenNetwork : Address) :
    (v.channels tokenNetwork).map Channel.id = (v.network tokenNetwork).channels.keys := by
  rw [channels, SortedMap.values, SortedMap.keys, List.map_map]
  refine List.map_congr_left (fun entry hentry => ?_)
  have hat := h.stored tokenNetwork entry.1
  rw [show v.stored? tokenNetwork entry.1 = some entry.2 from
    SortedMap.get?_eq_some_iff.mpr hentry, Option.map_some] at hat
  obtain ⟨-, -, hid⟩ := Opening.at?_eq_some hat.symm
  exact hid

/-- A network lists its channels in the order of their identifiers. -/
theorem Indexed.channels_ordered (h : v.Indexed opened) (tokenNetwork : Address) :
    (v.channels tokenNetwork).Pairwise fun c d => compare c.id d.id = .lt := by
  have hkeys : (v.network tokenNetwork).channels.keys.Pairwise fun k k' => compare k k' = .lt :=
    List.pairwise_map.mpr (v.network tokenNetwork).channels.sorted
  rw [← h.map_id_channels] at hkeys
  exact List.pairwise_map.mp hkeys

/-- A network lists one channel for each place that was opened in it. -/
theorem Indexed.channels_perm (h : v.Indexed opened) (tokenNetwork : Address) :
    ((v.channels tokenNetwork).map Channel.opening).Perm
      (opened.filter fun o => o.tokenNetwork = tokenNetwork) := by
  have hnodup : ((v.channels tokenNetwork).map Channel.opening).Nodup := by
    refine List.Nodup.of_map Opening.channelId ?_
    rw [List.map_map]
    exact (show (v.channels tokenNetwork).map (Opening.channelId ∘ Channel.opening) = _ from
      h.map_id_channels tokenNetwork)
      ▸ SortedMap.nodup_keys _
  -- Neither list says anything twice, so it is enough that they say the same.
  refine (List.perm_ext_iff_of_nodup hnodup ((List.Nodup.of_map _ h.places).filter _)).mpr ?_
  intro o
  rw [List.mem_map, List.mem_filter, decide_eq_true_eq]
  constructor
  · rintro ⟨c, hc, rfl⟩
    obtain ⟨hnetwork, hmem⟩ := h.opening_of_mem hc
    exact ⟨hmem, hnetwork⟩
  · rintro ⟨hmem, rfl⟩
    obtain ⟨c, hc, rfl⟩ := h.stored?_of_mem hmem
    exact ⟨c, h.mem_channels.mpr hc, rfl⟩

/-- An identifier finds the channel that was opened last under it. -/
theorem Indexed.channel?_opening (h : v.Indexed opened) (id : ChannelId) :
    (v.channel? id).map Channel.opening = Opening.latest? opened id := by
  rw [channel?_eq, h.networks]
  cases hlatest : Opening.latest? opened id with
  | none => rfl
  | some o =>
      obtain ⟨hmem, rfl⟩ := Opening.latest?_eq_some hlatest
      rw [Option.map_some, Option.bind_some, h.stored, Opening.at?_of_mem h.places hmem]

theorem Indexed.mem_of_channel? (h : v.Indexed opened) {id : ChannelId} {c : Channel}
    (hc : v.channel? id = some c) : c.id = id ∧ c ∈ v.channels c.tokenNetwork := by
  have hlatest := h.channel?_opening id
  rw [hc, Option.map_some] at hlatest
  obtain ⟨-, hid⟩ := Opening.latest?_eq_some hlatest.symm
  rw [channel?_eq, h.networks, ← hlatest, Option.map_some, Option.bind_some] at hc
  refine ⟨hid, h.mem_channels.mpr ?_⟩
  rwa [show c.id = id from hid]

/-- A listed channel is found exactly if its opening is the latest of its identifier. -/
theorem Indexed.channel?_of_mem (h : v.Indexed opened) {tokenNetwork : Address} {c : Channel}
    (hc : c ∈ v.channels tokenNetwork) :
    v.channel? c.id = some c ↔ Opening.latest? opened c.id = some c.opening := by
  have hlatest := h.channel?_opening c.id
  constructor
  · intro hfound
    rw [← hlatest, hfound, Option.map_some]
  · intro hopening
    rw [channel?_eq, h.networks, hopening, Option.map_some, Option.bind_some]
    obtain ⟨hnetwork, -⟩ := h.opening_of_mem hc
    rw [show c.opening.tokenNetwork = tokenNetwork from hnetwork]
    exact h.mem_channels.mp hc

/-- A partner finds the channel that was opened last with it in a network. -/
theorem Indexed.channelByPartner?_opening (h : v.Indexed opened)
    (tokenNetwork partner : Address) :
    (v.channelByPartner? tokenNetwork partner).map Channel.opening
      = Opening.latestWith? opened tokenNetwork partner := by
  rw [channelByPartner?_eq, h.partners]
  cases hlatest : Opening.latestWith? opened tokenNetwork partner with
  | none => rfl
  | some o =>
      obtain ⟨hmem, rfl, -⟩ := Opening.latestWith?_eq_some hlatest
      rw [Option.map_some, Option.bind_some, h.stored, Opening.at?_of_mem h.places hmem]

theorem Indexed.mem_of_channelByPartner? (h : v.Indexed opened) {tokenNetwork partner : Address}
    {c : Channel} (hc : v.channelByPartner? tokenNetwork partner = some c) :
    c ∈ v.channels tokenNetwork := by
  have hlatest := h.channelByPartner?_opening tokenNetwork partner
  rw [hc, Option.map_some] at hlatest
  rw [channelByPartner?_eq, h.partners, ← hlatest, Option.map_some, Option.bind_some] at hc
  exact h.mem_channels.mpr hc

/-! ### Agreement -/

/-- The indexes of a view agree: every channel that is listed is the one found under its
    identifier, and what is found under an identifier is listed in one network alone. -/
structure Agree (v : NetworkView) : Prop where
  found : ∀ tokenNetwork c, c ∈ v.channels tokenNetwork →
    c.tokenNetwork = tokenNetwork ∧ v.channel? c.id = some c
  once : ∀ id c, v.channel? id = some c → ∀ tokenNetwork,
    (∃ d ∈ v.channels tokenNetwork, d.id = id) ↔ tokenNetwork = c.tokenNetwork

/-- The indexes agree exactly if no identifier was opened in two networks. -/
theorem Indexed.agree_iff (h : v.Indexed opened) :
    v.Agree ↔ ∀ o ∈ opened, ∀ o' ∈ opened, o.channelId = o'.channelId → o = o' := by
  constructor
  · intro hagree o ho o' ho' hid
    obtain ⟨c, hc, rfl⟩ := h.stored?_of_mem ho
    obtain ⟨c', hc', rfl⟩ := h.stored?_of_mem ho'
    -- Both are found under the identifier that they share.
    have hfound := (hagree.found _ c (h.mem_channels.mpr hc)).2
    have hfound' := (hagree.found _ c' (h.mem_channels.mpr hc')).2
    rw [show c.id = c'.id from hid, hfound', Option.some.injEq] at hfound
    rw [hfound]
  · intro hunique
    refine ⟨fun tokenNetwork c hc => ?_, fun id c hc tokenNetwork => ?_⟩
    · obtain ⟨hnetwork, hmem⟩ := h.opening_of_mem hc
      refine ⟨hnetwork, (h.channel?_of_mem hc).mpr ?_⟩
      obtain ⟨o, ho⟩ := Option.isSome_iff_exists.mp (Opening.isSome_latest? hmem)
      obtain ⟨hmem', hid⟩ := Opening.latest?_eq_some ho
      rw [← hunique o hmem' c.opening hmem hid]
      exact ho
    · obtain ⟨rfl, hlisted⟩ := h.mem_of_channel? hc
      constructor
      · rintro ⟨d, hd, hid⟩
        obtain ⟨hnetwork, hmem⟩ := h.opening_of_mem hd
        have hsame := hunique _ hmem _ (h.opening_of_mem hlisted).2 hid
        rw [← hnetwork]
        exact congrArg Opening.tokenNetwork hsame
      · rintro rfl
        exact ⟨c, hlisted, rfl⟩

/-! ### What changes the channels -/

/-- Replacing the channel found under an identifier changes this channel and no other. -/
theorem Indexed.stored?_putChannel (h : v.Indexed opened) {id : ChannelId}
    {tokenNetwork : Address} {c : Channel} (hfind : v.find? id = some (tokenNetwork, c))
    (c' : Channel) (other : Address) (id' : ChannelId) :
    (v.putChannel tokenNetwork id c').stored? other id'
      = (v.stored? other id').map fun d => if v.channel? id = some d then c' else d := by
  have hfound := channel?_of_find? hfind
  rcases stored?_putChannel_cases hfind c' other id' with hsame | ⟨rfl, rfl, hc, hput⟩
  · rw [hsame]
    cases hd : v.stored? other id' with
    | none => rfl
    | some d =>
        -- What is stored elsewhere came from another opening.
        by_cases hcd : v.channel? id = some d
        · rw [hfound, Option.some.injEq] at hcd
          subst hcd
          have hhome := h.stored tokenNetwork id
          have haway := h.stored other id'
          rw [stored?_of_find? hfind, Option.map_some] at hhome
          rw [hd, Option.map_some] at haway
          obtain ⟨-, hnetwork, hid⟩ := Opening.at?_eq_some hhome.symm
          obtain ⟨-, hnetwork', hid'⟩ := Opening.at?_eq_some haway.symm
          rw [hnetwork] at hnetwork'
          rw [hid] at hid'
          subst hnetwork' hid'
          rw [stored?_putChannel_self, hd] at hsame
          rw [Option.map_some, if_pos hfound, ← hsame]
        · rw [Option.map_some, if_neg hcd]
  · rw [hput, hc, Option.map_some, if_pos hfound]

/-- An event reaches the channel found under its identifier and no other. -/
theorem Indexed.stored?_apply_of_not_opening (h : v.Indexed opened) {e : ChainEvent}
    {id : ChannelId} (hid : e.channelId? = some id) (hopening : e.isOpening = false)
    (tokenNetwork : Address) (id' : ChannelId) :
    (v.apply e).stored? tokenNetwork id'
      = (v.stored? tokenNetwork id').map fun c =>
          if v.channel? id = some c then c.applyEvent e else c := by
  have hkept : ∀ (found : Option Channel), (∀ c, found = some c → v.channel? id ≠ some c) →
      found.map (fun c => if v.channel? id = some c then c.applyEvent e else c) = found := by
    intro found hother
    cases found with
    | none => rfl
    | some c => rw [Option.map_some, if_neg (hother c rfl)]
  have hsame := v.sameChannels_learn e
  have hchange := v.change_apply e
  generalize v.apply e = w at hchange ⊢
  cases hchange with
  | opens hopened =>
      rw [isOpening_of_opened? hopened] at hopening
      cases hopening
  | turnsDown hopened =>
      rw [isOpening_of_opened? hopened] at hopening
      cases hopening
  | learns hopened hnone =>
      -- Nothing is found under the identifier, so nothing is to be changed.
      rw [hid, Option.bind_some, hopening] at hnone
      rw [hsame.stored, hkept]
      intro c _ hfound
      rw [channel?, hnone.resolve_right Bool.false_ne_true] at hfound
      cases hfound
  | @reaches id₁ network c hopened hid₁ hfind =>
      rw [hid, Option.some.injEq] at hid₁
      subst hid₁
      rw [h.stored?_putChannel hfind]
      refine congrFun (congrArg Option.map (funext fun d => ?_)) _
      by_cases hd : v.channel? id = some d
      · rw [if_pos hd, if_pos hd]
        rw [channel?_of_find? hfind, Option.some.injEq] at hd
        rw [hd]
      · rw [if_neg hd, if_neg hd]

/-- An operation reaches the channel found under its identifier and no other. -/
theorem Indexed.withChannel_eq (h : v.Indexed opened) {ε α : Type} (id : ChannelId)
    (operation : Channel → Except ε (α × Channel)) :
    (v.withChannel id operation = none ↔ v.channel? id = none) ∧
    ∀ a v', v.withChannel id operation = some (.ok (a, v')) →
      ∃ c c', v.channel? id = some c ∧ operation c = .ok (a, c') ∧
        ∀ tokenNetwork id', NetworkView.stored? v' tokenNetwork id'
          = (v.stored? tokenNetwork id').map fun d => if v.channel? id = some d then c' else d := by
  rw [withChannel, channel?]
  cases hfind : v.find? id with
  | none =>
      refine ⟨⟨fun _ => rfl, fun _ => rfl⟩, fun a v' hop => ?_⟩
      cases hop
  | some found =>
      rcases found with ⟨network, c⟩
      dsimp only
      cases hop : operation c with
      | error e =>
          refine ⟨⟨fun hnone => ?_, fun hnone => ?_⟩, fun a v' hok => ?_⟩
          · cases hnone
          · cases hnone
          · cases hok
      | ok result =>
          refine ⟨⟨fun hnone => ?_, fun hnone => ?_⟩, fun a v' hok => ?_⟩
          · cases hnone
          · cases hnone
          · cases hok
            have hput := h.stored?_putChannel hfind result.2
            rw [channel?, hfind] at hput
            exact ⟨c, result.2, rfl, hop, hput⟩

/-- An opening at a new place keeps every stored channel, and it changes what is found
    under its own identifier alone. -/
theorem apply_new_opening {e : ChainEvent} {o : Opening}
    (he : e.opening? v.ourAddress = some o)
    (hnew : v.stored? o.tokenNetwork o.channelId = none) :
    (∀ tokenNetwork id c, v.stored? tokenNetwork id = some c →
      (v.apply e).stored? tokenNetwork id = some c) ∧
    (∀ id, id ≠ o.channelId → (v.apply e).channel? id = v.channel? id) ∧
    ∃ c, c.opening = o ∧ (v.apply e).channel? o.channelId = some c := by
  have hsame := v.sameChannels_learn e
  have hchange := v.change_apply e
  rw [v.opening?_eq] at he
  generalize v.apply e = w at hchange ⊢
  cases hchange with
  | @opens c hopened hfree =>
      -- The new channel takes a place that was free, so no stored one gives way to it.
      obtain rfl : c.opening = o := by simpa [hopened] using he
      refine ⟨fun tokenNetwork id d hd => ?_, fun id hid => ?_, c, rfl,
        channel?_of_find? (find?_addChannel_self _ c)⟩
      · rw [stored?_addChannel_of_ne, hsame.stored, hd]
        rintro ⟨rfl, rfl⟩
        rw [hfree] at hd
        cases hd
      · rw [channel?, find?_addChannel_of_ne hid]
        exact hsame.channel? id
  | @turnsDown c hopened htaken =>
      obtain rfl : c.opening = o := by simpa [hopened] using he
      rw [show v.stored? c.tokenNetwork c.id = none from hnew] at htaken
      cases htaken
  | reaches hopened =>
      rw [hopened] at he
      cases he
  | learns hopened =>
      rw [hopened] at he
      cases he

/-- An opening at a place that is taken changes no index. -/
theorem apply_taken_opening {e : ChainEvent} {o : Opening}
    (he : e.opening? v.ourAddress = some o)
    (htaken : (v.stored? o.tokenNetwork o.channelId).isSome) : v.SameChannels (v.apply e) := by
  have hsame := v.sameChannels_learn e
  have hchange := v.change_apply e
  rw [v.opening?_eq] at he
  generalize v.apply e = w at hchange ⊢
  cases hchange with
  | @opens c hopened hfree =>
      obtain rfl : c.opening = o := by simpa [hopened] using he
      rw [show v.stored? c.opening.tokenNetwork c.opening.channelId = none from hfree] at htaken
      cases htaken
  | turnsDown => exact hsame
  | reaches hopened =>
      rw [hopened] at he
      cases he
  | learns => exact hsame

end Indexed

/-- What the indexes of a view answer after openings, and what openings, events and
    operations do to the channels. -/
structure IndexLaw (v : NetworkView) (opened : List Opening) : Prop where
  /-- A network lists one channel for each place that was opened in it, and no other. -/
  listed : ∀ tokenNetwork, ((v.channels tokenNetwork).map Channel.opening).Perm
    (opened.filter fun o => o.tokenNetwork = tokenNetwork)
  /-- An identifier finds the channel that was opened last under it, in any network. -/
  found : ∀ id, (v.channel? id).map Channel.opening = Opening.latest? opened id ∧
    ∀ c, v.channel? id = some c → c ∈ v.channels c.tokenNetwork
  /-- So a listed channel is found exactly if its identifier was not opened later in another
      network. -/
  shown : ∀ tokenNetwork c, c ∈ v.channels tokenNetwork →
    (v.channel? c.id = some c ↔ Opening.latest? opened c.id = some c.opening)
  /-- A partner finds the channel of the network that was opened last with it. -/
  byPartner : ∀ tokenNetwork partner,
    (v.channelByPartner? tokenNetwork partner).map Channel.opening
      = Opening.latestWith? opened tokenNetwork partner ∧
    ∀ c, v.channelByPartner? tokenNetwork partner = some c → c ∈ v.channels tokenNetwork
  /-- The indexes agree exactly if no identifier was opened in two networks. -/
  agree : v.Agree ↔ ∀ o ∈ opened, ∀ o' ∈ opened, o.channelId = o'.channelId → o = o'
  /-- A second opening of a place changes none of the answers. -/
  again : ∀ e o, e.opening? v.ourAddress = some o → o.place ∈ opened.map Opening.place →
    (∀ tokenNetwork, (v.apply e).channels tokenNetwork = v.channels tokenNetwork) ∧
    (∀ id, (v.apply e).channel? id = v.channel? id) ∧
    ∀ tokenNetwork partner,
      (v.apply e).channelByPartner? tokenNetwork partner = v.channelByPartner? tokenNetwork partner
  /-- The first opening of a place leaves every channel in its list, and it changes what is
      found under its own identifier alone: this finds the new channel from then on. -/
  first : ∀ e o, e.opening? v.ourAddress = some o → o.place ∉ opened.map Opening.place →
    (∀ tokenNetwork c, c ∈ v.channels tokenNetwork → c ∈ (v.apply e).channels tokenNetwork) ∧
    (∀ id, id ≠ o.channelId → (v.apply e).channel? id = v.channel? id) ∧
    ∃ c, c.opening = o ∧ (v.apply e).channel? o.channelId = some c
  /-- Any other event of an identifier reaches the channel that is found under it and no
      other. -/
  reached : ∀ e id, e.channelId? = some id → e.isOpening = false → ∀ tokenNetwork id',
    (v.apply e).stored? tokenNetwork id' = (v.stored? tokenNetwork id').map fun c =>
      if v.channel? id = some c then c.applyEvent e else c
  /-- An operation on an identifier is refused if no channel is found, and reaches the one
      that is found and no other. -/
  operated : ∀ {ε α : Type} id (operation : Channel → Except ε (α × Channel)),
    (v.withChannel id operation = none ↔ v.channel? id = none) ∧
    ∀ a v', v.withChannel id operation = some (.ok (a, v')) →
      ∃ c c', v.channel? id = some c ∧ operation c = .ok (a, c') ∧
        ∀ tokenNetwork id', NetworkView.stored? v' tokenNetwork id'
          = (v.stored? tokenNetwork id').map fun d => if v.channel? id = some d then c' else d

/-- After any events the indexes of the view are those of the openings among them. -/
theorem applyAll_indexLaw (ourAddress : Address) (revealTimeout : Height)
    (events : List ChainEvent) :
    IndexLaw ((fresh ourAddress revealTimeout).applyAll events)
      (ourOpenings ourAddress events) := by
  have h := indexed_applyAll ourAddress revealTimeout events
  exact {
    listed := h.channels_perm
    found := fun id => ⟨h.channel?_opening id, fun c hc => (h.mem_of_channel? hc).2⟩
    shown := fun tokenNetwork c hc => h.channel?_of_mem hc
    byPartner := fun tokenNetwork partner =>
      ⟨h.channelByPartner?_opening tokenNetwork partner, fun c => h.mem_of_channelByPartner?⟩
    agree := h.agree_iff
    again := by
      intro e o he hplace
      have hsame := apply_taken_opening he ((h.isSome_stored? _ _).mpr hplace)
      exact ⟨hsame.channels, hsame.channel?, hsame.channelByPartner?⟩
    first := by
      intro e o he hplace
      have hnew := Option.not_isSome_iff_eq_none.mp
        (mt (h.isSome_stored? o.tokenNetwork o.channelId).mp hplace)
      obtain ⟨hkept, hother, hfound⟩ := apply_new_opening he hnew
      refine ⟨fun tokenNetwork c hc => ?_, hother, hfound⟩
      exact (h.apply e).mem_channels.mpr (hkept _ _ _ (h.mem_channels.mp hc))
    reached := fun e id => h.stored?_apply_of_not_opening
    operated := fun id operation => h.withChannel_eq id operation }

namespace SharedId

/-! ### One identifier in two networks -/

def us : Address := FixedBytes.replicate 20 1

/-- The identifier of both channels. -/
def channelId : ChannelId := FixedBytes.replicate 32 21

/-- The channel is opened with a partner in a network. -/
def opened (tokenNetwork partner : UInt8) (block : Height) : ChainEvent :=
  .channelOpened (FixedBytes.replicate 20 tokenNetwork) channelId us
    (FixedBytes.replicate 20 partner) 50 block

/-- The channel of the second network hides the one of the first, so the indexes of the
    view do not agree. -/
theorem disagree_after_both :
    ¬ ∀ ourAddress revealTimeout events,
      ((fresh ourAddress revealTimeout).applyAll events).Agree := by
  intro h
  have hagree := h us 5 [opened 10 2 1, opened 11 3 2]
  rw [(indexed_applyAll us 5 [opened 10 2 1, opened 11 3 2]).agree_iff] at hagree
  have hopenings : ourOpenings us [opened 10 2 1, opened 11 3 2]
      = [⟨FixedBytes.replicate 20 11, channelId, FixedBytes.replicate 20 3⟩,
        ⟨FixedBytes.replicate 20 10, channelId, FixedBytes.replicate 20 2⟩] := by decide
  rw [hopenings] at hagree
  have hsame := hagree _ List.mem_cons_self _ (List.mem_cons_of_mem _ List.mem_cons_self) rfl
  exact absurd (congrArg Opening.tokenNetwork hsame) (by decide)

end SharedId

end NetworkView

end PaymentNetwork

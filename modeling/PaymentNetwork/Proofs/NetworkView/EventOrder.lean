import PaymentNetwork.Proofs.Chain.Delivery
import PaymentNetwork.Proofs.NetworkView.Effects

/-!
# The Order of Events

What depends on the order in which a view applies the events of the ledger.

Events of different channels commute, and the reason is one for all kinds of events. What a
view holds about an identifier, `SameAt`, is left alone by every event that is not about it,
and what an event makes of it is decided by it alone. So of two events that are not about the
same channel, one can be left out of account wherever the other one acts, in either order.
What is held about networks and participants only grows, by what stands in the events.

One map is left: the latest channel with a partner. Two openings with the same partner write
to the same entry, and there the later one wins. So this entry depends on the order of the
openings with its partner, and nothing else depends on the order of events of different
channels.

From two events that change places follow any number of them. Two lists of the same events
lead to views with the same answers, if the events of each channel stand in the same order
in both. The ledger is delivered as a stable sort by block, and sorting keeps such an order,
so it is enough that the events of each channel arrive in the same order.

## Main definitions

* `Exchanges`: Steps that share no class change places.
* `ChainEvent.Apart`: The events are not about the same channel.
* `NetworkView.SameAt`: Two views hold the same about an identifier.
* `NetworkView.Matches`: Two views hold the same, but for some of the partners.
* `NetworkView.OrderMatters`: The events that have to stay in their order.
* `NetworkView.SameAnswers`: Two views give the same answers.
* `NetworkView.OrderLaw`: What depends on the order of events, and what does not.

## Theorems

* `Exchanges.foldl_perm`: The same steps come to the same in every order that keeps the
  order within each class.
* `NetworkView.SameAt.apply`, `NetworkView.sameAt_apply_of_not_concerns`,
  `NetworkView.sameAt_apply_comm`: An event depends on what is held about its identifier,
  leaves all others alone, and so it changes places.
* `NetworkView.matches_apply_comm`: Two events change places.
* `NetworkView.exchanges_apply`: Events are steps that change places.
* `NetworkView.orderLaw`: The law for every view.
-/

namespace PaymentNetwork

/-! ### Steps that change places -/

section Exchange

variable {α β : Type} {f : β → α → β} {R : β → β → Prop} {Class : (α → Bool) → Prop}

/-- Two steps that share no class come to the same in either order, up to a relation that all
    steps keep. -/
structure Exchanges (f : β → α → β) (R : β → β → Prop) (Class : (α → Bool) → Prop) : Prop where
  refl : ∀ s, R s s
  trans : ∀ {s t u}, R s t → R t u → R s u
  step : ∀ {s t} a, R s t → R (f s a) (f t a)
  swap : ∀ s a b, (∀ p, Class p → ¬ (p a = true ∧ p b = true)) → R (f (f s a) b) (f (f s b) a)

theorem Exchanges.foldl_congr (h : Exchanges f R Class) (xs : List α) {s t : β} (hst : R s t) :
    R (xs.foldl f s) (xs.foldl f t) := by
  induction xs generalizing s t with
  | nil => exact hst
  | cons a rest ih => exact ih (h.step a hst)

/-- A step can be made before all those that it shares no class with. -/
theorem Exchanges.foldl_middle (h : Exchanges f R Class) {a : α} {before : List α}
    (hapart : ∀ b ∈ before, ∀ p, Class p → ¬ (p a = true ∧ p b = true)) (after : List α) (s : β) :
    R ((before ++ after).foldl f (f s a)) ((before ++ a :: after).foldl f s) := by
  induction before generalizing s with
  | nil => exact h.refl _
  | cons b before ih =>
      have hswap := h.swap s a b (hapart b List.mem_cons_self)
      exact h.trans (h.foldl_congr (before ++ after) hswap)
        (ih (fun c hc => hapart c (List.mem_cons_of_mem b hc)) (f s b))

/-- The same steps come to the same in every order that keeps the order within each class. -/
theorem Exchanges.foldl_perm (h : Exchanges f R Class) {xs ys : List α} (hperm : xs.Perm ys)
    (hclass : ∀ p, Class p → xs.filter p = ys.filter p) (s : β) :
    R (xs.foldl f s) (ys.foldl f s) := by
  induction xs generalizing ys s with
  | nil =>
      rw [hperm.nil_eq]
      exact h.refl _
  | cons a rest ih =>
      obtain ⟨before, after, rfl, hfirst⟩ :=
        List.eq_append_cons_of_mem (hperm.subset List.mem_cons_self)
      -- What shares a class with the first step cannot stand before it in the other order.
      have hapart : ∀ b ∈ before, ∀ p, Class p → ¬ (p a = true ∧ p b = true) := by
        rintro b hb p hp ⟨ha, hpb⟩
        have hmem : b ∈ before.filter p := List.mem_filter.mpr ⟨hb, hpb⟩
        have hheads := congrArg List.head? (hclass p hp)
        rw [List.filter_cons_of_pos ha, List.filter_append,
          List.head?_append_of_ne_nil _ (List.ne_nil_of_mem hmem), List.head?_cons] at hheads
        exact hfirst (List.mem_filter.mp (List.mem_of_mem_head? hheads.symm)).1
      have hrest : ∀ p, Class p → rest.filter p = (before ++ after).filter p := by
        intro p hp
        have heq := hclass p hp
        by_cases ha : p a = true
        · have hnone : before.filter p = [] :=
            List.filter_eq_nil_iff.mpr fun b hb hpb => hapart b hb p hp ⟨ha, hpb⟩
          rw [List.filter_append, hnone, List.nil_append]
          rw [List.filter_append, hnone, List.nil_append, List.filter_cons_of_pos ha,
            List.filter_cons_of_pos ha] at heq
          exact (List.cons.inj heq).2
        · rwa [List.filter_cons_of_neg ha, List.filter_append, List.filter_cons_of_neg ha,
            ← List.filter_append] at heq
      exact h.trans (ih (hperm.trans List.perm_middle).cons_inv hrest (f s a))
        (h.foldl_middle hapart after s)

end Exchange

namespace ChainEvent

/-- The events are about two channels, or one of them is about none. -/
def Apart (e e' : ChainEvent) : Prop := ∀ id, ¬ (e.concerns id = true ∧ e'.concerns id = true)

theorem Apart.symm {e e' : ChainEvent} (h : e.Apart e') : e'.Apart e :=
  fun id hboth => h id hboth.symm

end ChainEvent

namespace NetworkView

variable {u v w : NetworkView} {e e' : ChainEvent} {known : Address → Address → Prop}

theorem opened?_congr (haddress : v.ourAddress = w.ourAddress)
    (htimeout : v.revealTimeout = w.revealTimeout) (e : ChainEvent) :
    v.opened? e = w.opened? e := by
  cases e <;> simp only [opened?, partnerOf?, haddress, htimeout]

/-! ### One identifier -/

/-- Two views hold the same about an identifier, and open channels in the same way. -/
structure SameAt (id : ChannelId) (v w : NetworkView) : Prop where
  ourAddress : v.ourAddress = w.ourAddress
  revealTimeout : v.revealTimeout = w.revealTimeout
  stored : ∀ tokenNetwork, v.stored? tokenNetwork id = w.stored? tokenNetwork id
  home : v.channelNetworks.get? id = w.channelNetworks.get? id

section SameAt

variable {id : ChannelId}

theorem SameAt.symm (h : SameAt id v w) : SameAt id w v :=
  ⟨h.ourAddress.symm, h.revealTimeout.symm, fun t => (h.stored t).symm, h.home.symm⟩

theorem SameAt.trans (h : SameAt id u v) (h' : SameAt id v w) : SameAt id u w :=
  ⟨h.ourAddress.trans h'.ourAddress, h.revealTimeout.trans h'.revealTimeout,
    fun t => (h.stored t).trans (h'.stored t), h.home.trans h'.home⟩

/-- What an event makes of an identifier is decided by what is held about it. -/
theorem SameAt.apply (h : SameAt id v w) (e : ChainEvent) : SameAt id (v.apply e) (w.apply e) where
  ourAddress := by rw [ourAddress_apply, ourAddress_apply, h.ourAddress]
  revealTimeout := by rw [revealTimeout_apply, revealTimeout_apply, h.revealTimeout]
  stored t := by
    rw [stored?_apply_eq, stored?_apply_eq, opened?_congr h.ourAddress h.revealTimeout, h.stored,
      h.home]
  home := by
    simp only [channelNetworks_apply_eq, opened?_congr h.ourAddress h.revealTimeout, h.stored,
      h.home]

/-- An event leaves all identifiers alone that it is not about. -/
theorem sameAt_apply_of_not_concerns (h : ¬ e.concerns id = true) (v : NetworkView) :
    SameAt id (v.apply e) v where
  ourAddress := ourAddress_apply v e
  revealTimeout := revealTimeout_apply v e
  stored t := by
    rw [ChainEvent.concerns, decide_eq_true_eq] at h
    rw [stored?_apply_eq]
    split
    · rename_i c hopened
      refine if_neg fun hplace => h ?_
      rw [channelId?_of_opened? hopened, hplace.2]
    · exact if_neg fun hreached => h hreached.1
  home := by
    rw [ChainEvent.concerns, decide_eq_true_eq] at h
    rw [channelNetworks_apply_eq]
    split
    · rename_i c hopened
      refine if_neg fun hplace => h ?_
      rw [channelId?_of_opened? hopened, hplace.1]
    · rfl

/-- Such an event can come before or after any other. -/
theorem sameAt_apply_comm_of_not_concerns (h : ¬ e.concerns id = true) (v : NetworkView)
    (e' : ChainEvent) : SameAt id ((v.apply e).apply e') ((v.apply e').apply e) :=
  ((sameAt_apply_of_not_concerns h v).apply e').trans (sameAt_apply_of_not_concerns h _).symm

theorem sameAt_apply_comm (hapart : e.Apart e') (v : NetworkView) (id : ChannelId) :
    SameAt id ((v.apply e).apply e') ((v.apply e').apply e) := by
  -- No identifier is the concern of both, so one of the two leaves it alone wherever it stands.
  by_cases h : e.concerns id = true
  · have h' : ¬ e'.concerns id = true := fun h' => hapart id ⟨h, h'⟩
    exact (sameAt_apply_comm_of_not_concerns h' v e).symm
  · exact sameAt_apply_comm_of_not_concerns h v e'

end SameAt

/-! ### One partner -/

section Partners

variable {tokenNetwork partner : Address}

/-- What an event makes of the latest channel with a partner is decided by this channel and by
    what is held about the identifier of the event. -/
theorem partnerChannel?_apply_congr (hsame : ∀ id, e.concerns id = true → SameAt id v w)
    (haddress : v.ourAddress = w.ourAddress) (htimeout : v.revealTimeout = w.revealTimeout)
    (h : v.partnerChannel? tokenNetwork partner = w.partnerChannel? tokenNetwork partner) :
    (v.apply e).partnerChannel? tokenNetwork partner
      = (w.apply e).partnerChannel? tokenNetwork partner := by
  rw [partnerChannel?_apply_eq, partnerChannel?_apply_eq, opened?_congr haddress htimeout]
  cases hopened : w.opened? e with
  | none => exact h
  | some c =>
      have hconcerns : e.concerns c.id = true := decide_eq_true (channelId?_of_opened? hopened)
      simp only [(hsame c.id hconcerns).stored, h]

/-- An event that opens no channel of ours with a partner keeps the latest one. -/
theorem partnerChannel?_apply_of_not_opensWith
    (h : ¬ e.opensWith v.ourAddress tokenNetwork partner = true) :
    (v.apply e).partnerChannel? tokenNetwork partner
      = v.partnerChannel? tokenNetwork partner := by
  rw [partnerChannel?_apply_eq]
  split
  · rename_i c hopened
    rw [ChainEvent.opensWith, opening?_eq, hopened, Option.map_some, Option.any_some,
      decide_eq_true_eq] at h
    exact if_neg fun hplace => h hplace.1
  · rfl

theorem partnerChannel?_apply_comm_of_not_opensWith (hapart : e.Apart e')
    (h : ¬ e.opensWith v.ourAddress tokenNetwork partner = true) :
    ((v.apply e).apply e').partnerChannel? tokenNetwork partner
      = ((v.apply e').apply e).partnerChannel? tokenNetwork partner := by
  have hlater : ¬ e.opensWith (v.apply e').ourAddress tokenNetwork partner = true := by
    rwa [ourAddress_apply]
  -- The one that opens nothing with this partner can go. What is left to see is that the other one
  -- finds its own identifier as it would have without it.
  rw [partnerChannel?_apply_of_not_opensWith hlater]
  refine partnerChannel?_apply_congr (fun id h' => ?_) (ourAddress_apply v e)
    (revealTimeout_apply v e) (partnerChannel?_apply_of_not_opensWith h)
  exact sameAt_apply_of_not_concerns (fun hid => hapart id ⟨hid, h'⟩) v

theorem partnerChannel?_apply_comm (hapart : e.Apart e')
    (h : ¬ (e.opensWith v.ourAddress tokenNetwork partner = true ∧
      e'.opensWith v.ourAddress tokenNetwork partner = true)) :
    ((v.apply e).apply e').partnerChannel? tokenNetwork partner
      = ((v.apply e').apply e).partnerChannel? tokenNetwork partner := by
  rcases not_and_or.mp h with h | h
  · exact partnerChannel?_apply_comm_of_not_opensWith hapart h
  · exact (partnerChannel?_apply_comm_of_not_opensWith hapart.symm h).symm

end Partners

/-! ### All of a view -/

/-- Two views hold the same, but for the latest channels with partners that are not known. -/
structure Matches (known : Address → Address → Prop) (v w : NetworkView) : Prop where
  ourAddress : v.ourAddress = w.ourAddress
  revealTimeout : v.revealTimeout = w.revealTimeout
  listed : ∀ tokenNetwork,
    (v.networks.get? tokenNetwork).isSome = (w.networks.get? tokenNetwork).isSome
  participants : ∀ tokenNetwork p, (v.network tokenNetwork).participants.get? p
    = (w.network tokenNetwork).participants.get? p
  blocked : ∀ tokenNetwork, v.isBlocked tokenNetwork = w.isBlocked tokenNetwork
  sameAt : ∀ id, SameAt id v w
  partners : ∀ tokenNetwork partner, known tokenNetwork partner →
    v.partnerChannel? tokenNetwork partner = w.partnerChannel? tokenNetwork partner

theorem Matches.refl (known : Address → Address → Prop) (v : NetworkView) : v.Matches known v :=
  ⟨rfl, rfl, fun _ => rfl, fun _ _ => rfl, fun _ => rfl, fun _ => ⟨rfl, rfl, fun _ => rfl, rfl⟩,
    fun _ _ _ => rfl⟩

theorem Matches.trans (h : u.Matches known v) (h' : v.Matches known w) : u.Matches known w where
  ourAddress := h.ourAddress.trans h'.ourAddress
  revealTimeout := h.revealTimeout.trans h'.revealTimeout
  listed t := (h.listed t).trans (h'.listed t)
  participants t p := (h.participants t p).trans (h'.participants t p)
  blocked t := (h.blocked t).trans (h'.blocked t)
  sameAt id := (h.sameAt id).trans (h'.sameAt id)
  partners t p hp := (h.partners t p hp).trans (h'.partners t p hp)

theorem Matches.apply (h : v.Matches known w) (e : ChainEvent) :
    (v.apply e).Matches known (w.apply e) where
  ourAddress := by rw [ourAddress_apply, ourAddress_apply, h.ourAddress]
  revealTimeout := by rw [revealTimeout_apply, revealTimeout_apply, h.revealTimeout]
  listed t := by rw [isSome_networks_apply, isSome_networks_apply, h.listed]
  participants t p := by rw [get?_participants_apply, get?_participants_apply, h.participants]
  blocked t := by rw [isBlocked_apply, isBlocked_apply, h.blocked]
  sameAt id := (h.sameAt id).apply e
  partners t p hp := partnerChannel?_apply_congr (fun id _ => h.sameAt id) h.ourAddress
    h.revealTimeout (h.partners t p hp)

/-- Two events that are not about the same channel change places, but for the latest channel
    with a partner with whom both open one. -/
theorem matches_apply_comm (hapart : e.Apart e') (v : NetworkView)
    (hknown : ∀ tokenNetwork partner, known tokenNetwork partner →
      ¬ (e.opensWith v.ourAddress tokenNetwork partner = true ∧
        e'.opensWith v.ourAddress tokenNetwork partner = true)) :
    ((v.apply e).apply e').Matches known ((v.apply e').apply e) where
  ourAddress := by simp only [ourAddress_apply]
  revealTimeout := by simp only [revealTimeout_apply]
  listed t := by
    simp only [isSome_networks_apply]
    exact Bool.or_left_comm ..
  participants t p := by
    simp only [get?_participants_apply]
    split <;> split <;> rfl
  blocked t := by simp only [isBlocked_apply]
  sameAt := sameAt_apply_comm hapart v
  partners t p hp := partnerChannel?_apply_comm hapart (hknown t p hp)

/-- The events that have to stay in their order: those of one channel, and the openings of
    channels with one of the partners that are known. -/
inductive OrderMatters (ourAddress : Address) (known : Address → Address → Prop) :
    (ChainEvent → Bool) → Prop where
  | channel (id : ChannelId) : OrderMatters ourAddress known (ChainEvent.concerns id)
  | partner {tokenNetwork partner : Address} (h : known tokenNetwork partner) :
      OrderMatters ourAddress known (ChainEvent.opensWith ourAddress tokenNetwork partner)

theorem exchanges_apply (ourAddress : Address) (known : Address → Address → Prop) :
    Exchanges apply (fun v w => v.ourAddress = ourAddress → v.Matches known w)
      (OrderMatters ourAddress known) where
  refl v _ := .refl known v
  trans h h' hus := (h hus).trans (h' ((h hus).ourAddress.symm.trans hus))
  step e h hus := (h ((ourAddress_apply _ e).symm.trans hus)).apply e
  swap v e e' hclass hus := by
    rw [ourAddress_apply, ourAddress_apply] at hus
    refine matches_apply_comm (fun id => hclass _ (.channel id)) v fun t p hp => ?_
    rw [hus]
    exact hclass _ (.partner hp)

/-! ### Answers -/

/-- Two views give the same answers, whatever they are asked. For the latest channel with a
    partner they are asked only if the partner is known. -/
structure SameAnswers (known : Address → Address → Prop) (v w : NetworkView) : Prop where
  participants : ∀ tokenNetwork, v.participants tokenNetwork = w.participants tokenNetwork
  channels : ∀ tokenNetwork, v.channels tokenNetwork = w.channels tokenNetwork
  openChannels : ∀ tokenNetwork, v.openChannels tokenNetwork = w.openChannels tokenNetwork
  byPartner : ∀ tokenNetwork partner, known tokenNetwork partner →
    v.channelByPartner? tokenNetwork partner = w.channelByPartner? tokenNetwork partner
  found : ∀ id, v.channel? id = w.channel? id
  routes : ∀ tokenNetwork, v.routes tokenNetwork = w.routes tokenNetwork
  blocked : ∀ tokenNetwork, v.isBlocked tokenNetwork = w.isBlocked tokenNetwork
  expiredLocks : ∀ block, v.expiredLocks block = w.expiredLocks block

/-- The same networks are listed, with the same channels in each. -/
theorem Matches.listedChannels (h : v.Matches known w) :
    v.networks.values.map TokenNetwork.channels = w.networks.values.map TokenNetwork.channels := by
  refine SortedMap.map_values_congr fun t => ?_
  have hlisted := h.listed t
  have hstored : (v.network t).channels = (w.network t).channels :=
    SortedMap.ext_get? fun id => (h.sameAt id).stored t
  -- A network without an entry reads as an empty one, so equal channels do not make equal lists:
  -- which networks are listed has to be the same as well.
  rw [network, network] at hstored
  cases hv : v.networks.get? t with
  | none =>
      rw [hv, Option.isSome_none, eq_comm, Option.isSome_eq_false_iff,
        Option.isNone_iff_eq_none] at hlisted
      rw [hlisted]
  | some n =>
      rw [hv, Option.isSome_some, eq_comm, Option.isSome_iff_exists] at hlisted
      obtain ⟨n', hw⟩ := hlisted
      rw [hv, hw] at hstored
      rw [hw]
      exact congrArg some hstored

theorem expiredLocks_eq (v : NetworkView) (block : Height) :
    v.expiredLocks block = sortOn id ((v.networks.values.map TokenNetwork.channels).flatMap
      fun channels => channels.values.flatMap fun c => expiredIn c block) := by
  rw [expiredLocks, List.flatMap_map]

theorem Matches.sameAnswers (h : v.Matches known w) : SameAnswers known v w := by
  have hstored : ∀ t id, v.stored? t id = w.stored? t id := fun t id => (h.sameAt id).stored t
  have hchannels : ∀ t, v.channels t = w.channels t := fun t =>
    congrArg SortedMap.values (SortedMap.ext_get? (hstored t))
  have hopen : ∀ t, v.openChannels t = w.openChannels t := fun t =>
    congrArg (List.filter Channel.isOpen) (hchannels t)
  exact {
    participants := fun t => congrArg SortedMap.keys (SortedMap.ext_get? (h.participants t))
    channels := hchannels
    openChannels := hopen
    byPartner := fun t p hp => by
      rw [channelByPartner?_eq, channelByPartner?_eq, h.partners t p hp, funext (hstored t)]
    found := fun id => by
      rw [channel?_eq, channel?_eq, (h.sameAt id).home, funext (h.sameAt id).stored]
    routes := fun t => congrArg (List.map Channel.route) (hopen t)
    blocked := h.blocked
    expiredLocks := fun block => by rw [expiredLocks_eq, expiredLocks_eq, h.listedChannels] }

/-- Whatever came before, an opening of ours at a free place is the latest with its partner. -/
theorem channelByPartner?_apply_opening {o : Opening} (he : e.opening? v.ourAddress = some o)
    (hfree : v.stored? o.tokenNetwork o.channelId = none) :
    ((v.apply e).channelByPartner? o.tokenNetwork o.partner).map Channel.opening = some o := by
  rw [opening?_eq, Option.map_eq_some_iff] at he
  obtain ⟨c, hopened, rfl⟩ := he
  have hlatest : (v.apply e).partnerChannel? c.tokenNetwork c.partner.address = some c.id := by
    rw [partnerChannel?_apply_eq, hopened]
    exact if_pos ⟨⟨rfl, rfl⟩, hfree⟩
  -- Its place was free, so what is stored there now is what was opened.
  have hstored : (v.apply e).stored? c.tokenNetwork c.id = some c := by
    rw [stored?_apply_eq, hopened]
    dsimp only
    rw [if_pos ⟨rfl, rfl⟩, show v.stored? c.tokenNetwork c.id = none from hfree, Option.getD_none]
  dsimp only [Channel.opening]
  rw [channelByPartner?_eq, hlatest, Option.bind_some, hstored]
  rfl

end NetworkView

/-! ### Delivery -/

namespace Confirmation

open ConfirmationInput

variable {confirm hold hold' : Height} {inputs others : List ConfirmationInput}

/-- Histories that end with the same release hand out what they took in, in the order in which
    the classes of it arrived. -/
theorem filter_released_congr (hclosed : WellClosed (arrivals inputs))
    (hclosed' : WellClosed (arrivals others)) (hpunctual : Punctual confirm none inputs)
    (hpunctual' : Punctual confirm none others)
    (hlast : lastHeight? none inputs = lastHeight? none others) {p : ChainEvent → Bool}
    (h : (arrivals inputs).filter p = (arrivals others).filter p) :
    ((fresh confirm hold).released inputs).filter p
      = ((fresh confirm hold').released others).filter p := by
  rw [released_eq_sortOn hclosed hpunctual, released_eq_sortOn hclosed' hpunctual', hlast,
    sortOn_filter, sortOn_filter, List.filter_comm, h, List.filter_comm]

theorem released_perm (hclosed : WellClosed (arrivals inputs))
    (hclosed' : WellClosed (arrivals others)) (hpunctual : Punctual confirm none inputs)
    (hpunctual' : Punctual confirm none others)
    (hlast : lastHeight? none inputs = lastHeight? none others)
    (h : (arrivals inputs).Perm (arrivals others)) :
    ((fresh confirm hold).released inputs).Perm ((fresh confirm hold').released others) := by
  rw [released_eq_sortOn hclosed hpunctual, released_eq_sortOn hclosed' hpunctual', hlast]
  exact (sortBy_perm _ _).trans ((h.filter _).trans (sortBy_perm _ _).symm)

end Confirmation

namespace NetworkView

open Confirmation ConfirmationInput

/-- What depends on the order of events, and what does not. -/
structure OrderLaw (v : NetworkView) : Prop where
  /-- Two events that are not about the same channel can be applied in either order. Only if
      both open a channel of ours with the same partner in the same network, the latest channel
      with this partner may be another one. -/
  commute : ∀ e e', e.Apart e' →
    SameAnswers (fun tokenNetwork partner =>
        ¬ (e.opensWith v.ourAddress tokenNetwork partner = true ∧
          e'.opensWith v.ourAddress tokenNetwork partner = true))
      ((v.apply e).apply e') ((v.apply e').apply e)
  /-- It is another one: the channel of the later opening, if its place was free. -/
  later : ∀ e e' o o', e.opening? v.ourAddress = some o → e'.opening? v.ourAddress = some o' →
    o.channelId ≠ o'.channelId → v.stored? o'.tokenNetwork o'.channelId = none →
    (((v.apply e).apply e').channelByPartner? o'.tokenNetwork o'.partner).map Channel.opening
      = some o'
  /-- The same events lead to the same answers in every order that keeps the order of the
      events of each channel. For the latest channel with a partner, the openings with this
      partner have to keep their order too. -/
  reordered : ∀ events others : List ChainEvent, events.Perm others →
    (∀ id, events.filter (ChainEvent.concerns id) = others.filter (ChainEvent.concerns id)) →
    SameAnswers (fun tokenNetwork partner =>
        events.filter (ChainEvent.opensWith v.ourAddress tokenNetwork partner)
          = others.filter (ChainEvent.opensWith v.ourAddress tokenNetwork partner))
      (v.applyAll events) (v.applyAll others)
  /-- So two nodes that hear of the same events agree on all that is handed out to them, if
      they hear of the events of each channel in the same order. -/
  delivered : ∀ confirm hold hold' inputs others,
    WellClosed (arrivals inputs) → WellClosed (arrivals others) →
    Punctual confirm none inputs → Punctual confirm none others →
    lastHeight? none inputs = lastHeight? none others →
    (arrivals inputs).Perm (arrivals others) →
    (∀ id, (arrivals inputs).filter (ChainEvent.concerns id)
      = (arrivals others).filter (ChainEvent.concerns id)) →
    SameAnswers (fun tokenNetwork partner =>
        (arrivals inputs).filter (ChainEvent.opensWith v.ourAddress tokenNetwork partner)
          = (arrivals others).filter (ChainEvent.opensWith v.ourAddress tokenNetwork partner))
      (v.applyAll ((Confirmation.fresh confirm hold).released inputs))
      (v.applyAll ((Confirmation.fresh confirm hold').released others))

/-- Two lists of the same events with the same order in each class lead to matching views. -/
theorem matches_applyAll {known : Address → Address → Prop} (v : NetworkView)
    {events others : List ChainEvent} (hperm : events.Perm others)
    (hclass : ∀ p, OrderMatters v.ourAddress known p → events.filter p = others.filter p) :
    (v.applyAll events).Matches known (v.applyAll others) := by
  refine (exchanges_apply v.ourAddress known).foldl_perm hperm hclass v ?_
  exact ourAddress_applyAll v events

/-- Every view follows the law, however it came about. -/
theorem orderLaw (v : NetworkView) : OrderLaw v where
  commute e e' hapart := (matches_apply_comm hapart v fun _ _ hknown => hknown).sameAnswers
  later e e' o o' he he' hid hfree := by
    have hother : ¬ e.concerns o'.channelId = true := by
      rw [opening?_eq, Option.map_eq_some_iff] at he
      obtain ⟨c, hopened, rfl⟩ := he
      rw [ChainEvent.concerns, decide_eq_true_eq, channelId?_of_opened? hopened,
        Option.some.injEq]
      exact hid
    refine channelByPartner?_apply_opening (by rwa [ourAddress_apply]) ?_
    rw [(sameAt_apply_of_not_concerns hother v).stored, hfree]
  reordered events others hperm horder := by
    refine (v.matches_applyAll hperm ?_).sameAnswers
    rintro p (id | hknown)
    · exact horder id
    · exact hknown
  delivered confirm hold hold' inputs others hclosed hclosed' hpunctual hpunctual' hlast hperm
      horder := by
    refine (v.matches_applyAll
      (released_perm hclosed hclosed' hpunctual hpunctual' hlast hperm) ?_).sameAnswers
    rintro p (id | hknown)
    · exact filter_released_congr hclosed hclosed' hpunctual hpunctual' hlast (horder id)
    · exact filter_released_congr hclosed hclosed' hpunctual hpunctual' hlast hknown

end NetworkView

end PaymentNetwork

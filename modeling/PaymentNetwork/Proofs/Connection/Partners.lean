import PaymentNetwork.Proofs.Connection.Budget

/-!
# Who Channels Are Opened With

How many channels a node opens, and with whom, while those that it opened come into view.

A node that joined opens channels until their number is the one that it aims at, and it opens
them with participants that it has no open channel with. Both are read off the view, and a
channel that was opened is not there yet. So after each opening the operation waits, with the
policy in its hands, until the channel is in view. As long as that works, what is read off the
view is the truth, and no partner gets a second channel.

The wait does not go on forever. When it ends with the channel still out of view, the opening
is lost to the node: nothing remembers that it was made, and the next operation that gets the
policy counts the partner as free and the channel as missing. The channel may come into view
later. The law is that lost openings are all that can go wrong. Those that are not lost have
different partners, and there are as many of them at most as channels were missing when the
node joined. Operations may take turns in any way meanwhile, and events may come early or late.

## Main definitions

* `NetworkView.Lacks`, `NetworkView.Shows`: An opening that did not come into view yet, and
  one that did.
* `Venture`, `Venture.kept`: A channel was opened, or was lost; the openings that were not lost.
* `Membership.ventures`: What becomes of openings when a wait ends.
* `Desk.Truthful`: The ledger opens new channels, and its events tell of them as they are.
* `Desk.PartnerLaw`: What a run keeps to.

## Theorems

* `NetworkView.Lacks.apply`, `NetworkView.Shows.apply`: An opening comes into view with the
  event that tells of it, and stays there.
* `Phase.Fits.pending_resume`: What one operation is about to open.
* `room_newPartners`: What is opened next, when nothing is waited for.
* `Desk.Accounted.goesOn`: What one operation does while it uses the policy.
* `Desk.run_partnerLaw`: The law for every run in which channels stay open.
-/

namespace PaymentNetwork

/-! ### Openings that come into view -/

namespace NetworkView

/-- An open channel is stored in this place. -/
def OpenAt (v : NetworkView) (tokenNetwork : Address) (id : ChannelId) : Prop :=
  ∃ c, v.stored? tokenNetwork id = some c ∧ c.isOpen = true

/-- The channel of the opening is not in view. -/
structure Lacks (v : NetworkView) (o : Opening) : Prop where
  stored : v.stored? o.tokenNetwork o.channelId = none
  listed : v.channelNetworks.get? o.channelId = none

/-- The channel of the opening is in view and open, and so is the latest one with its
    partner. -/
structure Shows (v : NetworkView) (o : Opening) : Prop where
  stored : v.OpenAt o.tokenNetwork o.channelId
  listed : v.channelNetworks.get? o.channelId = some o.tokenNetwork
  partner : ∃ id, v.partnerChannel? o.tokenNetwork o.partner = some id ∧ v.OpenAt o.tokenNetwork id

/-- The event ends no channel of ours. -/
def Spares (v : NetworkView) (e : ChainEvent) : Prop :=
  e.ends = true → ∀ id, e.channelId? = some id → v.find? id = none

section Events

variable {v v' : NetworkView} {o : Opening}

theorem OpenAt.congr {tokenNetwork : Address} {id : ChannelId} (h : v.OpenAt tokenNetwork id)
    (hsame : v.SameChannels v') : v'.OpenAt tokenNetwork id := by
  obtain ⟨c, hstored, hopen⟩ := h
  exact ⟨c, (hsame.stored _ _).trans hstored, hopen⟩

theorem Lacks.congr (h : v.Lacks o) (hsame : v.SameChannels v') : v'.Lacks o :=
  ⟨(hsame.stored _ _).trans h.stored, by rw [hsame.networks, h.listed]⟩

theorem Shows.congr (h : v.Shows o) (hsame : v.SameChannels v') : v'.Shows o := by
  obtain ⟨id, hpartner, hopen⟩ := h.partner
  exact ⟨h.stored.congr hsame, by rw [hsame.networks, h.listed],
    id, (hsame.partners _ _).trans hpartner, hopen.congr hsame⟩

/-- What an event does to our channels, if it ends none of them: nothing, or it adds an open
    one in a free place, or it changes one that stays open or not, as it was. -/
theorem apply_open_cases {e : ChainEvent} (hspares : v.Spares e) :
    v.SameChannels (v.apply e) ∨
    (∃ v' c, e.opening? v.ourAddress = some c.opening ∧ c.isOpen = true ∧
      v.stored? c.tokenNetwork c.id = none ∧ v.SameChannels v' ∧ v.apply e = v'.addChannel c) ∨
    ∃ id tokenNetwork c c', v.find? id = some (tokenNetwork, c) ∧ c'.isOpen = c.isOpen ∧
      v.apply e = v.putChannel tokenNetwork id c' := by
  have hsame := v.sameChannels_learn e
  have hopening := v.opening?_eq e
  have hchange := v.change_apply e
  generalize v.apply e = w at hchange ⊢
  cases hchange with
  | @opens c hopened hfree =>
      rw [hopened] at hopening
      exact Or.inr (Or.inl ⟨_, c, hopening, isOpen_of_opened? hopened, hfree, hsame, rfl⟩)
  | turnsDown => exact Or.inl hsame
  | @reaches id tokenNetwork c hopened hid hfind =>
      have hstays : e.ends = false := by
        refine Bool.eq_false_iff.mpr (fun hend => ?_)
        rw [hspares hend id hid] at hfind
        cases hfind
      refine Or.inr (Or.inr ⟨id, tokenNetwork, c, c.applyEvent e, hfind, ?_, rfl⟩)
      rw [Channel.isOpen, Channel.status_applyEvent hstays, Channel.isOpen]
  | learns => exact Or.inl hsame

theorem OpenAt.addChannel {tokenNetwork : Address} {id : ChannelId} (h : v.OpenAt tokenNetwork id)
    {c : Channel} (hnew : v.stored? c.tokenNetwork c.id = none) :
    (v.addChannel c).OpenAt tokenNetwork id := by
  obtain ⟨c', hstored, hopen⟩ := h
  have hplace : ¬ (tokenNetwork = c.tokenNetwork ∧ id = c.id) := by
    rintro ⟨rfl, rfl⟩
    rw [hnew] at hstored
    cases hstored
  exact ⟨c', (stored?_addChannel_of_ne hplace).trans hstored, hopen⟩

theorem OpenAt.putChannel {tokenNetwork other : Address} {id id' : ChannelId}
    (h : v.OpenAt other id') {c c' : Channel} (hfind : v.find? id = some (tokenNetwork, c))
    (hstatus : c'.isOpen = c.isOpen) : (v.putChannel tokenNetwork id c').OpenAt other id' := by
  obtain ⟨d, hstored, hopen⟩ := h
  rcases stored?_putChannel_cases hfind c' other id' with hsame | ⟨-, -, hc, hput⟩
  · exact ⟨d, hsame.trans hstored, hopen⟩
  · rw [hc] at hstored
    cases hstored
    exact ⟨c', hput, hstatus.trans hopen⟩

/-- Open channels stay open. -/
theorem OpenAt.apply {e : ChainEvent} (hspares : v.Spares e) {tokenNetwork : Address}
    {id : ChannelId} (h : v.OpenAt tokenNetwork id) : (v.apply e).OpenAt tokenNetwork id := by
  rcases apply_open_cases hspares with hsame | ⟨v', c, -, -, hnew, hsame, happly⟩ |
    ⟨id', network, c, c', hfind, hstatus, happly⟩
  · exact h.congr hsame
  · rw [happly]
    exact (h.congr hsame).addChannel ((hsame.stored _ _).trans hnew)
  · rw [happly]
    exact h.putChannel hfind hstatus

/-- What is in view stays there. -/
theorem Shows.apply {e : ChainEvent} (hspares : v.Spares e)
    (htold : ∀ o', e.opening? v.ourAddress = some o' → o'.channelId = o.channelId → o' = o)
    (h : v.Shows o) : (v.apply e).Shows o := by
  obtain ⟨id, hpartner, hopen⟩ := h.partner
  have hstored := h.stored.apply hspares
  have hlatest := hopen.apply hspares
  rcases apply_open_cases hspares with hsame | ⟨v', c, he, hcopen, hnew, hsame, happly⟩ |
    ⟨id', network, c, c', hfind, hstatus, happly⟩
  · exact h.congr hsame
  · -- The identifier of the opening is taken, so another one was added.
    have hid : o.channelId ≠ c.id := by
      intro hid
      obtain rfl := htold _ he hid.symm
      obtain ⟨d, hd, -⟩ := h.stored
      exact absurd (hd.symm.trans hnew) nofun
    refine ⟨hstored, ?_, ?_⟩
    · rw [happly]
      exact (SortedMap.get?_insert_of_ne hid).trans (by rw [hsame.networks, h.listed])
    · rw [happly, partnerChannel?_addChannel]
      split
      · rename_i hsamePartner
        refine ⟨c.id, rfl, c, ?_, hcopen⟩
        rw [← hsamePartner.1]
        exact stored?_addChannel_self v' c
      · rw [happly] at hlatest
        exact ⟨id, (hsame.partners _ _).trans hpartner, hlatest⟩
  · rw [happly] at hstored hlatest ⊢
    exact ⟨hstored, h.listed, id, (partnerChannel?_putChannel v _ _ c' _ _).trans hpartner, hlatest⟩

/-- An opening comes into view with the event that tells of it. -/
theorem Lacks.apply {e : ChainEvent} (hspares : v.Spares e)
    (htold : ∀ o', e.opening? v.ourAddress = some o' → o'.channelId = o.channelId → o' = o)
    (h : v.Lacks o) : (v.apply e).Lacks o ∨ (v.apply e).Shows o := by
  rcases apply_open_cases hspares with hsame | ⟨v', c, he, hcopen, hnew, hsame, happly⟩ |
    ⟨id', network, c, c', hfind, hstatus, happly⟩
  · exact Or.inl (h.congr hsame)
  · rw [happly]
    by_cases hid : c.id = o.channelId
    · obtain rfl := htold _ he hid
      refine Or.inr ⟨⟨c, stored?_addChannel_self v' c, hcopen⟩, SortedMap.get?_insert_self ..,
        c.id, ?_, c, stored?_addChannel_self v' c, hcopen⟩
      rw [partnerChannel?_addChannel, if_pos ⟨rfl, rfl⟩]
    · refine Or.inl ⟨?_, ?_⟩
      · exact (stored?_addChannel_of_ne (fun hplace => hid hplace.2.symm)).trans
          ((hsame.stored _ _).trans h.stored)
      · exact (SortedMap.get?_insert_of_ne (Ne.symm hid)).trans (by rw [hsame.networks, h.listed])
  · rw [happly]
    refine Or.inl ⟨?_, h.listed⟩
    rcases stored?_putChannel_cases hfind c' o.tokenNetwork o.channelId with
      hsame | ⟨-, -, hc, -⟩
    · exact hsame.trans h.stored
    · exact absurd (h.stored.symm.trans hc) nofun

end Events

theorem Lacks.channel?_eq_none {v : NetworkView} {o : Opening} (h : v.Lacks o) :
    v.channel? o.channelId = none := by
  rw [channel?_eq, h.listed]
  rfl

/-- The places of our open channels in a token network. -/
def openPlaces (v : NetworkView) (tokenNetwork : Address) : List ChannelId :=
  ((v.network tokenNetwork).channels.entries.filter fun e => e.2.isOpen).map Prod.fst

theorem mem_openPlaces_iff {v : NetworkView} {tokenNetwork : Address} {id : ChannelId} :
    id ∈ v.openPlaces tokenNetwork ↔ v.OpenAt tokenNetwork id := by
  rw [openPlaces, List.mem_map]
  constructor
  · rintro ⟨⟨k, c⟩, hmem, rfl⟩
    rw [List.mem_filter] at hmem
    exact ⟨c, SortedMap.get?_eq_some_iff.mpr hmem.1, hmem.2⟩
  · rintro ⟨c, hstored, hopen⟩
    exact ⟨(id, c), List.mem_filter.mpr ⟨SortedMap.get?_eq_some_iff.mp hstored, hopen⟩, rfl⟩

theorem nodup_openPlaces (v : NetworkView) (tokenNetwork : Address) :
    (v.openPlaces tokenNetwork).Nodup :=
  (SortedMap.nodup_keys (v.network tokenNetwork).channels).sublist (List.filter_sublist.map _)

theorem length_openPlaces (v : NetworkView) (tokenNetwork : Address) :
    (v.openPlaces tokenNetwork).length = (v.openChannels tokenNetwork).length := by
  rw [openPlaces, List.length_map, openChannels, channels, SortedMap.values, List.filter_map,
    List.length_map]
  rfl

end NetworkView

/-! ### What becomes of openings -/

/-- Something that becomes of a channel that is opened. -/
inductive Venture where
  | opened (o : Opening)
  /-- The channel is not in view, and nobody waits for it any more. -/
  | lost (channelId : ChannelId)

namespace Venture

def opening? : Venture → Option Opening
  | opened o => some o
  | lost _ => none

def lost? : Venture → Option ChannelId
  | opened _ => none
  | lost channelId => some channelId

/-- The openings among some ventures. -/
def openings (vs : List Venture) : List Opening := vs.filterMap opening?

/-- The openings that were not lost. -/
def kept (vs : List Venture) : List Opening :=
  (openings vs).filter fun o => !(vs.filterMap lost?).contains o.channelId

section Lists

variable {vs ws : List Venture} {o : Opening}

theorem openings_append (vs ws : List Venture) :
    openings (vs ++ ws) = openings vs ++ openings ws :=
  List.filterMap_append

theorem mem_kept_iff : o ∈ kept vs ↔ o ∈ openings vs ∧ o.channelId ∉ vs.filterMap lost? := by
  rw [kept, List.mem_filter, Bool.not_eq_true', ← Bool.not_eq_true, List.contains_iff_mem]

theorem kept_sublist (vs : List Venture) : (kept vs).Sublist (openings vs) := List.filter_sublist

/-- What is lost later was kept until then. -/
theorem kept_append_sublist (vs ws : List Venture) :
    (kept (vs ++ ws)).Sublist (kept vs ++ openings ws) := by
  rw [kept, openings_append, List.filter_append]
  refine List.Sublist.append (List.monotone_filter_right _ ?_) List.filter_sublist
  intro o ho
  rw [Bool.not_eq_true', ← Bool.not_eq_true, List.contains_iff_mem] at ho ⊢
  exact fun hlost => ho (by
    rw [List.filterMap_append]
    exact List.mem_append_left _ hlost)

theorem mem_kept_append_iff : o ∈ kept (vs ++ ws) ↔
    (o ∈ kept vs ∨ o ∈ openings ws ∧ o.channelId ∉ vs.filterMap lost?) ∧
      o.channelId ∉ ws.filterMap lost? := by
  rw [mem_kept_iff, mem_kept_iff, openings_append, List.filterMap_append, List.mem_append,
    List.mem_append]
  tauto

end Lists

end Venture

/-- The partners that are left. -/
def Errand.rest : Errand → List Address
  | single => []
  | batch rest => rest

namespace Phase

/-- The partners that an operation goes to open channels with, if nothing gets in its way. -/
def pending : Phase → List Address
  | opening partner _ errand => partner :: errand.rest
  | polling _ _ _ errand => errand.rest
  | funding _ _ errand => errand.rest
  | _ => []

/-- The channel that an operation waits for. -/
def awaits? : Phase → Option ChannelId
  | polling channelId .. => some channelId
  | _ => none

/-- What was opened when a wait ends. -/
def opens? (s : ConnectionSettings) : Phase → Wake → Option Opening
  | opening partner .., .answered (.ok (.opened channelId)) =>
    some ⟨s.tokenNetwork, channelId, partner⟩
  | _, _ => none

/-- The channel that an operation looks for when a wait ends. -/
def seeks? : Phase → Wake → Option ChannelId
  | opening .., .answered (.ok (.opened channelId)) => some channelId
  | polling channelId .., .ticked _ => some channelId
  | _, _ => none

end Phase

section Steps

variable (s : ConnectionSettings)

/-- Is the channel out of view, and is it given up when a wait ends? -/
def Membership.abandons (m : Membership) (p : Phase) (w : Wake) (channelId : ChannelId) : Bool :=
  (m.view.channel? channelId).isNone
    && decide ((m.resume s p w).2.awaits? ≠ some channelId)

/-- What becomes of openings when a wait ends. -/
def Membership.ventures (m : Membership) (p : Phase) (w : Wake) : List Venture :=
  (p.opens? s w).toList.map .opened ++ ((p.seeks? w).filter (m.abandons s p w)).toList.map .lost

namespace Desk

/-- What becomes of openings with a move. -/
def venturesOf (d : Desk) : Move → List Venture
  | .wake task w =>
    match d.ending? task w with
    | none => []
    | some p => d.membership.ventures s p w
  | _ => []

/-- What becomes of openings in a run. -/
def ventures (d : Desk) (moves : List Move) : List Venture :=
  collect (after s) (venturesOf s) d moves

end Desk

end Steps

section Phases

variable {s : ConnectionSettings} {m : Membership} {p : Policy} {b : Books}

@[simp] theorem pending_openNext (amount : Amount) (partners : List Address) :
    (Membership.openNext amount partners).pending = partners := by
  cases partners <;> rfl

@[simp] theorem pending_finishOpening (errand : Errand) (amount : Amount)
    (result : Except ConnectionError ChannelId) :
    (Membership.finishOpening errand amount result).pending = errand.rest := by
  cases errand with
  | single => cases result <;> rfl
  | batch rest => exact pending_openNext amount rest

@[simp] theorem pending_lookForChannel (m : Membership) (channelId : ChannelId) (polls : Nat)
    (amount : Amount) (errand : Errand) :
    (m.lookForChannel s channelId polls amount errand).pending = errand.rest := by
  unfold Membership.lookForChannel
  split
  · split
    · exact pending_finishOpening ..
    · rfl
  · split
    · exact pending_finishOpening ..
    · rfl

/-- Who gets the policy has nothing to open, or opens what is missing by the view. -/
theorem pending_granted {op : Operation} (hop : op.KeepsTo p) (m : Membership) :
    (m.granted s op).2.pending = [] ∨ (m.granted s op).2.pending
      = s.newPartners (m.granted s op).1.view
        (s.missing (m.granted s op).1.view (m.granted s op).1.policy) := by
  cases op with
  | connect q =>
      have hcases : (m.granted s (.connect q)).2 = .bootstrapping ∨
          (m.granted s (.connect q)).2 = Membership.addPartners s { m with policy := q } :=
        ite_eq_or_eq _ _ _
      rcases hcases with hnext | hnext
      · exact Or.inl (congrArg Phase.pending hnext)
      · exact Or.inr ((congrArg Phase.pending hnext).trans (pending_openNext ..))
  | retryConnect =>
      have hcases : (m.granted s .retryConnect).2 = .ended .done ∨
          (m.granted s .retryConnect).2 = m.addPartners s :=
        ite_eq_or_eq _ _ _
      rcases hcases with hnext | hnext
      · exact Or.inl (congrArg Phase.pending hnext)
      · exact Or.inr ((congrArg Phase.pending hnext).trans (pending_openNext ..))
  | joinChannel partner deposit =>
      rcases granted_joinChannel_cases (s := s) m partner deposit with
        ⟨result, hnext⟩ | ⟨-, -, channelId, hnext⟩
      · exact Or.inl (congrArg Phase.pending hnext)
      · exact Or.inl (congrArg Phase.pending hnext)
  | leave onlyReceiving => exact absurd hop id
  | openAndDeposit partner amount => exact absurd hop id
  | _ => exact Or.inl rfl

/-- The partners that are left when a wait ends were there before, the one included that a
    channel was opened with; unless the operation begins to open what is missing by the view. -/
theorem Phase.Fits.pending_resume {phase : Phase} (hfits : phase.Fits p b) (m : Membership)
    (w : Wake) :
    ((phase.opens? s w).toList.map Opening.partner ++ (m.resume s phase w).2.pending).Sublist
      phase.pending ∨
    (phase.opens? s w = none ∧ phase.pending = [] ∧ phase.awaits? = none ∧
      (m.resume s phase w).2.pending
      = s.newPartners (m.resume s phase w).1.view
        (s.missing (m.resume s phase w).1.view (m.resume s phase w).1.policy)) := by
  have hsame : ∀ {l l' : List Address}, l = l' → l.Sublist l' := fun h => h ▸ .refl _
  cases phase with
  | queued op =>
      cases w with
      | granted =>
          -- Nothing was pending before, so the partners chosen now are not left over from anything.
          rcases pending_granted (s := s) hfits m with hnone | hmissing
          · exact Or.inl (hsame hnone)
          · exact Or.inr ⟨rfl, rfl, rfl, hmissing⟩
      | _ => cases op <;> exact Or.inl (.refl _)
  | bootstrapping =>
      cases w with
      | answered answer =>
          cases answer with
          | error e => exact Or.inl (.refl _)
          | ok a => exact Or.inr ⟨rfl, rfl, rfl, pending_openNext ..⟩
      | _ => exact Or.inl (.refl _)
  | opening partner amount errand =>
      have hfailed : ∀ e, (Membership.finishOpening errand amount (.error e)).pending.Sublist
          (partner :: errand.rest) :=
        fun e => (hsame (pending_finishOpening ..)).trans (List.sublist_cons_self ..)
      cases w with
      | answered answer =>
          cases answer with
          | error e => exact Or.inl (hfailed (.ledger e))
          | ok a =>
              cases a with
              | opened channelId =>
                  exact Or.inl ((hsame (pending_lookForChannel ..)).cons_cons partner)
              | _ => exact Or.inl (hfailed .channelNotVisible)
      | _ => exact Or.inl (.refl _)
  | polling channelId polls amount errand =>
      cases w with
      | ticked ok =>
          cases ok with
          | true => exact Or.inl (hsame (pending_lookForChannel m channelId _ amount errand))
          | false =>
              exact Or.inl (hsame (pending_finishOpening errand amount (.error .clockStopped)))
      | _ => exact Or.inl (.refl _)
  | funding channelId amount errand =>
      cases w with
      | answered answer =>
          cases answer with
          | error e =>
              exact Or.inl (hsame (pending_finishOpening errand amount (.error (.ledger e))))
          | ok a => exact Or.inl (hsame (pending_finishOpening errand amount (.ok channelId)))
      | _ => exact Or.inl (.refl _)
  | joining channelId amount =>
      cases w with
      | answered answer => cases answer <;> exact Or.inl (.refl _)
      | _ => exact Or.inl (.refl _)
  | closing current rest closed => exact absurd hfits id
  | settling closed => exact absurd hfits id
  | ended result => cases w <;> exact Or.inl (.refl _)

/-- Who waits for a channel looks for it when the wait ends, or goes on waiting. -/
theorem seeks?_of_awaits? {phase : Phase} {channelId : ChannelId}
    (h : phase.awaits? = some channelId) (m : Membership) (w : Wake) :
    phase.seeks? w = some channelId ∨ (m.resume s phase w).2 = phase := by
  cases phase with
  | polling id polls amount errand =>
      cases w with
      | ticked ok => exact Or.inl h
      | _ => exact Or.inr rfl
  | _ => cases h

/-- A channel is looked for as soon as it was opened. -/
theorem seeks?_of_opens? {phase : Phase} {w : Wake} {o : Opening}
    (h : phase.opens? s w = some o) : phase.seeks? w = some o.channelId := by
  unfold Phase.opens? at h
  split at h
  · cases h
    rfl
  · cases h

theorem tokenNetwork_of_opens? {phase : Phase} {w : Wake} {o : Opening}
    (h : phase.opens? s w = some o) : o.tokenNetwork = s.tokenNetwork := by
  unfold Phase.opens? at h
  split at h
  · cases h
    rfl
  · cases h

theorem openings_ventures (m : Membership) (phase : Phase) (w : Wake) :
    Venture.openings (m.ventures s phase w) = (phase.opens? s w).toList := by
  rw [Membership.ventures, Venture.openings_append]
  cases phase.opens? s w <;> cases (phase.seeks? w).filter (m.abandons s phase w) <;> rfl

theorem losses_ventures (m : Membership) (phase : Phase) (w : Wake) :
    (m.ventures s phase w).filterMap Venture.lost?
      = ((phase.seeks? w).filter (m.abandons s phase w)).toList := by
  rw [Membership.ventures, List.filterMap_append]
  cases phase.opens? s w <;> cases (phase.seeks? w).filter (m.abandons s phase w) <;> rfl

/-- What is looked for and not lost is in view, or waited for. -/
theorem shows_or_awaits_of_seeks {phase : Phase} {w : Wake} {o : Opening}
    (hseen : m.view.Lacks o ∨ m.view.Shows o)
    (hkept : o.channelId ∉ (m.ventures s phase w).filterMap Venture.lost?)
    (hseeks : phase.seeks? w = some o.channelId) :
    m.view.Shows o ∨ (m.resume s phase w).2.awaits? = some o.channelId := by
  refine hseen.symm.imp_right (fun hlacks => ?_)
  rw [losses_ventures, hseeks] at hkept
  by_contra hstops
  refine hkept ?_
  simp [Membership.abandons, hlacks.channel?_eq_none, hstops]

/-- Who neither uses the policy nor gets it has nothing to open and waits for no channel. -/
theorem Phase.Fits.quiet {phase : Phase} (hfits : phase.Fits p b)
    (hfree : phase.usesPolicy = false) : phase.pending = [] ∧ phase.awaits? = none ∧
      ∀ w, phase.opens? s w = none ∧ phase.seeks? w = none := by
  cases phase with
  | opening partner amount errand => cases errand with
    | single => exact absurd hfits id
    | batch rest => cases hfree
  | polling channelId polls amount errand => cases errand with
    | single => exact absurd hfits id
    | batch rest => cases hfree
  | funding channelId amount errand => cases errand with
    | single => exact absurd hfits id
    | batch rest => cases hfree
  | _ => exact ⟨rfl, rfl, fun w => ⟨rfl, rfl⟩⟩

end Phases

/-! ### What is kept -/

/-- The openings of a run, as the ledger made them: each has an identifier of its own, that
    no open channel had before. -/
structure Genuine (s : ConnectionSettings) (initial : List ChannelId) (made : List Opening) :
    Prop where
  nodup : (made.map Opening.channelId).Nodup
  new : ∀ o ∈ made, o.channelId ∉ initial
  inNetwork : ∀ o ∈ made, o.tokenNetwork = s.tokenNetwork

theorem Genuine.sublist {s : ConnectionSettings} {initial : List ChannelId}
    {made made' : List Opening} (h : Genuine s initial made) (hsub : made'.Sublist made) :
    Genuine s initial made' where
  nodup := h.nodup.sublist (hsub.map _)
  new := fun o ho => h.new o (hsub.subset ho)
  inNetwork := fun o ho => h.inNetwork o (hsub.subset ho)

/-- How many channels may be kept, and how many may be opened meanwhile. -/
structure Room (p : Policy) (initial : List ChannelId) (kept : List Opening)
    (pending : List Address) : Prop where
  /-- All of them have different partners. -/
  partners : (kept.map Opening.partner ++ pending).Nodup
  /-- There are as many as were missing at most. -/
  bound : kept.length + pending.length ≤ p.channelTarget.val - initial.length

section Room

variable {s : ConnectionSettings} {p : Policy} {initial : List ChannelId} {kept : List Opening}
  {pending : List Address}

theorem Room.mono (h : Room p initial kept pending) {kept' : List Opening} {pending' : List Address}
    {new : List Opening} (hkept : kept'.Sublist (kept ++ new))
    (hpending : (new.map Opening.partner ++ pending').Sublist pending) :
    Room p initial kept' pending' where
  partners := by
    -- Who a channel was opened with moves from the pending to the kept, so together there are no
    -- more.
    refine h.partners.sublist (List.Sublist.trans ?_ (hpending.append_left _))
    rw [← List.append_assoc, ← List.map_append]
    exact (hkept.map _).append_right _
  bound := by
    have hlength := hkept.length_le
    have hlength' := hpending.length_le
    have hbound := h.bound
    rw [List.length_append] at hlength hlength'
    rw [List.length_map] at hlength'
    omega

/-- An eligible partner has no open channel in view. -/
theorem not_shows_of_eligible {view : NetworkView} {o : Opening}
    (hnetwork : o.tokenNetwork = s.tokenNetwork) (h : s.isEligible view o.partner = true) :
    ¬ view.Shows o := by
  intro hshows
  obtain ⟨id, hpartner, c, hstored, hopen⟩ := hshows.partner
  rw [hnetwork] at hpartner hstored
  rw [ConnectionSettings.isEligible, NetworkView.channelByPartner?_eq, hpartner, Option.bind_some,
    hstored] at h
  simp [hopen] at h

/-- What is opened next leaves room, if all that is kept is in view. -/
theorem room_newPartners {view : NetworkView} (h : Room p initial kept [])
    (hgenuine : Genuine s initial kept) (hinitial : initial.Nodup)
    (hstays : ∀ id ∈ initial, view.OpenAt s.tokenNetwork id) (hshows : ∀ o ∈ kept, view.Shows o) :
    Room p initial kept (s.newPartners view (s.missing view p)) where
  partners := by
    refine List.nodup_append.mpr ⟨by simpa using h.partners, ?_, ?_⟩
    · exact ((SortedMap.nodup_keys _).sublist List.filter_sublist).sublist (List.take_sublist _ _)
    · rintro _ hkept q hq rfl
      obtain ⟨o, ho, rfl⟩ := List.mem_map.mp hkept
      have heligible := (List.mem_filter.mp (List.mem_of_mem_take hq)).2
      exact not_shows_of_eligible (hgenuine.inNetwork o ho) heligible (hshows o ho)
  bound := by
    -- All that was open at first, and all that is kept, is open and counted by now.
    have hcount : initial.length + kept.length ≤ (view.openChannels s.tokenNetwork).length := by
      have hnodup : (initial ++ kept.map Opening.channelId).Nodup := by
        refine List.nodup_append.mpr ⟨hinitial, hgenuine.nodup, ?_⟩
        rintro id hid _ hkept rfl
        obtain ⟨o, ho, rfl⟩ := List.mem_map.mp hkept
        exact hgenuine.new o ho hid
      have hopen : initial ++ kept.map Opening.channelId ⊆ view.openPlaces s.tokenNetwork := by
        intro id hid
        rw [NetworkView.mem_openPlaces_iff]
        rcases List.mem_append.mp hid with hid | hid
        · exact hstays id hid
        · obtain ⟨o, ho, rfl⟩ := List.mem_map.mp hid
          rw [← hgenuine.inNetwork o ho]
          exact (hshows o ho).stored
      have hlength := (hnodup.subperm hopen).length_le
      rwa [List.length_append, List.length_map, NetworkView.length_openPlaces] at hlength
    have hnew : (s.newPartners view (s.missing view p)).length
        ≤ p.channelTarget.val - (view.openChannels s.tokenNetwork).length :=
      List.length_take_le _ _
    have hbound := h.bound
    rw [List.length_nil] at hbound
    omega

end Room

/-! ### Runs -/

namespace Desk

/-- The partners that channels are going to be opened with. -/
def pending (d : Desk) : List Address := d.phases.flatMap Phase.pending

/-- The channels that are waited for. -/
def awaited (d : Desk) : List ChannelId := d.phases.filterMap Phase.awaits?

/-- Where the openings of a run are: the made ones are in view or not yet, the kept ones are in
    view or waited for, and there is room for them. -/
structure Accounted (s : ConnectionSettings) (p : Policy) (initial : List ChannelId)
    (made : List Opening) (d : Desk) (vs : List Venture) : Prop where
  seen : ∀ o ∈ made, d.membership.view.Lacks o ∨ d.membership.view.Shows o
  stays : ∀ id ∈ initial, d.membership.view.OpenAt s.tokenNetwork id
  known : ∀ o ∈ Venture.kept vs, d.membership.view.Shows o ∨ o.channelId ∈ d.awaited
  room : Room p initial (Venture.kept vs) d.pending

section Accounted

variable {s : ConnectionSettings} {p : Policy} {initial : List ChannelId} {made : List Opening}
  {d : Desk} {b : Books} {vs : List Venture}

theorem pending_split (m : Membership) {before later : List Phase} (phase : Phase)
    (hothers : ∀ q ∈ before ++ later, q.pending = []) :
    pending ⟨m, before ++ phase :: later⟩ = phase.pending := by
  rw [pending, List.flatMap_append, List.flatMap_cons,
    List.flatMap_eq_nil_iff.mpr (fun q hq => hothers q (List.mem_append_left _ hq)),
    List.flatMap_eq_nil_iff.mpr (fun q hq => hothers q (List.mem_append_right _ hq)),
    List.nil_append, List.append_nil]

theorem awaited_split (m : Membership) {before later : List Phase} (phase : Phase)
    (hothers : ∀ q ∈ before ++ later, q.awaits? = none) :
    awaited ⟨m, before ++ phase :: later⟩ = phase.awaits?.toList := by
  rw [awaited, List.filterMap_append, List.filterMap_cons,
    List.filterMap_eq_nil_iff.mpr (fun q hq => hothers q (List.mem_append_left _ hq)),
    List.filterMap_eq_nil_iff.mpr (fun q hq => hothers q (List.mem_append_right _ hq)),
    List.nil_append]
  cases phase.awaits? <;> rfl

theorem Accounted.start (h : Accounted s p initial made d vs) {op : Operation}
    (hop : op.KeepsTo p) : Accounted s p initial made (d.after s (.start op)) vs := by
  have hsame : d.membership.view.SameChannels (d.after s (.start op)).membership.view :=
    (d.membership.begin_switches s op).sameChannels
  obtain ⟨hpending, hawaits, -⟩ := (begin_fits (s := s) (b := .empty) d.membership hop).quiet
    (s := s) (d.membership.begin_usesPolicy s op)
  have hpending' : (d.after s (.start op)).pending = d.pending := by
    rw [pending, after, List.flatMap_append, List.flatMap_singleton, hpending, List.append_nil]
    rfl
  have hawaited : (d.after s (.start op)).awaited = d.awaited := by
    rw [awaited, after, List.filterMap_append, List.filterMap_cons_none hawaits, List.filterMap_nil,
      List.append_nil]
    rfl
  refine ⟨?_, ?_, ?_, ?_⟩
  · exact fun o ho => (h.seen o ho).imp (·.congr hsame) (·.congr hsame)
  · exact fun id hid => (h.stays id hid).congr hsame
  · rw [hawaited]
    exact fun o ho => (h.known o ho).imp_left (·.congr hsame)
  · rw [hpending']
    exact h.room

theorem Accounted.event (h : Accounted s p initial made d vs)
    (hgenuine : Venture.openings vs ⊆ made) {e : ChainEvent} (hspares : d.membership.view.Spares e)
    (htold : ∀ o ∈ made, ∀ o', e.opening? d.membership.view.ourAddress = some o' →
      o'.channelId = o.channelId → o' = o) :
    Accounted s p initial made (d.after s (.event e)) vs where
  seen := by
    intro o ho
    rcases h.seen o ho with hlacks | hshows
    · exact hlacks.apply hspares (htold o ho)
    · exact Or.inr (hshows.apply hspares (htold o ho))
  stays := fun id hid => (h.stays id hid).apply hspares
  known := by
    intro o ho
    have hmade := hgenuine ((Venture.kept_sublist vs).subset ho)
    exact (h.known o ho).imp_left (·.apply hspares (htold o hmade))
  room := h.room

/-- An operation goes on that uses the policy, or gets it. -/
theorem Accounted.goesOn (h : Accounted s p initial made d vs) (hgenuine : Genuine s initial made)
    (hinitial : initial.Nodup) {before later : List Phase} {phase : Phase} {w : Wake}
    (hsplit : d.phases = before ++ phase :: later) (hfits : phase.Fits p b)
    (hothers : ∀ q ∈ before ++ later, q.pending = [] ∧ q.awaits? = none)
    (hpolicy : (d.membership.resume s phase w).1.policy = p ∨
      (d.membership.resume s phase w).2.pending = [])
    (hmade : (Venture.openings (vs ++ d.membership.ventures s phase w)).Sublist made) :
    Accounted s p initial made ⟨(d.membership.resume s phase w).1,
      before ++ (d.membership.resume s phase w).2 :: later⟩
      (vs ++ d.membership.ventures s phase w) := by
  have hsame : d.membership.view.SameChannels (d.membership.resume s phase w).1.view :=
    (d.membership.resume_switches s phase w).sameChannels
  have hd : d = ⟨d.membership, before ++ phase :: later⟩ := by rw [← hsplit]
  have hpending : d.pending = phase.pending := by
    rw [hd]
    exact pending_split _ phase (fun q hq => (hothers q hq).1)
  have hawaited : d.awaited = phase.awaits?.toList := by
    rw [hd]
    exact awaited_split _ phase (fun q hq => (hothers q hq).2)
  have hnew := openings_ventures (s := s) d.membership phase w
  have hstays : ∀ id ∈ initial, (d.membership.resume s phase w).1.view.OpenAt s.tokenNetwork id :=
    fun id hid => (h.stays id hid).congr hsame
  refine ⟨fun o ho => (h.seen o ho).imp (·.congr hsame) (·.congr hsame), hstays, ?_, ?_⟩
  · -- What was opened or waited for is in view, or waited for, or lost.
    intro o ho
    rw [awaited_split _ _ (fun q hq => (hothers q hq).2), Option.mem_toList]
    obtain ⟨hcases, hnotLost⟩ := Venture.mem_kept_append_iff.mp ho
    have hseen := h.seen o (hmade.subset ((Venture.kept_sublist _).subset ho))
    have hsought := shows_or_awaits_of_seeks hseen hnotLost
    refine Or.imp_left (fun hshows => NetworkView.Shows.congr hshows hsame) ?_
    rcases hcases with hkept | ⟨hopened, -⟩
    · rcases h.known o hkept with hshows | hwaits
      · exact Or.inl hshows
      · rw [hawaited, Option.mem_toList] at hwaits
        rcases seeks?_of_awaits? (s := s) hwaits d.membership w with hseeks | hstays
        · exact hsought hseeks
        · rw [hstays]
          exact Or.inr hwaits
    · rw [hnew, Option.mem_toList] at hopened
      exact hsought (seeks?_of_opens? hopened)
  · rw [pending_split _ _ (fun q hq => (hothers q hq).1)]
    have hkept := Venture.kept_append_sublist vs (d.membership.ventures s phase w)
    rw [hnew] at hkept
    have hroom : Room p initial (Venture.kept vs) phase.pending := hpending ▸ h.room
    rcases hfits.pending_resume (s := s) d.membership w with
      hleft | ⟨hopens, hnone, hawaits, hmissing⟩
    · exact hroom.mono hkept hleft
    · rw [hopens, Option.toList_none] at hkept
      have hroom' : Room p initial (Venture.kept (vs ++ d.membership.ventures s phase w)) [] :=
        hroom.mono hkept (hnone ▸ .refl _)
      -- It begins to open what is missing. Nobody waits for a channel then, so all that is kept is
      -- in view and counted.
      rcases hpolicy with hpolicy | hidle
      · rw [hmissing, hpolicy]
        refine room_newPartners hroom' (hgenuine.sublist ((Venture.kept_sublist _).trans hmade))
          hinitial hstays ?_
        intro o ho
        rw [List.append_nil] at hkept
        refine NetworkView.Shows.congr ((h.known o (hkept.subset ho)).resolve_right ?_) hsame
        rw [hawaited, hawaits]
        exact List.not_mem_nil
      · rwa [hidle]

theorem Accounted.wake (h : Accounted s p initial made d vs) (hgenuine : Genuine s initial made)
    (hinitial : initial.Nodup) (hbudget : InBudget s p d b) (task : Nat) (w : Wake)
    (hmade : (Venture.openings (vs ++ d.venturesOf s (.wake task w))).Sublist made) :
    Accounted s p initial made (d.after s (.wake task w))
      (vs ++ d.venturesOf s (.wake task w)) := by
  have hnext := (hbudget.wake task w).1
  rcases d.wake_cases (s := s) task w with
    ⟨hnone, heq⟩ | ⟨before, phase, later, hsome, hsplit, hfree, heq⟩
  · have hventures : d.venturesOf s (.wake task w) = [] := by
      unfold venturesOf
      simp only [hnone]
    rw [heq, hventures, List.append_nil]
    exact h
  · have hventures : d.venturesOf s (.wake task w) = d.membership.ventures s phase w := by
      unfold venturesOf
      simp only [hsome]
    rw [heq] at hnext
    rw [hventures] at hmade
    rw [heq, hventures]
    have hfits : phase.Fits p b := hbudget.fits phase (by rw [hsplit]; simp)
    by_cases hbusy : phase.usesPolicy = true ∨ w = .granted
    · -- One at a time uses the policy, so all the others have nothing to open.
      have hothers : ∀ q ∈ before ++ later, q.usesPolicy = false :=
        hbusy.elim (hbudget.alone.others hsplit) (fun hw => others_of_free hsplit (hfree hw))
      refine h.goesOn hgenuine hinitial hsplit hfits ?_ ?_ hmade
      · intro q hq
        have hq' : q ∈ d.phases := by
          rw [hsplit]
          exact ((List.sublist_cons_self phase later).append_left before).mem hq
        obtain ⟨hpending, hawaits, -⟩ := (hbudget.fits q hq').quiet (s := s) (hothers q hq)
        exact ⟨hpending, hawaits⟩
      · refine hnext.policy.imp_right (fun ⟨_, htaken⟩ => ?_)
        have hmem : (d.membership.resume s phase w).2
            ∈ before ++ (d.membership.resume s phase w).2 :: later := by simp
        exact ((hnext.fits _ hmem).quiet (s := s) (isTaken_eq_false_iff.mp htaken _ hmem)).1
    · -- Without the policy the wait ends for nothing.
      obtain ⟨hquiet, hw⟩ := not_or.mp hbusy
      have hidle : phase.usesPolicy = false := Bool.eq_false_iff.mpr hquiet
      have hsame := (hfits.resume_idle (s := s) (m := d.membership) hidle (fun _ _ => hw)).2
      obtain ⟨-, -, hnothing⟩ := hfits.quiet (s := s) hidle
      rw [Membership.ventures, (hnothing w).1, (hnothing w).2, hsame, ← hsplit]
      exact (List.append_nil vs).symm ▸ h

theorem ourAddress_after (d : Desk) (move : Move) :
    (d.after s move).membership.view.ourAddress = d.membership.view.ourAddress := by
  have hswitches : ∀ {view : NetworkView}, d.membership.Switches s view →
      view.ourAddress = d.membership.view.ourAddress := by
    rintro view (rfl | ⟨blocked, rfl⟩) <;> rfl
  cases move with
  | start op => exact hswitches (d.membership.begin_switches s op)
  | event e => exact NetworkView.ourAddress_apply d.membership.view e
  | wake task w =>
      rcases d.wake_cases (s := s) task w with ⟨-, heq⟩ | ⟨before, phase, later, -, -, -, heq⟩
      · rw [heq]
      · rw [heq]
        exact hswitches (d.membership.resume_switches s phase w)

theorem Accounted.after (h : Accounted s p initial made d vs) (hgenuine : Genuine s initial made)
    (hinitial : initial.Nodup) (hbudget : InBudget s p d b) {move : Move}
    (hmove : d.Admits p move)
    (htold : ∀ e, move = .event e → ∀ o ∈ made, ∀ o',
      e.opening? d.membership.view.ourAddress = some o' → o'.channelId = o.channelId → o' = o)
    (hmade : (Venture.openings (vs ++ d.venturesOf s move)).Sublist made) :
    Accounted s p initial made (d.after s move) (vs ++ d.venturesOf s move) := by
  cases move with
  | start op => exact (List.append_nil vs).symm ▸ h.start hmove
  | wake task w => exact h.wake hgenuine hinitial hbudget task w hmade
  | event e =>
      rw [show d.venturesOf s (.event e) = [] from rfl, List.append_nil] at hmade ⊢
      exact h.event hmade.subset hmove (htold e rfl)

theorem Accounted.run {moves : List Move} (h : Accounted s p initial made d vs)
    (hgenuine : Genuine s initial made) (hinitial : initial.Nodup) (hbudget : InBudget s p d b)
    (hmoves : Undisturbed s p d moves)
    (htold : ∀ e, Move.event e ∈ moves → ∀ o ∈ made, ∀ o',
      e.opening? d.membership.view.ourAddress = some o' → o'.channelId = o.channelId → o' = o)
    (hmade : (Venture.openings (vs ++ d.ventures s moves)).Sublist made) :
    Accounted s p initial made (d.run s moves) (vs ++ d.ventures s moves) := by
  induction moves generalizing d b vs with
  | nil => exact (List.append_nil vs).symm ▸ h
  | cons move rest ih =>
      obtain ⟨hmove, hrest⟩ := hmoves
      rw [show d.ventures s (move :: rest)
        = d.venturesOf s move ++ (d.after s move).ventures s rest from rfl,
        ← List.append_assoc] at hmade ⊢
      -- What the whole run opens is fixed from the start, and each part of the run opens some of
      -- it.
      have hnow : (Venture.openings (vs ++ d.venturesOf s move)).Sublist made := by
        rw [Venture.openings_append] at hmade
        exact (List.sublist_append_left _ _).trans hmade
      refine ih (h.after hgenuine hinitial hbudget hmove ?_ hnow) (hbudget.after hmove).1 hrest ?_
        hmade
      · exact fun e he => htold e (he ▸ List.mem_cons_self)
      · intro e he
        rw [d.ourAddress_after]
        exact htold e (List.mem_cons_of_mem _ he)

theorem tokenNetwork_of_opened {moves : List Move} {o : Opening}
    (ho : o ∈ Venture.openings (d.ventures s moves)) : o.tokenNetwork = s.tokenNetwork := by
  induction moves generalizing d with
  | nil => cases ho
  | cons move rest ih =>
      rw [show d.ventures s (move :: rest)
        = d.venturesOf s move ++ (d.after s move).ventures s rest from rfl,
        Venture.openings_append] at ho
      refine (List.mem_append.mp ho).elim (fun hnow => ?_) ih
      cases move with
      | start op => cases hnow
      | event e => cases hnow
      | wake task w =>
          unfold venturesOf at hnow
          dsimp only at hnow
          split at hnow
          · cases hnow
          · rw [openings_ventures, Option.mem_toList] at hnow
            exact tokenNetwork_of_opens? hnow

end Accounted

/-- What the ledger and its events keep to in a run, by what was opened: every channel is a new
    one, and is told of as it was opened. -/
structure Truthful (s : ConnectionSettings) (view : NetworkView) (moves : List Move)
    (made : List Opening) : Prop where
  nodup : (made.map Opening.channelId).Nodup
  unseen : ∀ o ∈ made, view.Lacks o
  told : ∀ e, Move.event e ∈ moves → ∀ o ∈ made, ∀ o',
    e.opening? view.ourAddress = some o' → o'.channelId = o.channelId → o' = o

/-- Who channels are opened with, if a node joins with one policy, does not leave and keeps its
    channels. -/
structure PartnerLaw (s : ConnectionSettings) (p : Policy) (view : NetworkView)
    (moves : List Move) : Prop where
  /-- Openings that are not lost have different partners. -/
  partners : ((Venture.kept ((fresh ⟨view, .empty⟩).ventures s moves)).map Opening.partner).Nodup
  /-- There are as many of them at most as channels were missing. -/
  bound : (Venture.kept ((fresh ⟨view, .empty⟩).ventures s moves)).length
    ≤ p.channelTarget.val - (view.openChannels s.tokenNetwork).length

/-- Every such run keeps to the law. -/
theorem run_partnerLaw {s : ConnectionSettings} {p : Policy} {view : NetworkView}
    {moves : List Move} (h : Undisturbed s p (fresh ⟨view, .empty⟩) moves)
    (htruthful : Truthful s view moves
      (Venture.openings ((fresh ⟨view, .empty⟩).ventures s moves))) :
    PartnerLaw s p view moves := by
  have hgenuine : Genuine s (view.openPlaces s.tokenNetwork)
      (Venture.openings ((fresh ⟨view, .empty⟩).ventures s moves)) :=
    { nodup := htruthful.nodup
      new := by
        intro o ho hopen
        obtain ⟨c, hstored, -⟩ := NetworkView.mem_openPlaces_iff.mp hopen
        rw [← tokenNetwork_of_opened ho, (htruthful.unseen o ho).stored] at hstored
        cases hstored
      inNetwork := fun o ho => tokenNetwork_of_opened ho }
  have hfresh : Accounted s p (view.openPlaces s.tokenNetwork)
      (Venture.openings ((fresh ⟨view, .empty⟩).ventures s moves)) (fresh ⟨view, .empty⟩) [] :=
    { seen := fun o ho => Or.inl (htruthful.unseen o ho)
      stays := fun id hid => NetworkView.mem_openPlaces_iff.mp hid
      known := fun _ ho => nomatch ho
      room := ⟨List.nodup_nil, Nat.zero_le _⟩ }
  have hlast := (hfresh.run hgenuine (view.nodup_openPlaces s.tokenNetwork)
    (inBudget_fresh view) h htruthful.told (.refl _)).room
  refine ⟨hlast.partners.sublist (List.sublist_append_left _ _), ?_⟩
  rw [← NetworkView.length_openPlaces]
  exact Nat.le_trans (Nat.le_add_right _ _) hlast.bound

namespace GivenUp

def us : Address := .replicate 20 1

def node : Address := .replicate 20 17

/-- A channel that was opened is looked for once more. -/
def settings : ConnectionSettings := ⟨.replicate 20 170, us, .replicate 20 2, 100, 1, 1, 1⟩

def channelId (n : UInt8) : ChannelId := .replicate 32 n

def policy : Policy := ⟨100, 1, 0.0⟩

/-- We know of one node. -/
def view : NetworkView := (NetworkView.fresh us 5).addParticipant settings.tokenNetwork node

/-- The ledger opens a channel. -/
def opened (task : Nat) (n : UInt8) : Move :=
  .wake task (.answered (.ok (.opened (channelId n))))

/-- A channel with the node comes into view. -/
def seen (n : UInt8) : Move :=
  .event (.channelOpened settings.tokenNetwork (channelId n) us node 100 10)

/-- A node that wants one channel opens one that does not come into view, gives it up, and
    opens another one, before both come into view. -/
def moves : List Move :=
  [.start (.connect policy), .wake 0 .granted, opened 0 5, .wake 0 (.ticked true),
    .start .retryConnect, .wake 1 .granted, opened 1 6, seen 5, seen 6, .wake 1 (.ticked true),
    .wake 1 (.answered (.ok .done))]

def made (n : UInt8) : Opening := ⟨settings.tokenNetwork, channelId n, node⟩

theorem undisturbed_moves : Undisturbed settings policy (fresh ⟨view, .empty⟩) moves :=
  ⟨rfl, trivial, trivial, trivial, trivial, trivial, trivial, nofun, nofun, trivial, trivial,
    trivial⟩

theorem openings_moves :
    Venture.openings ((fresh ⟨view, .empty⟩).ventures settings moves) = [made 5, made 6] := by
  decide +kernel

theorem truthful_moves : Truthful settings view moves [made 5, made 6] where
  nodup := by decide +kernel
  unseen := by
    intro o ho
    simp only [List.mem_cons, List.not_mem_nil, or_false] at ho
    rcases ho with rfl | rfl
    · exact ⟨by decide +kernel, by decide +kernel⟩
    · exact ⟨by decide +kernel, by decide +kernel⟩
  told := by
    have hmade : ∀ n, n = 5 ∨ n = 6 → ∀ o ∈ [made 5, made 6],
        channelId n = o.channelId → made n = o := by
      intro n hn o ho
      simp only [List.mem_cons, List.not_mem_nil, or_false] at ho
      rcases hn with rfl | rfl <;> rcases ho with rfl | rfl
      · exact fun _ => rfl
      · exact fun hid => absurd hid (by decide +kernel)
      · exact fun hid => absurd hid (by decide +kernel)
      · exact fun _ => rfl
    intro e he o ho o' ho' hid
    simp only [moves, opened, seen, List.mem_cons, List.not_mem_nil, or_false, reduceCtorEq,
      false_or, Move.event.injEq] at he
    rcases he with rfl | rfl
    · cases ho'
      exact hmade 5 (Or.inl rfl) o ho hid
    · cases ho'
      exact hmade 6 (Or.inr rfl) o ho hid

/-- Two channels are opened with one partner, although only one channel was missing. -/
theorem opens_twice : policy.isValid = true ∧
    Undisturbed settings policy (fresh ⟨view, .empty⟩) moves ∧
    Truthful settings view moves
      (Venture.openings ((fresh ⟨view, .empty⟩).ventures settings moves)) ∧
    ¬ ((Venture.openings ((fresh ⟨view, .empty⟩).ventures settings moves)).map
      Opening.partner).Nodup ∧
    policy.channelTarget.val - (view.openChannels settings.tokenNetwork).length
      < (Venture.openings ((fresh ⟨view, .empty⟩).ventures settings moves)).length :=
  ⟨by decide +kernel, undisturbed_moves, openings_moves.symm ▸ truthful_moves,
    by decide +kernel, by decide +kernel⟩

/-- One of them was lost. The other one is as many as the law allows. -/
theorem run_partnerLaw_moves : Undisturbed settings policy (fresh ⟨view, .empty⟩) moves ∧
    Truthful settings view moves
      (Venture.openings ((fresh ⟨view, .empty⟩).ventures settings moves)) ∧
    PartnerLaw settings policy view moves ∧
    Venture.kept ((fresh ⟨view, .empty⟩).ventures settings moves) = [made 6] := by
  have htruthful : Truthful settings view moves
      (Venture.openings ((fresh ⟨view, .empty⟩).ventures settings moves)) :=
    openings_moves.symm ▸ truthful_moves
  exact ⟨undisturbed_moves, htruthful, run_partnerLaw undisturbed_moves htruthful,
    by decide +kernel⟩

end GivenUp

end Desk

end PaymentNetwork

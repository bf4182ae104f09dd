import PaymentNetwork.Proofs.Broker.Expiry

/-!
# No Expired Lock Is Left

What every run makes of the locks that a node sent and that expired.

After every input, no open channel holds a lock of ours that expired. A lock that expires
with an input is taken back by this input, and the partner of its channel is told of it
exactly once. Nobody is told of any other lock. Which transfer a lock was sent for does
not matter, and neither does it whether that transfer still goes on.

All that was said of one input is about the channels that are found under an identifier.
That these are all channels takes a ledger that opens no channel twice. If one was opened
again in another network, then the older channel would stay where it is stored, and the
node could not find it to take its locks back.

## Main definitions

* `NetworkView.Tracked`: Every channel that is stored is found.
* `Broker.Maintained`: What holds of a node before and after every input.
* `Broker.ExpiryLaw`: What a run makes of expired locks.

## Theorems

* `NetworkView.Tracked.apply`: The ledger keeps channels from hiding each other.
* `Broker.Maintained.after`, `Broker.Maintained.run`: Every input, and every run, leaves
  nothing that expired.
* `Broker.run_expiryLaw`: The law for every run.
-/

namespace PaymentNetwork

namespace NetworkView

/-! ### Stored channels are found -/

/-- Every channel that is stored has one of some identifiers, and its network is known by
    it. -/
def Tracked (ids : List ChannelId) (v : NetworkView) : Prop :=
  ∀ tokenNetwork id c, v.stored? tokenNetwork id = some c →
    id ∈ ids ∧ v.channelNetworks.get? id = some tokenNetwork

section Tracked

variable {ids : List ChannelId} {v : NetworkView}

theorem tracked_fresh (ourAddress : Address) (revealTimeout : Height) :
    (fresh ourAddress revealTimeout).Tracked [] := by
  intro tokenNetwork id c hc
  cases hc

theorem Tracked.channel? (h : v.Tracked ids) {tokenNetwork : Address} {id : ChannelId}
    {c : Channel} (hc : v.stored? tokenNetwork id = some c) : v.channel? id = some c :=
  channel?_of_find? (find?_eq_some_iff.mpr ⟨(h tokenNetwork id c hc).2, hc⟩)

theorem Tracked.mono (h : v.Tracked ids) (more : List ChannelId) : v.Tracked (ids ++ more) := by
  intro tokenNetwork id c hc
  obtain ⟨hid, hnetwork⟩ := h tokenNetwork id c hc
  exact ⟨List.mem_append_left more hid, hnetwork⟩

/-- What stores no more channels and knows the same networks keeps channels tracked. -/
theorem Tracked.congr (h : v.Tracked ids) {v' : NetworkView}
    (hnetworks : v'.channelNetworks = v.channelNetworks)
    (hstored : ∀ tokenNetwork id c, v'.stored? tokenNetwork id = some c →
      ∃ d, v.stored? tokenNetwork id = some d) : v'.Tracked ids := by
  intro tokenNetwork id c hc
  obtain ⟨d, hd⟩ := hstored tokenNetwork id c hc
  rw [hnetworks]
  exact h tokenNetwork id d hd

theorem Tracked.putChannel (h : v.Tracked ids) {tokenNetwork : Address} {channelId : ChannelId}
    {c : Channel} (hfind : v.find? channelId = some (tokenNetwork, c)) (c' : Channel) :
    (v.putChannel tokenNetwork channelId c').Tracked ids := by
  refine h.congr rfl (fun other id d hd => ?_)
  rcases stored?_putChannel_cases hfind c' other id with heq | ⟨-, -, hc, -⟩
  · exact ⟨d, heq.symm.trans hd⟩
  · exact ⟨c, hc⟩

/-- A channel that is added under a new identifier hides no other. -/
theorem Tracked.addChannel (h : v.Tracked ids) {c : Channel} (hnew : c.id ∉ ids) :
    (v.addChannel c).Tracked (ids ++ [c.id]) := by
  intro tokenNetwork id d hd
  by_cases hself : tokenNetwork = c.tokenNetwork ∧ id = c.id
  · obtain ⟨rfl, rfl⟩ := hself
    exact ⟨List.mem_append_right _ (List.mem_singleton.mpr rfl), SortedMap.get?_insert_self ..⟩
  · rw [stored?_addChannel_of_ne hself] at hd
    obtain ⟨hid, hnetwork⟩ := h tokenNetwork id d hd
    refine ⟨List.mem_append_left _ hid, Eq.trans ?_ hnetwork⟩
    exact SortedMap.get?_insert_of_ne (fun heq => hnew (heq ▸ hid))

/-- An event keeps channels tracked, if it does not open one under an identifier that was
    used before. -/
theorem Tracked.apply (h : v.Tracked ids) {e : ChainEvent}
    (hnew : ∀ id, (BrokerInput.chain e).opened? = some id → id ∉ ids) :
    (v.apply e).Tracked (ids ++ (BrokerInput.chain e).opened?.toList) := by
  have hlearn : (v.learn e).Tracked ids := h.congr (v.channelNetworks_learn e)
    (fun tokenNetwork id c hc => ⟨c, (v.stored?_learn e tokenNetwork id).symm.trans hc⟩)
  have hchange := v.change_apply e
  generalize v.apply e = w at hchange ⊢
  cases hchange with
  | opens hopened =>
      obtain ⟨_, id, _, _, _, _, _, rfl, rfl⟩ := exists_of_opened? hopened
      exact hlearn.addChannel (hnew id rfl)
  | turnsDown => exact hlearn.mono _
  | reaches hopened hid hfind => exact (h.mono _).putChannel hfind _
  | learns => exact hlearn.mono _

end Tracked

end NetworkView

namespace Broker

/-! ### Before and after every input -/

/-- Channels and transfers go back to offers, no channel hides another one, and no open
    channel holds a lock of ours that expired. -/
structure Maintained (ids : List ChannelId) (b : Broker) : Prop where
  logged : ∃ log, b.Logged log
  tracked : b.view.Tracked ids
  unexpired : b.view.Holds (fun _ c => c.Unexpired b.block)

section Maintained

variable {ids : List ChannelId} {b : Broker} {i : BrokerInput}

theorem maintained_fresh (ourAddress : Address) (revealTimeout block : Height) :
    Maintained [] (fresh (NetworkView.fresh ourAddress revealTimeout) block) :=
  ⟨⟨[], holds_fresh (NetworkView.holds_fresh ourAddress revealTimeout) block⟩,
    NetworkView.tracked_fresh ourAddress revealTimeout,
    NetworkView.holds_fresh ourAddress revealTimeout⟩

/-- Either the clock stands still, or the input is a block that is news. -/
theorem still_or_block (b : Broker) (i : BrokerInput) :
    (b.after i).block = b.block ∨
    ∃ number order, i = .block number order ∧ b.block < number ∧ (b.after i).block = number := by
  rw [block_of_reaction]
  rcases base_block b i with heq | ⟨number, order, heq, hi, hnews⟩
  · exact Or.inl heq
  · rw [heq]
    exact Or.inr ⟨number, order, hi, hnews, rfl⟩

theorem lasting_tracked (ids : List ChannelId) : Lasting (NetworkView.Tracked ids) :=
  fun _ _ _ _ c' hfind h => h.putChannel hfind c'

/-- An input leaves nothing that expired. -/
theorem Maintained.after (h : b.Maintained ids) (hnew : ∀ id, i.opened? = some id → id ∉ ids) :
    (b.after i).Maintained (ids ++ i.opened?.toList) := by
  obtain ⟨log, hlogged⟩ := h.logged
  refine ⟨⟨_, run_logged hlogged [i]⟩, ?_, ?_⟩
  · refine (lasting_tracked _).after (h.tracked.mono _) ?_
    rintro e rfl
    exact h.tracked.apply hnew
  · rcases b.still_or_block i with hstill | ⟨number, order, rfl, hnews, hblock⟩
    · rw [hstill]
      exact (react_still hlogged h.unexpired hstill).1
    · rw [hblock]
      exact (react_block hlogged hnews order).2

/-- A run leaves nothing that expired. -/
theorem Maintained.run (h : b.Maintained ids) {inputs : List BrokerInput}
    (hopened : (ids ++ inputs.filterMap BrokerInput.opened?).Nodup) :
    (b.run inputs).Maintained (ids ++ inputs.filterMap BrokerInput.opened?) := by
  induction inputs generalizing b ids with
  | nil =>
      rw [List.filterMap_nil, List.append_nil]
      exact h
  | cons i rest ih =>
      have hafter := h.after (fun id => BrokerInput.opened?_not_mem hopened)
      rw [BrokerInput.append_filterMap_opened?] at hopened ⊢
      exact ih hafter hopened

/-- The channel that is found after an input is the one that was stored before. -/
theorem Maintained.stored?_after (h : b.Maintained ids) {ids' : List ChannelId}
    (hafter : (b.after i).Maintained ids') {tokenNetwork : Address} {id : ChannelId}
    {c c' : Channel} (hc : b.view.stored? tokenNetwork id = some c)
    (hc' : (b.after i).view.channel? id = some c') :
    (b.after i).view.stored? tokenNetwork id = some c' := by
  obtain ⟨log, hlogged⟩ := h.logged
  obtain ⟨d, hd, -⟩ := address_after hlogged i hc
  rw [hd, ← hc', hafter.tracked.channel? hd]

/-- A lock of ours that expires with an input is taken back, and the partner is told
    once. -/
theorem Maintained.removed (h : b.Maintained ids) {ids' : List ChannelId}
    (hafter : (b.after i).Maintained ids') {tokenNetwork : Address} {id : ChannelId}
    {c : Channel} {k : SecretHash} {l : Lock} (hc : b.view.stored? tokenNetwork id = some c)
    (hopen : c.isOpen = true) (hl : c.ours.pendingLocks.get? k = some l)
    (hexpired : l.expiration ≤ (b.after i).block) :
    ∃ c', (b.after i).view.stored? tokenNetwork id = some c' ∧ c'.isOpen = true ∧
      c'.ours.pendingLocks.get? k = none ∧ removals id k (b.react i).2 = [c.partner.address] := by
  obtain ⟨log, hlogged⟩ := h.logged
  have hfound := h.tracked.channel? hc
  rcases b.still_or_block i with hstill | ⟨number, order, rfl, hnews, hblock⟩
  · -- The lock had not expired before, and it has not expired since.
    rw [hstill] at hexpired
    exact absurd (h.unexpired id c hfound hopen k l hl) (Word.not_lt.mpr hexpired)
  · have hpending := NetworkView.holding?_eq_some_iff.mpr ⟨c, hfound, hopen, rfl, hl⟩
    have htakes := (react_block hlogged hnews order).1 id k
    rw [hpending] at htakes
    rw [hblock] at hexpired
    generalize hleft : (b.after (.block number order)).view.holding? id k = left? at htakes
    generalize htold : removals id k (b.react (.block number order)).2 = told at htakes ⊢
    cases htakes with
    | kept =>
        -- Had the lock stayed, then it would be pending and expired.
        obtain ⟨c', hc', hopen', -, hl'⟩ := NetworkView.holding?_eq_some_iff.mp hleft
        have hlater := hafter.unexpired id c' hc' hopen' k l hl'
        rw [hblock] at hlater
        exact absurd hlater (Word.not_lt.mpr hexpired)
    | taken =>
        obtain ⟨c', hc', hopen', -, hl'⟩ := NetworkView.holding?_eq_some_iff.mp hleft
        exact ⟨c', h.stored?_after hafter hc hc', hopen', hl', rfl⟩

/-- Whoever is told that a lock is taken back is the partner of an open channel in which it
    expired. -/
theorem Maintained.told (h : b.Maintained ids) {id : ChannelId} {k : SecretHash}
    (htold : removals id k (b.react i).2 ≠ []) :
    ∃ tokenNetwork c l, b.view.stored? tokenNetwork id = some c ∧ c.isOpen = true ∧
      c.ours.pendingLocks.get? k = some l ∧ l.expiration ≤ (b.after i).block := by
  obtain ⟨log, hlogged⟩ := h.logged
  rcases b.still_or_block i with hstill | ⟨number, order, rfl, hnews, hblock⟩
  · exact absurd ((react_still hlogged h.unexpired hstill).2 id k) htold
  · obtain ⟨partner, l, hpending, hexpired, -, -⟩ :=
      ((react_block hlogged hnews order).1 id k).of_told htold
    obtain ⟨c, hc, hopen, -, hl⟩ := NetworkView.holding?_eq_some_iff.mp hpending
    obtain ⟨tokenNetwork, hfind⟩ := NetworkView.find?_of_channel? hc
    rw [hblock]
    exact ⟨tokenNetwork, c, l, NetworkView.stored?_of_find? hfind, hopen, hl, hexpired⟩

/-- A lock of ours that does not expire with a block stays where it is. -/
theorem Maintained.kept (h : b.Maintained ids) {ids' : List ChannelId} {number : Height}
    {order : List TransferKey} (hafter : (b.after (.block number order)).Maintained ids')
    {tokenNetwork : Address} {id : ChannelId} {c : Channel} {k : SecretHash} {l : Lock}
    (hc : b.view.stored? tokenNetwork id = some c) (hopen : c.isOpen = true)
    (hl : c.ours.pendingLocks.get? k = some l)
    (hlater : (b.after (.block number order)).block < l.expiration) :
    ∃ c', (b.after (.block number order)).view.stored? tokenNetwork id = some c' ∧
      c'.isOpen = true ∧ c'.ours.pendingLocks.get? k = some l := by
  obtain ⟨log, hlogged⟩ := h.logged
  have hfound := h.tracked.channel? hc
  suffices hleft : (b.after (.block number order)).view.holding? id k
      = some ⟨true, c.partner.address, some l⟩ by
    obtain ⟨c', hc', hopen', -, hl'⟩ := NetworkView.holding?_eq_some_iff.mp hleft
    exact ⟨c', h.stored?_after hafter hc hc', hopen', hl'⟩
  have hpending := NetworkView.holding?_eq_some_iff.mpr ⟨c, hfound, hopen, rfl, hl⟩
  by_cases hold : number ≤ b.block
  · -- A block that is no news changes nothing.
    rw [after_eq, reaction_block, if_pos hold]
    exact hpending
  · have hnews : b.block < number := Word.not_le.mp hold
    have htakes := (react_block hlogged hnews order).1 id k
    rw [hpending] at htakes
    rw [block_of_reaction, reaction_block, if_neg hold] at hlater
    generalize (b.after (.block number order)).view.holding? id k = left? at htakes ⊢
    generalize removals id k (b.react (.block number order)).2 = told at htakes
    cases htakes with
    | kept => rfl
    | taken hexpired => exact absurd hlater (Word.not_lt.mpr hexpired)

end Maintained

/-! ### Any run -/

/-- What a run makes of the locks of ours that expire. After any of its inputs, no open
    channel is left with one, and a lock goes for this reason only. When it goes, then the
    partner of the channel is told of it once, and nobody else is. -/
structure ExpiryLaw (b₀ : Broker) (inputs : List BrokerInput) : Prop where
  /-- After every input, what is pending in an open channel did not expire. -/
  clear : ∀ before later, inputs = before ++ later → ∀ tokenNetwork id c,
    (b₀.run before).view.stored? tokenNetwork id = some c → c.Unexpired (b₀.run before).block
  /-- A lock that expires with an input is taken back by it, with one message. -/
  removed : ∀ before i later, inputs = before ++ i :: later → ∀ tokenNetwork id c k l,
    (b₀.run before).view.stored? tokenNetwork id = some c → c.isOpen = true →
    c.ours.pendingLocks.get? k = some l → l.expiration ≤ ((b₀.run before).after i).block →
    ∃ c', ((b₀.run before).after i).view.stored? tokenNetwork id = some c' ∧
      c'.isOpen = true ∧ c'.ours.pendingLocks.get? k = none ∧
      removals id k ((b₀.run before).react i).2 = [c.partner.address]
  /-- Nobody is told that another lock was taken back. -/
  told : ∀ before i later, inputs = before ++ i :: later → ∀ id k,
    removals id k ((b₀.run before).react i).2 ≠ [] →
    ∃ tokenNetwork c l, (b₀.run before).view.stored? tokenNetwork id = some c ∧
      c.isOpen = true ∧ c.ours.pendingLocks.get? k = some l ∧
      l.expiration ≤ ((b₀.run before).after i).block
  /-- No block takes a lock before it expires. -/
  kept : ∀ before number order later, inputs = before ++ .block number order :: later →
    ∀ tokenNetwork id c k l, (b₀.run before).view.stored? tokenNetwork id = some c →
    c.isOpen = true → c.ours.pendingLocks.get? k = some l →
    ((b₀.run before).after (.block number order)).block < l.expiration →
    ∃ c', ((b₀.run before).after (.block number order)).view.stored? tokenNetwork id = some c' ∧
      c'.isOpen = true ∧ c'.ours.pendingLocks.get? k = some l

/-- In any run whose ledger opens no channel twice, no open channel is left with a lock of
    ours that expired, and each one is taken back with one message to its partner. -/
theorem run_expiryLaw (ourAddress : Address) (revealTimeout block : Height)
    (inputs : List BrokerInput) (hopened : (inputs.filterMap BrokerInput.opened?).Nodup) :
    ExpiryLaw (fresh (NetworkView.fresh ourAddress revealTimeout) block) inputs := by
  generalize hb₀ : fresh (NetworkView.fresh ourAddress revealTimeout) block = b₀
  have hmaintained : ∀ before later, inputs = before ++ later →
      (b₀.run before).Maintained ([] ++ before.filterMap BrokerInput.opened?) := by
    rintro before later rfl
    rw [← hb₀]
    rw [List.filterMap_append] at hopened
    exact (maintained_fresh ourAddress revealTimeout block).run (List.nodup_append.mp hopened).1
  have hafter : ∀ before i later, inputs = before ++ i :: later →
      ((b₀.run before).after i).Maintained
        ([] ++ (before ++ [i]).filterMap BrokerInput.opened?) := by
    intro before i later heq
    have hlast := hmaintained (before ++ [i]) later
      (heq.trans (List.append_cons before i later))
    rwa [run_append, run_cons, run_nil] at hlast
  constructor
  case clear =>
    intro before later heq tokenNetwork id c hc
    have h := hmaintained before later heq
    exact h.unexpired id c (h.tracked.channel? hc)
  case removed =>
    intro before i later heq tokenNetwork id c k l hc hopen hl hexpired
    exact (hmaintained before _ heq).removed (hafter before i later heq) hc hopen hl hexpired
  case told =>
    intro before i later heq id k htold
    exact (hmaintained before _ heq).told htold
  case kept =>
    intro before number order later heq tokenNetwork id c k l hc hopen hl hlater
    exact (hmaintained before _ heq).kept (hafter before _ later heq) hc hopen hl hlater

end Broker

/-! ### A payment that nobody answers -/

namespace OutgoingPayment

open Broker DoubleOffer

/-- The payee never asks for the secret, and the lock expires. -/
def unanswered : List BrokerInput :=
  inputs ++ [.block 100 ((fresh (NetworkView.fresh payee 5) 10).run inputs).transfers.keys]

theorem nodup_unanswered : (unanswered.filterMap BrokerInput.opened?).Nodup :=
  List.pairwise_singleton _ large.channelId

/-- The lock of the payment is pending until it expires. -/
theorem stored?_inputs : ∃ c,
    ((fresh (NetworkView.fresh payee 5) 10).run inputs).view.stored? large.tokenNetwork
      large.channelId = some c ∧
    c.isOpen = true ∧ c.partner.address = payer ∧
    c.ours.pendingLocks.get? (hashSecret large.secret) = some terms.lock := by
  obtain ⟨m, c, hsend, hfind, -⟩ := run_inputs
  obtain ⟨-, -, hpartner, hlock, -⟩ := Channel.sendTransfer_files hsend
  have hsound : funded.ours.Sound := (ChannelEnd.sound_fresh payee).congr rfl
  obtain ⟨-, -, -, -, rfl⟩ := Channel.sendTransfer_spec hsound hsend
  exact ⟨_, NetworkView.stored?_of_find? hfind, rfl, rfl, hlock⟩

theorem run_expiryLaw_unanswered :
    (unanswered.filterMap BrokerInput.opened?).Nodup ∧
    ∃ c, ((fresh (NetworkView.fresh payee 5) 10).run unanswered).view.stored?
        large.tokenNetwork large.channelId = some c ∧
      c.isOpen = true ∧ c.ours.pendingLocks.get? (hashSecret large.secret) = none ∧
      removals large.channelId (hashSecret large.secret)
        (((fresh (NetworkView.fresh payee 5) 10).run inputs).react (.block 100
          ((fresh (NetworkView.fresh payee 5) 10).run inputs).transfers.keys)).2 = [payer] := by
  refine ⟨nodup_unanswered, ?_⟩
  obtain ⟨c, hc, hopen, hpartner, hlock⟩ := stored?_inputs
  have hexpired := le_block_after ((fresh (NetworkView.fresh payee 5) 10).run inputs) 100
    ((fresh (NetworkView.fresh payee 5) 10).run inputs).transfers.keys
  have hremoved := (run_expiryLaw payee 5 10 unanswered nodup_unanswered).removed inputs _ [] rfl
    large.tokenNetwork large.channelId c (hashSecret large.secret) terms.lock hc hopen hlock
    hexpired
  rw [hpartner] at hremoved
  rwa [unanswered, run_append, run_cons, run_nil]

end OutgoingPayment

end PaymentNetwork

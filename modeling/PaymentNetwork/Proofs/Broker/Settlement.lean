import PaymentNetwork.Proofs.Broker.Unlock

/-!
# Which Unlock Settles a Transfer

When the unlock that ends a transfer is the unlock of its own lock.

A transfer that ends by an unlock should have been paid by it: the lock that it
began with leaves its channel, and the amount arrives there. The broker does not
see to that. A peer with two channels may offer a lock in each of them on one
secret. The first begins a transfer and the second is disposed, but its channel
files it all the same. Unlocked in the second channel, it ends the transfer that
began in the first.

What holds instead is the exact condition under which the two agree, and that it
is met by every history in which a node offers a hash only once. For this the
broker's locks have to be traced back to the messages that offered them: a pending
lock of a partner is one that it offered on this channel, and a transfer began with
one that was offered too.

## Main definitions

* `Broker.offered`: The lock that an input offers and its channel files.
* `Channel.Logged`, `Transfer.Logged`, `Broker.Logged`: Locks and transfers go back
  to offers.
* `Broker.Settles`: An unlock turns the lock of an offer into its amount.
* `Broker.UnlockLaw`: What is true of an unlock and a transfer in progress.
* `DoubleOffer.twoOffers`: Two offers on one secret, and the secret.

## Theorems

* `Broker.run_logged`: After any inputs, everything goes back to offers.
* `Broker.settles_iff_of_unlocks`: When what was unlocked is what is owed.
* `Broker.unlockLaw_of_logged`: The law where everything goes back to offers.
* `Broker.run_unlockLaw`: The law after any inputs.
* `DoubleOffer.run_twoOffers`: Offers on one secret in two channels leave a transfer
  that the wrong unlock would end.
-/

namespace PaymentNetwork

/-- The channel is sound, and every pending lock of the partner is one that it
    offered on the channel. -/
structure Channel.Logged (log : List Offer) (id : ChannelId) (c : Channel) : Prop where
  id_eq : c.id = id
  sound : c.Sound
  offered : ∀ secretHash l, c.partner.pendingLocks.get? secretHash = some l →
    (⟨c.partner.address, id, l⟩ : Offer) ∈ log

/-- The lock that the transfer began with was offered. -/
def Transfer.Logged (log : List Offer) (t : Transfer) : Prop :=
  ∀ o, t.offer? = some o → o ∈ log

namespace Channel

/-- What does not touch the partner's locks and its address keeps the offers. -/
theorem Logged.congr {log : List Offer} {id : ChannelId} {c c' : Channel} (h : c.Logged log id)
    (hid : c'.id = c.id) (hs : c'.Sound) (haddress : c'.partner.address = c.partner.address)
    (hlocks : ∀ secretHash l, c'.partner.pendingLocks.get? secretHash = some l →
      c.partner.pendingLocks.get? secretHash = some l) : c'.Logged log id where
  id_eq := hid.trans h.id_eq
  sound := hs
  offered secretHash l hl := by
    rw [haddress]
    exact h.offered secretHash l (hlocks secretHash l hl)

theorem Logged.mono {log : List Offer} {id : ChannelId} {c : Channel} (h : c.Logged log id)
    (more : List Offer) : c.Logged (log ++ more) id :=
  ⟨h.id_eq, h.sound, fun k l hl => List.mem_append_left more (h.offered k l hl)⟩

theorem logged_fresh (log : List Offer) (id : ChannelId)
    (tokenNetwork ourAddress partnerAddress : Address)
    (revealTimeout settleTimeout openedBlock : Height) :
    (fresh id tokenNetwork ourAddress partnerAddress revealTimeout settleTimeout
      openedBlock).Logged log id where
  id_eq := rfl
  sound := sound_fresh id tokenNetwork ourAddress partnerAddress revealTimeout settleTimeout
    openedBlock
  offered secretHash l hl := by
    have hempty : (SortedMap.empty : SortedMap SecretHash Lock).get? secretHash = some l := hl
    rw [SortedMap.get?_empty] at hempty
    cases hempty

theorem Logged.create {log : List Offer} {id : ChannelId} {c c' : Channel} (h : c.Logged log id)
    {r : ChannelRequest} {m : ChannelMessage} (hop : c.create r = .ok (m, c')) :
    c'.Logged log id := by
  have hs : c'.Sound := h.sound.create hop
  rcases create_spec (h.sound .ours) hop with ⟨-, -, change, -, -, -, rfl⟩
  exact h.congr rfl hs rfl (fun _ _ hl => hl)

theorem Logged.applyEvent {log : List Offer} {id : ChannelId} {c : Channel} (h : c.Logged log id)
    (e : ChainEvent) : (c.applyEvent e).Logged log id := by
  have haddress := after_address h.sound (.event e) .partner
  refine h.congr (applyEvent_id c e) (after_sound h.sound (.event e)) haddress ?_
  intro secretHash l hl
  have hl' : ((c.applyEvent e).endOf .partner).pendingLocks.get? secretHash = some l := hl
  rcases applyEvent_endOf c e .partner with heq | ⟨change, -, he, heq⟩
  · rw [heq] at hl'
    exact hl'
  · rw [heq] at hl'
    rcases ChainEvent.endChange?_cases he with ⟨total, rfl⟩ | ⟨total, rfl⟩ | ⟨k, rfl⟩
    · exact hl'
    · exact hl'
    · exact SortedMap.get?_of_get?_erase hl'

/-- A message that the channel accepts adds at most the lock that it offers. -/
theorem Logged.accept {log more : List Offer} {id : ChannelId} {c c' : Channel}
    (h : c.Logged log id) {m : ChannelMessage} {now : Height} (hop : c.accept m now = .ok c')
    (hmore : ∀ l, m.Shows (.added l) → (⟨c.partner.address, id, l⟩ : Offer) ∈ more) :
    c'.Logged (log ++ more) id := by
  have hs : c'.Sound := h.sound.accept hop
  rcases (accept_eq_ok_iff (h.sound .partner)).mp hop with ⟨-, -, -, change, hshows, -, rfl⟩
  have haddress : (c.partner.recommit change m.balanceProof).address = c.partner.address :=
    ChannelEnd.recommit_address
  cases change with
  -- A new lock is the offer itself, and the others were there before.
  | added l =>
      refine ⟨h.id_eq, hs, fun k l' hl' => ?_⟩
      rw [haddress]
      have hinserted : (c.partner.pendingLocks.insert l.secretHash l).get? k = some l' := hl'
      by_cases hk : k = l.secretHash
      · rw [hk, SortedMap.get?_insert_self, Option.some.injEq] at hinserted
        rw [← hinserted]
        exact List.mem_append_right log (hmore l hshows)
      · rw [SortedMap.get?_insert_of_ne hk] at hinserted
        exact List.mem_append_left more (h.offered k l' hinserted)
  | claimed l =>
      exact (h.mono more).congr rfl hs haddress (fun _ _ hl => SortedMap.get?_of_get?_erase hl)
  | removed l =>
      exact (h.mono more).congr rfl hs haddress (fun _ _ hl => SortedMap.get?_of_get?_erase hl)

end Channel

namespace Transfer

theorem Logged.mono {log : List Offer} {t : Transfer} (h : t.Logged log) (more : List Offer) :
    t.Logged (log ++ more) :=
  fun o ho => List.mem_append_left more (h o ho)

theorem Logged.step {log : List Offer} {t : Transfer} (h : t.Logged log) (i : Input) :
    (t.step i).1.Logged log := by
  intro o ho
  rw [step_offer?] at ho
  exact h o ho

end Transfer

namespace Broker

/-! ### Offers -/

/-- The lock that an input offers, if its channel files it. -/
def offered (b : Broker) : BrokerInput → List Offer
  | .message sender (.lockedTransfer m) =>
    match b.view.channel? m.balanceProof.channelId with
    | none => []
    | some c =>
      if m.sender = sender ∧ m.recipient = b.view.ourAddress ∧ c.partner.address = sender then
        match c.receiveTransfer m b.block with
        | .ok _ => [⟨sender, m.balanceProof.channelId, m.lock⟩]
        | .error _ => []
      else []
  | _ => []

theorem offered_of_ok {b : Broker} {sender : Address} {m : LockedTransfer} {c c' : Channel}
    (hto : b.isAddressed sender (.lockedTransfer m))
    (hc : b.view.channel? m.balanceProof.channelId = some c) (hpartner : c.partner.address = sender)
    (hop : c.receiveTransfer m b.block = .ok c') :
    b.offered (.message sender (.lockedTransfer m))
      = [⟨sender, m.balanceProof.channelId, m.lock⟩] := by
  rw [offered]
  simp only [hc, hop, if_pos (And.intro hto.1 (And.intro hto.2 hpartner))]

/-- The transfer of an offered lock begins with this lock on the payer's route. -/
theorem beginOffered_offer? (view : NetworkView) (block : Height) (payerRoute : Route)
    (m : LockedTransfer) :
    (beginOffered view block payerRoute m).1.offer?
      = some ⟨payerRoute.node, payerRoute.channelId, m.lock⟩ := by
  unfold beginOffered
  split
  · unfold Target.start
    dsimp only
    split
    · rfl
    · rfl
  · unfold Mediator.start
    -- The first route is tried at once, which does not change what was received.
    exact Transfer.offer?_of_mediator_sameDeal (Mediator.tryNextRoute_sameDeal _)

/-- All channels and all transfers of the broker go back to offers. -/
abbrev Logged (log : List Offer) (b : Broker) : Prop :=
  Holds (fun id c => c.Logged log id) (Transfer.Logged log) b

theorem closed_logged (log : List Offer) :
    Closed (fun id c => c.Logged log id) (Transfer.Logged log) where
  create _ _ _ _ _ h hop := h.create hop
  step _ i h := h.step i

theorem admits_logged {log : List Offer} {b : Broker} (h : b.Logged log) (i : BrokerInput) :
    Admits (fun id c => c.Logged (log ++ b.offered i) id) (Transfer.Logged (log ++ b.offered i))
      b i where
  pay terms hi o ho := by cases ho
  accept sender m cm c c' hi hto hm hc hpartner hop := by
    subst hi
    refine (h.channels _ c hc).accept hop (fun l hl => ?_)
    cases m with
    | lockedTransfer m =>
        cases hm
        cases hl
        rw [offered_of_ok hto hc hpartner hop, hpartner]
        exact List.mem_singleton_self _
    | unlock m =>
        cases hm
        exact hl.elim
    | lockRemoval m =>
        cases hm
        exact hl.elim
    | secretRequest m => cases hm
    | secretReveal m => cases hm
    | disposal m => cases hm
  begin sender m view c c' hi hto hc hpartner hop := by
    subst hi
    intro o ho
    -- The route back to the payer is that of the channel that filed the lock.
    have hlogged := h.channels _ c hc
    have hop' : c.accept (.transfer m) b.block = .ok c' := hop
    rcases (Channel.accept_eq_ok_iff (hlogged.sound .partner)).mp hop' with
      ⟨-, -, -, change, -, -, rfl⟩
    rw [beginOffered_offer?, Option.some.injEq] at ho
    have hnode : (c.partner.recommit change m.balanceProof).address = sender := by
      rw [ChannelEnd.recommit_address, hpartner]
    rw [offered_of_ok hto hc hpartner hop, ← ho]
    refine List.mem_append_right log (List.mem_singleton.mpr ?_)
    rw [Offer.mk.injEq]
    exact ⟨hnode, hlogged.id_eq, rfl⟩
  opened e _ id tokenNetwork ourAddress partnerAddress revealTimeout settleTimeout block :=
    Channel.logged_fresh ..
  chain e id c _ hc := hc.applyEvent e

/-- After any inputs, all locks and all transfers go back to offers that were made
    on the way, or before. -/
theorem run_logged {log : List Offer} {b : Broker} (h : b.Logged log)
    (inputs : List BrokerInput) :
    (b.run inputs).Logged (log ++ collect after offered b inputs) := by
  induction inputs generalizing b log with
  | nil =>
      rw [collect, List.append_nil]
      exact h
  | cons i rest ih =>
      have hmore := h.mono (fun id c hc => hc.mono (b.offered i))
        (fun t ht => ht.mono (b.offered i))
      have hafter := hmore.after (closed_logged _) (admits_logged h i)
      have hrest := ih hafter
      rw [List.append_assoc] at hrest
      exact hrest

/-! ### The law of unlocks -/

/-- The unlock turned the lock of the offer into its amount, in the channel of the
    offer. This is what a transfer that began with the offer is owed. -/
def Settles (v v' : NetworkView) (u : Unlock) (o : Offer) : Prop :=
  u.balanceProof.channelId = o.channelId ∧
    v.Unlocks v' o.channelId o.lock.secretHash o.lock.amount

/-- What is true of an unlock that `sender` sends while a transfer is in progress
    that began with the offer `o`. -/
structure UnlockLaw (log : List Offer) (b : Broker) (sender : Address) (u : Unlock)
    (k : TransferKey) (t : Transfer) (o : Offer) : Prop where
  /-- It ends the transfer exactly if the payer sent it, some channel with the payer
      takes it, and the transfer waits for an unlock on the hash of the secret. -/
  ends_iff : (b.after (.message sender (.unlock u))).transfers.get? k = none ↔
    b.TakesUnlock sender u ∧ o.lock.secretHash = hashSecret u.secret ∧
      t.awaitsUnlock = true ∧ o.sender = sender
  /-- A transfer that it ends is completed. -/
  completes : (b.after (.message sender (.unlock u))).transfers.get? k = none →
    (t.step (.proofReceived ⟨sender, hashSecret u.secret, .unlock u⟩)).1.isCompleted = true
  /-- Then a lock on the transfer's hash was unlocked in the channel of the unlock. -/
  unlocks : (b.after (.message sender (.unlock u))).transfers.get? k = none →
    ∃ c l, b.view.channel? u.balanceProof.channelId = some c ∧ c.partner.address = o.sender ∧
      c.partner.pendingLocks.get? o.lock.secretHash = some l ∧
      b.view.Unlocks (b.after (.message sender (.unlock u))).view u.balanceProof.channelId
        o.lock.secretHash l.amount
  /-- It settles the transfer exactly if this channel is the one of the transfer, and
      the lock that was pending there has the amount of the transfer. -/
  settles_iff : (b.after (.message sender (.unlock u))).transfers.get? k = none →
    (Settles b.view (b.after (.message sender (.unlock u))).view u o ↔
      u.balanceProof.channelId = o.channelId ∧
      ∃ c l, b.view.channel? o.channelId = some c ∧
        c.partner.pendingLocks.get? o.lock.secretHash = some l ∧ l.amount = o.lock.amount)
  /-- So it does if the payer offered the hash in one channel and for one amount. -/
  settles : (b.after (.message sender (.unlock u))).transfers.get? k = none →
    (∀ o' ∈ log, o'.sender = o.sender → o'.lock.secretHash = o.lock.secretHash →
      o'.channelId = o.channelId ∧ o'.lock.amount = o.lock.amount) →
    Settles b.view (b.after (.message sender (.unlock u))).view u o

/-- In the transfer's own channel only the two amounts can differ. -/
theorem settles_iff_of_unlocks {v v' : NetworkView} {u : Unlock} {o : Offer} {c : Channel}
    {l : Lock} (hc : v.channel? u.balanceProof.channelId = some c)
    (hl : c.partner.pendingLocks.get? o.lock.secretHash = some l)
    (hu : v.Unlocks v' u.balanceProof.channelId o.lock.secretHash l.amount) :
    Settles v v' u o ↔
      u.balanceProof.channelId = o.channelId ∧
      ∃ c l, v.channel? o.channelId = some c ∧
        c.partner.pendingLocks.get? o.lock.secretHash = some l ∧ l.amount = o.lock.amount := by
  refine and_congr_right (fun hid => ?_)
  rw [← hid]
  constructor
  · intro hu'
    exact ⟨c, l, hc, hl, hu.amount_eq hu'⟩
  · rintro ⟨c', l', hc', hl', hamount⟩
    cases hc.symm.trans hc'
    cases hl.symm.trans hl'
    rwa [hamount] at hu

/-- Some lock on the transfer's hash is unlocked whenever an unlock ends a transfer. -/
theorem unlocks_of_ended {log : List Offer} {b : Broker} (h : b.Logged log) {sender : Address}
    {u : Unlock} {k : TransferKey} {t : Transfer} {o : Offer}
    (ht : b.transfers.get? k = some t) (ho : t.offer? = some o)
    (hended : (b.after (.message sender (.unlock u))).transfers.get? k = none) :
    ∃ c l, b.view.channel? u.balanceProof.channelId = some c ∧ c.partner.address = o.sender ∧
      c.partner.pendingLocks.get? o.lock.secretHash = some l ∧
      b.view.Unlocks (b.after (.message sender (.unlock u))).view u.balanceProof.channelId
        o.lock.secretHash l.amount := by
  have hs : ∀ c, b.view.channel? u.balanceProof.channelId = some c → c.partner.Sound :=
    fun c hc => (h.channels _ c hc).sound .partner
  rcases (get?_unlock_eq_none_iff h.toFiled ht).mp hended with
    ⟨htakes, hsecret, -, o', ho', hsender⟩
  cases ho.symm.trans ho'
  -- The transfer is found under the hash of the lock that it began with.
  have hhash : o.lock.secretHash = hashSecret u.secret := by
    rw [Transfer.secretHash_of_offer? ho, ← hsecret]
    exact congrArg TransferKey.secretHash (h.filed k t ht)
  rcases receive_unlock_unlocks h.toFiled hs htakes with ⟨c, l, hc, hpartner, hl, hu⟩
  rw [← hhash] at hl hu
  exact ⟨c, l, hc, hpartner.trans hsender.symm, hl, hu⟩

/-- The law of unlocks, where everything goes back to offers. -/
theorem unlockLaw_of_logged {log : List Offer} {b : Broker} (h : b.Logged log) (sender : Address)
    (u : Unlock) {k : TransferKey} {t : Transfer} {o : Offer}
    (ht : b.transfers.get? k = some t) (ho : t.offer? = some o) :
    UnlockLaw log b sender u k t o := by
  have hhash : o.lock.secretHash = t.secretHash := Transfer.secretHash_of_offer? ho
  have hkey : t.secretHash = k.secretHash := congrArg TransferKey.secretHash (h.filed k t ht)
  have hends : (b.after (.message sender (.unlock u))).transfers.get? k = none ↔
      b.TakesUnlock sender u ∧ k.secretHash = hashSecret u.secret ∧ t.Expects sender :=
    get?_unlock_eq_none_iff h.toFiled ht
  refine ⟨?_, ?_, unlocks_of_ended h ht ho, ?_, ?_⟩
  · rw [hends, hhash, hkey]
    refine and_congr_right (fun _ => and_congr_right (fun _ => and_congr_right (fun _ => ?_)))
    constructor
    · rintro ⟨o', ho', hsender⟩
      cases ho.symm.trans ho'
      exact hsender
    · intro hsender
      exact ⟨o, ho, hsender⟩
  · intro hended
    rcases hends.mp hended with ⟨-, hsecret, hexpects⟩
    rw [← hsecret, ← hkey]
    exact (Transfer.step_unlock_of_expects u hexpects).1
  · intro hended
    rcases unlocks_of_ended h ht ho hended with ⟨c, l, hc, -, hl, hu⟩
    exact settles_iff_of_unlocks hc hl hu
  · intro hended honce
    rcases unlocks_of_ended h ht ho hended with ⟨c, l, hc, hpartner, hl, hu⟩
    have hlogged := h.channels _ c hc
    -- The lock that was unlocked goes back to an offer too, so it is the same offer.
    have hmem := hlogged.offered o.lock.secretHash l hl
    have hsame := honce _ hmem hpartner ((hlogged.sound .partner).keyed _ _ hl)
    have hchannel : u.balanceProof.channelId = o.channelId := hsame.1
    rw [settles_iff_of_unlocks hc hl hu, ← hchannel]
    exact ⟨rfl, c, l, hc, hl, hsame.2⟩

/-- After any inputs, counted from the start, everything goes back to offers. -/
theorem run_fresh_logged (ourAddress : Address) (revealTimeout block : Height)
    (inputs : List BrokerInput) :
    ((fresh (NetworkView.fresh ourAddress revealTimeout) block).run inputs).Logged
      (collect after offered (fresh (NetworkView.fresh ourAddress revealTimeout) block)
        inputs) := by
  have hfresh : (fresh (NetworkView.fresh ourAddress revealTimeout) block).Logged [] :=
    holds_fresh (NetworkView.holds_fresh ourAddress revealTimeout) block
  exact run_logged hfresh inputs

/-- After any inputs, an unlock ends the transfers that wait for its sender on its
    secret, and it settles those of them that began with the lock that it unlocked.
    If the sender offered the hash once, these are all of them. -/
theorem run_unlockLaw (ourAddress : Address) (revealTimeout block : Height)
    (inputs : List BrokerInput) (sender : Address) (u : Unlock) {k : TransferKey} {t : Transfer}
    {o : Offer}
    (ht : ((fresh (NetworkView.fresh ourAddress revealTimeout) block).run inputs).transfers.get? k
      = some t)
    (ho : t.offer? = some o) :
    UnlockLaw
      (collect after offered (fresh (NetworkView.fresh ourAddress revealTimeout) block) inputs)
      ((fresh (NetworkView.fresh ourAddress revealTimeout) block).run inputs) sender u k t o :=
  unlockLaw_of_logged (run_fresh_logged ourAddress revealTimeout block inputs) sender u ht ho

end Broker

/-! ### One secret in two channels -/

namespace DoubleOffer

open Broker

/-- The node that offers. -/
def payer : Address := FixedBytes.replicate 20 2

/-- The node that is offered, and is the target. -/
def payee : Address := FixedBytes.replicate 20 1

/-- One of the offers: its channel, its amount and its secret. -/
structure Leg where
  tokenNetwork : Address
  channelId : ChannelId
  amount : Amount
  secret : Secret

namespace Leg

variable (g : Leg)

/-- The lock that is offered. -/
def lock : Lock := ⟨g.amount, 100, hashSecret g.secret⟩

/-- The message with the lock. -/
def message : LockedTransfer :=
  ⟨1, payer, payee, payer, payee, g.lock,
    ⟨g.tokenNetwork, g.channelId, 1, 0, g.amount, locksroot [g.lock]⟩⟩

/-- The unlock of the lock. -/
def unlock : Unlock :=
  ⟨1, g.secret, ⟨g.tokenNetwork, g.channelId, 2, g.amount, 0, FixedBytes.zero 32⟩⟩

/-- The channel before the message, with a hundred deposited by the payer. -/
def funded : Channel :=
  { Channel.fresh g.channelId g.tokenNetwork payee payer 5 20 1 with
    partner := { ChannelEnd.fresh payer with contractBalance := 100 } }

/-- The channel after the message. -/
def filed : Channel :=
  { g.funded with partner := g.funded.partner.recommit (.added g.lock) g.message.balanceProof }

/-- The transfer that the lock begins, if no other is in progress. -/
def target : Target where
  ourAddress := payee
  payerRoute := g.filed.route
  terms := TransferTerms.ofMessage g.message
  blockNumber := 10
  status := .requestedSecret
  payerOnChain := false

/-- The transfer when the secret is known. -/
def waiting : Target :=
  { g.target with
    terms := { g.target.terms with secret? := some g.secret }
    status := .waitingUnlock }

theorem funded_recommits (h : g.amount ≤ 100) :
    g.funded.partner.Recommits g.channelId g.tokenNetwork g.funded.ours (.added g.lock)
      g.message.balanceProof where
  allowed := by
    have hroom : ChannelEnd.distributable { ChannelEnd.fresh payer with contractBalance := 100 }
        (ChannelEnd.fresh payee) = 100 := by decide
    exact ⟨rfl, Nat.le_trans h (Nat.le_of_eq (congrArg Word.val hroom.symm))⟩
  channelId_eq := rfl
  tokenNetwork_eq := rfl
  transferred := rfl
  locked := (Nat.add_zero _).symm
  root := rfl

theorem receiveTransfer_message (h : g.amount ≤ 100) :
    g.funded.receiveTransfer g.message 10 = .ok g.filed := by
  have hs : g.funded.partner.Sound := (ChannelEnd.sound_fresh payer).congr rfl
  have htime : (10 : Height) < 100 := by decide
  have hnonce : (0 : Nonce) < 1 := by decide
  exact (Channel.receiveTransfer_eq_ok_iff hs).mpr ⟨rfl, htime, hnonce, g.funded_recommits h, rfl⟩

theorem beginOffered_message {view : NetworkView} (h : view.ourAddress = payee) :
    beginOffered view 10 g.filed.route g.message
      = (.target g.target, [.sendSecretRequest payer 1 g.amount (hashSecret g.secret)]) := by
  have htarget : g.message.target = view.ourAddress := h.symm
  have htime : ¬ (TransferTerms.ofMessage g.message).expiration
      ≤ Word.satAdd 10 g.filed.route.revealTimeout := by
    change ¬ (100 : Height) ≤ Word.satAdd 10 5
    decide
  rw [beginOffered, if_pos htarget, h]
  unfold Target.start
  dsimp only
  rw [if_neg htime]
  rfl

theorem step_revealed :
    Transfer.step (.target g.target) (.secretRevealed ⟨payer, g.secret, hashSecret g.secret⟩)
      = (.target g.waiting,
        [.receivedSuccess 1 g.tokenNetwork payer g.amount (hashSecret g.secret),
          .sendSecretReveal payer g.secret]) := by
  have hlearn : g.target.onSecretReveal ⟨payer, g.secret, hashSecret g.secret⟩
      = g.target.learnSecret g.secret := if_neg (fun h => h rfl)
  have hearly : ¬ (g.waiting.status = .waitingUnlock ∧
      g.waiting.unlockDeadline ≤ g.waiting.blockNumber) := by
    have hblock : ¬ Word.satSub 100 5 ≤ (10 : Height) := by decide
    exact fun h => hblock h.2
  have hcheck : g.waiting.checkUnlockDeadline = (g.waiting, []) := by
    have hsecret : g.waiting.terms.secret? = some g.secret := rfl
    simp only [Target.checkUnlockDeadline, hsecret, if_neg hearly]
  change (g.target.onSecretReveal ⟨payer, g.secret, hashSecret g.secret⟩).map Transfer.target id = _
  rw [hlearn]
  unfold Target.learnSecret
  change Prod.map Transfer.target id (g.waiting.checkUnlockDeadline.1, _ :: _ ::
    g.waiting.checkUnlockDeadline.2) = _
  rw [hcheck]
  rfl

theorem receiveUnlock_unlock (h : g.amount ≤ 100) :
    g.filed.receiveUnlock g.unlock
      = .ok { g.filed with
          partner := g.filed.partner.recommit (.claimed g.lock) g.unlock.balanceProof } := by
  have hs : g.funded.partner.Sound := (ChannelEnd.sound_fresh payer).congr rfl
  have hnonce : (1 : Nonce) < 2 := by decide
  have hlocks : (g.filed.partner.recommit (.claimed g.lock) g.unlock.balanceProof).pendingLocks
      = SortedMap.empty := SortedMap.erase_insert_self g.lock (SortedMap.get?_empty _)
  have hrecommits : g.filed.partner.Recommits g.channelId g.tokenNetwork g.filed.ours
      (.claimed g.lock) g.unlock.balanceProof :=
    { allowed := SortedMap.get?_insert_self _ _ _
      channelId_eq := rfl
      tokenNetwork_eq := rfl
      transferred := (Nat.zero_add _).symm
      locked := by
        rw [ChannelEnd.pendingTotal, hlocks]
        rfl
      root := by
        rw [ChannelEnd.locksroot, hlocks]
        rfl }
  exact (Channel.receiveUnlock_eq_ok_iff ((g.funded_recommits h).sound hs)).mpr
    ⟨rfl, hnonce, g.lock, rfl, hrecommits, rfl⟩

end Leg

/-- An offer is filed. It begins a transfer if none is in progress on its hash. -/
theorem after_message {b : Broker} {g : Leg} (hus : b.view.ourAddress = payee)
    (hblock : b.block = 10)
    (hfind : b.view.find? g.channelId = some (g.tokenNetwork, g.funded))
    (hamount : g.amount ≤ 100) :
    b.after (.message payer (.lockedTransfer g.message))
      = if b.transfers.contains ⟨.target, hashSecret g.secret⟩ then
          { b with view := b.view.putChannel g.tokenNetwork g.channelId g.filed }
        else
          keep { b with view := b.view.putChannel g.tokenNetwork g.channelId g.filed }
            (.target g.target) := by
  have hsender : g.message.sender = payer := rfl
  have hrecipient : g.message.recipient = b.view.ourAddress := hus.symm
  have hop : g.funded.receiveTransfer g.message b.block = .ok g.filed := by
    rw [hblock]
    exact g.receiveTransfer_message hamount
  have hview : (b.view.putChannel g.tokenNetwork g.channelId g.filed).ourAddress = payee := hus
  have hbegin := g.beginOffered_message hview
  rw [← hblock] at hbegin
  have hsettle : (settle { b with view := b.view.putChannel g.tokenNetwork g.channelId g.filed }
      (.target g.target) [.sendSecretRequest payer 1 g.amount (hashSecret g.secret)]).1
      = keep { b with view := b.view.putChannel g.tokenNetwork g.channelId g.filed }
        (.target g.target) := settle_of_quiet _ _ rfl
  rw [← hsettle]
  exact receiveTransfer_of_ok hsender hrecipient hfind rfl hop hbegin

/-- The payer offers two locks, and shows the secret of the first. -/
def twoOffers (g g' : Leg) : List BrokerInput :=
  [.message payer (.lockedTransfer g.message), .message payer (.lockedTransfer g'.message),
    .message payer (.secretReveal ⟨g.secret⟩)]

/-- The broker after the first offer. -/
def begun (view : NetworkView) (g : Leg) : Broker :=
  keep (fresh (view.putChannel g.tokenNetwork g.channelId g.filed) 10) (.target g.target)

/-- The secret is what the transfer waited for. -/
theorem after_reveal {b : Broker} {g : Leg}
    (hinitiator : b.transfers.get? ⟨.initiator, hashSecret g.secret⟩ = none)
    (hmediator : b.transfers.get? ⟨.mediator, hashSecret g.secret⟩ = none)
    (htarget : b.transfers.get? ⟨.target, hashSecret g.secret⟩ = some (.target g.target)) :
    b.after (.message payer (.secretReveal ⟨g.secret⟩)) = b.keep (.target g.waiting) := by
  have hquiet : (Transfer.step (.target g.target)
      (.secretRevealed ⟨payer, g.secret, hashSecret g.secret⟩)).2.all Effect.isQuiet = true := by
    rw [g.step_revealed]
    rfl
  change (b.feedAll (.secretRevealed ⟨payer, g.secret, hashSecret g.secret⟩)
    [⟨.initiator, hashSecret g.secret⟩, ⟨.mediator, hashSecret g.secret⟩,
      ⟨.target, hashSecret g.secret⟩]).1 = b.keep (.target g.waiting)
  simp only [feedAll, feed_of_none hinitiator, feed_of_none hmediator,
    feed_of_quiet htarget hquiet, g.step_revealed]

/-- The payer offers two locks on one secret in two channels, and shows the secret.
    Then the transfer of the first lock waits for an unlock, and the channel of the
    second takes one. -/
theorem run_twoOffers {view : NetworkView} {g g' : Leg} (hus : view.ourAddress = payee)
    (hfind : view.find? g.channelId = some (g.tokenNetwork, g.funded))
    (hfind' : view.find? g'.channelId = some (g'.tokenNetwork, g'.funded))
    (hne : g'.channelId ≠ g.channelId) (hsecret : g'.secret = g.secret)
    (hamount : g.amount ≤ 100) (hamount' : g'.amount ≤ 100) :
    ((fresh view 10).run (twoOffers g g')).transfers.get? ⟨.target, hashSecret g.secret⟩
        = some (.target g.waiting) ∧
      ((fresh view 10).run (twoOffers g g')).TakesUnlock payer g'.unlock := by
  -- The first offer begins a transfer, which is the only one in progress.
  have hfirst : (fresh view 10).after (.message payer (.lockedTransfer g.message))
      = begun view g := after_message hus rfl hfind hamount
  have hview : (begun view g).view = view.putChannel g.tokenNetwork g.channelId g.filed :=
    keep_view _ _
  have hget : ∀ k, (begun view g).transfers.get? k
      = if k = ⟨.target, hashSecret g.secret⟩ then some (.target g.target) else none :=
    fun k => get?_keep_of_not_isTerminal rfl k
  have hfound : (begun view g).view.find? g'.channelId = some (g'.tokenNetwork, g'.funded) := by
    rw [hview, NetworkView.find?_putChannel_of_ne hne, hfind']
  -- So the second is filed in its channel, and begins none.
  have hcontains : (begun view g).transfers.contains ⟨.target, hashSecret g'.secret⟩ = true := by
    rw [SortedMap.contains, hget, hsecret, if_pos rfl]
    rfl
  have hsecond := after_message (hview.symm ▸ hus) (keep_block _ _) hfound hamount'
  rw [if_pos hcontains] at hsecond
  have hother : ∀ role, role ≠ .target →
      (begun view g).transfers.get? ⟨role, hashSecret g.secret⟩ = none := by
    intro role hrole
    rw [hget, if_neg (fun h => hrole (congrArg TransferKey.role h))]
  -- The secret reaches the one transfer under its key.
  have hthird := after_reveal (b := { begun view g with
      view := (begun view g).view.putChannel g'.tokenNetwork g'.channelId g'.filed })
    (hother .initiator (by decide)) (hother .mediator (by decide)) ((hget _).trans (if_pos rfl))
  rw [twoOffers, run_cons, run_cons, run_cons, run_nil, hfirst, hsecond, hthird]
  constructor
  · exact (get?_keep_of_not_isTerminal rfl _).trans (if_pos rfl)
  · refine ⟨g'.filed, _, ?_, rfl, g'.receiveUnlock_unlock hamount'⟩
    rw [keep_view]
    exact NetworkView.channel?_putChannel_self hfound

/-- The first offer: fifty, in the network `11`. -/
def large : Leg :=
  ⟨FixedBytes.replicate 20 11, FixedBytes.replicate 32 21, 50, FixedBytes.replicate 32 7⟩

/-- The second offer: one, in the network `12`. -/
def small : Leg :=
  ⟨FixedBytes.replicate 20 12, FixedBytes.replicate 32 22, 1, FixedBytes.replicate 32 7⟩

/-- Both channels are opened, and the payer deposits in both. -/
def openings : List BrokerInput :=
  [.chain (.channelOpened large.tokenNetwork large.channelId payee payer 20 1),
    .chain (.channelOpened small.tokenNetwork small.channelId payee payer 20 1),
    .chain (.channelNewDeposit large.tokenNetwork large.channelId payer 100 2),
    .chain (.channelNewDeposit small.tokenNetwork small.channelId payer 100 2)]

/-- The whole run. -/
def inputs : List BrokerInput := openings ++ twoOffers large small

theorem run_inputs :
    ((fresh (NetworkView.fresh payee 5) 10).run inputs).transfers.get?
        ⟨.target, hashSecret large.secret⟩ = some (.target large.waiting) ∧
      ((fresh (NetworkView.fresh payee 5) 10).run inputs).TakesUnlock payer small.unlock := by
  have hfind : ((fresh (NetworkView.fresh payee 5) 10).run openings).view.find? large.channelId
      = some (large.tokenNetwork, large.funded) := by decide +kernel
  have hfind' : ((fresh (NetworkView.fresh payee 5) 10).run openings).view.find? small.channelId
      = some (small.tokenNetwork, small.funded) := by decide +kernel
  have hrun : (fresh (NetworkView.fresh payee 5) 10).run inputs
      = (fresh ((fresh (NetworkView.fresh payee 5) 10).run openings).view 10).run
        (twoOffers large small) := List.foldl_append
  rw [hrun]
  exact run_twoOffers rfl hfind hfind' (by decide) rfl (by decide) (by decide)

/-- The unlock of the second lock ends the transfer of the first, and settles nothing
    of it. -/
theorem ends_unsettled :
    let b := (fresh (NetworkView.fresh payee 5) 10).run inputs
    let b' := b.after (.message payer (.unlock small.unlock))
    b.transfers.get? ⟨.target, hashSecret large.secret⟩ = some (.target large.waiting) ∧
    (Transfer.target large.waiting).offer? = some ⟨payer, large.channelId, large.lock⟩ ∧
    b'.transfers.get? ⟨.target, hashSecret large.secret⟩ = none ∧
    ¬ Settles b.view b'.view small.unlock ⟨payer, large.channelId, large.lock⟩ := by
  have hlaw := unlockLaw_of_logged (run_fresh_logged payee 5 10 inputs) payer small.unlock
    run_inputs.1 rfl
  have hended := hlaw.ends_iff.mpr ⟨run_inputs.2, rfl, rfl, rfl⟩
  have hchannels : small.channelId ≠ large.channelId := by decide
  exact ⟨run_inputs.1, rfl, hended, fun h => hchannels h.1⟩

theorem run_unlockLaw_twoOffers :
    ((fresh (NetworkView.fresh payee 5) 10).run inputs).transfers.get?
        ⟨.target, hashSecret large.secret⟩ = some (.target large.waiting) ∧
    (Transfer.target large.waiting).offer? = some ⟨payer, large.channelId, large.lock⟩ ∧
    UnlockLaw (collect after offered (fresh (NetworkView.fresh payee 5) 10) inputs)
      ((fresh (NetworkView.fresh payee 5) 10).run inputs) payer small.unlock
      ⟨.target, hashSecret large.secret⟩ (.target large.waiting)
      ⟨payer, large.channelId, large.lock⟩ :=
  ⟨run_inputs.1, rfl, run_unlockLaw payee 5 10 inputs payer small.unlock run_inputs.1 rfl⟩

end DoubleOffer

end PaymentNetwork

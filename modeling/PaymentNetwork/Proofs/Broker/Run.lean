import PaymentNetwork.Broker
import PaymentNetwork.Proofs.NetworkView
import PaymentNetwork.Proofs.Transfer.Offer

/-!
# Runs of a Broker

What is true of a broker after any sequence of payments, messages, blocks and
ledger events.

A broker changes its channels in few ways. It has a channel create a message, on
behalf of a transfer or to take an expired lock back; it has a channel accept a
message of a peer; and the ledger changes a channel. It changes its transfers by
letting them react to facts, and by beginning new ones. `Closed` names what a
property of channels and a property of transfers have to survive for the first of
these, and `Holds` is then kept by everything that a broker does on its own. What
is left of an input is the one channel that accepted a message, and the one
transfer that began with it.

The transfers of a block are visited in any order here. The broker itself uses one
order, but no result depends on which.

## Main definitions

* `BrokerInput`: A payment, a message, a block or a ledger event.
* `Broker.react`, `Broker.after`, `Broker.run`: What comes of an input, and of many.
* `Broker.Closed`: Properties that reactions and created messages keep.
* `Broker.Holds`: All channels and all transfers in progress have a property.
* `Broker.Admits`: What an input may bring on top of reactions.

## Theorems

* `Broker.settle_of_quiet`: Effects that leave the channels alone only concern the
  transfer.
* `Broker.Holds.settle`, `Broker.Holds.feedAll`: Reactions keep what is closed.
* `Broker.receiveTransfer_of_ok`: What comes of an offer that its channel files.
* `Broker.receiveTransfer_cases`, `Broker.receiveProof_cases`: What a message of a
  peer does.
* `Broker.Holds.after`: An input keeps what is closed and what it may bring.
-/

namespace PaymentNetwork

/-- Something that reaches a broker. -/
inductive BrokerInput where
  | pay (terms : TransferTerms)
  | message (sender : Address) (m : Message)
  /-- A block, with the order in which the transfers are visited. -/
  | block (number : Height) (order : List TransferKey)
  | chain (e : ChainEvent)
deriving DecidableEq

namespace Message

/-- The message as one that changes the end of its sender in a channel. -/
def channelMessage? : Message → Option ChannelMessage
  | lockedTransfer m => some (.transfer m)
  | unlock m => some (.unlock m)
  | lockRemoval m => some (.removal m)
  | _ => none

end Message

namespace Transfer

/-- The role and the secret hash of the transfer. -/
def key (t : Transfer) : TransferKey := ⟨t.role, t.secretHash⟩

theorem step_key (t : Transfer) (i : Input) : (t.step i).1.key = t.key := by
  rw [key, step_role, step_secretHash, key]

end Transfer

namespace Broker

/-- What comes of an input. A payment that may not begin changes nothing. -/
def react (b : Broker) : BrokerInput → Broker × List Action
  | .pay terms =>
    match b.pay terms with
    | .ok r => r
    | .error _ => (b, [])
  | .message sender m => b.receive sender m
  | .block number order => b.advanceInOrder number order
  | .chain e => { b with view := b.view.apply e }.observe e

/-- The broker after an input. -/
def after (b : Broker) (i : BrokerInput) : Broker := (b.react i).1

/-- The broker after some inputs. -/
def run (b : Broker) (inputs : List BrokerInput) : Broker := inputs.foldl after b

@[simp] theorem run_nil (b : Broker) : b.run [] = b := rfl

@[simp] theorem run_cons (b : Broker) (i : BrokerInput) (inputs : List BrokerInput) :
    b.run (i :: inputs) = (b.after i).run inputs := rfl

/-! ### Effects -/

theorem perform_view_of_quiet (view : NetworkView) (block : Height) {e : Effect}
    (h : e.isQuiet = true) : (perform view block e).view = view := by
  cases e with
  | sendLockedTransfer => cases h
  | sendUnlock => cases h
  | sendLockRemoval => cases h
  | _ => rfl

theorem drain_of_quiet (view : NetworkView) (block : Height) (t : Transfer)
    {effects : List Effect} (h : effects.all Effect.isQuiet = true) :
    (drain view block t effects).1 = t ∧ (drain view block t effects).2.view = view := by
  induction effects generalizing view with
  | nil =>
      rw [drain]
      exact ⟨rfl, rfl⟩
  | cons e rest ih =>
      rw [List.all_cons, Bool.and_eq_true] at h
      have hview := perform_view_of_quiet view block h.1
      have hrest := ih view h.2
      cases e with
      | sendLockedTransfer => cases h.1
      | _ =>
          rw [drain]
          · rw [hview]
            exact hrest
          · intro recipient channelId terms hsend
            cases hsend

/-- Effects that leave the channels alone only concern the transfer. -/
theorem settle_of_quiet (b : Broker) (t : Transfer) {effects : List Effect}
    (h : effects.all Effect.isQuiet = true) : (b.settle t effects).1 = b.keep t := by
  have hdrain := drain_of_quiet b.view b.block t h
  rw [settle]
  simp only [hdrain.1, hdrain.2]

/-! ### What a broker keeps on its own -/

/-- A property of channels that created messages keep, and a property of transfers
    that reactions keep. -/
structure Closed (P : ChannelId → Channel → Prop) (R : Transfer → Prop) : Prop where
  create : ∀ id c r m c', P id c → c.create r = .ok (m, c') → P id c'
  step : ∀ t i, R t → R (t.step i).1

/-- All channels and all transfers in progress have a property, and the transfers
    are filed under their own keys. -/
structure Holds (P : ChannelId → Channel → Prop) (R : Transfer → Prop) (b : Broker) : Prop where
  channels : b.view.Holds P
  filed : ∀ k t, b.transfers.get? k = some t → t.key = k
  inProgress : ∀ k t, b.transfers.get? k = some t → t.isTerminal = false
  transfers : ∀ k t, b.transfers.get? k = some t → R t

section Holds

variable {P : ChannelId → Channel → Prop} {R : Transfer → Prop}

theorem holds_fresh {view : NetworkView} (h : view.Holds P) (block : Height) :
    Holds P R (fresh view block) where
  channels := h
  filed k t ht := by
    rw [fresh, SortedMap.get?_empty] at ht
    cases ht
  inProgress k t ht := by
    rw [fresh, SortedMap.get?_empty] at ht
    cases ht
  transfers k t ht := by
    rw [fresh, SortedMap.get?_empty] at ht
    cases ht

theorem Holds.mono {P' : ChannelId → Channel → Prop} {R' : Transfer → Prop} {b : Broker}
    (h : Holds P R b) (hp : ∀ id c, P id c → P' id c) (hr : ∀ t, R t → R' t) :
    Holds P' R' b where
  channels := h.channels.mono hp
  filed := h.filed
  inProgress := h.inProgress
  transfers k t ht := hr t (h.transfers k t ht)

/-- Another view or block does not touch the transfers. -/
theorem Holds.withView {b : Broker} (h : Holds P R b) {view : NetworkView} {block : Height}
    (hview : view.Holds P) : Holds P R { b with view := view, block := block } where
  channels := hview
  filed := h.filed
  inProgress := h.inProgress
  transfers := h.transfers

theorem Holds.keep {b : Broker} (h : Holds P R b) {t : Transfer} (hr : R t) :
    Holds P R (b.keep t) := by
  unfold Broker.keep
  dsimp only
  split
  -- A transfer that is over is forgotten, and whoever is left was there before.
  · refine ⟨h.channels, ?_, ?_, ?_⟩
    · exact fun k t' ht' => h.filed k t' (SortedMap.get?_of_get?_erase ht')
    · exact fun k t' ht' => h.inProgress k t' (SortedMap.get?_of_get?_erase ht')
    · exact fun k t' ht' => h.transfers k t' (SortedMap.get?_of_get?_erase ht')
  · rename_i hterminal
    have hget : ∀ k t', (b.transfers.insert t.key t).get? k = some t' →
        (k = t.key ∧ t' = t) ∨ b.transfers.get? k = some t' := by
      intro k t' ht'
      by_cases hk : k = t.key
      · subst hk
        rw [SortedMap.get?_insert_self, Option.some.injEq] at ht'
        exact Or.inl ⟨rfl, ht'.symm⟩
      · rw [SortedMap.get?_insert_of_ne hk] at ht'
        exact Or.inr ht'
    refine ⟨h.channels, ?_, ?_, ?_⟩
    · intro k t' ht'
      rcases hget k t' ht' with ⟨rfl, rfl⟩ | hold
      · rfl
      · exact h.filed k t' hold
    · intro k t' ht'
      rcases hget k t' ht' with ⟨-, rfl⟩ | hold
      · exact Bool.eq_false_iff.mpr hterminal
      · exact h.inProgress k t' hold
    · intro k t' ht'
      rcases hget k t' ht' with ⟨-, rfl⟩ | hold
      · exact hr
      · exact h.transfers k t' hold

theorem build_holds {view : NetworkView} (h : view.Holds P) {α : Type} {channelId : ChannelId}
    {recipient : Address} {operation : Channel → Except ChannelError (α × Channel)}
    (message : α → Message) (complaint : ChannelError → List Action)
    (hop : ∀ c a c', P channelId c → operation c = .ok (a, c') → P channelId c') :
    (build view channelId recipient operation message complaint).view.Holds P := by
  unfold build
  split
  · rename_i m view' hbuild
    exact h.withPartnerChannel hbuild (fun c c' hp _ hc => hop c m c' hp hc)
  · exact h

theorem perform_holds (hc : Closed P R) {view : NetworkView} (h : view.Holds P) (block : Height)
    (e : Effect) : (perform view block e).view.Holds P := by
  cases e with
  | sendUnlock recipient channelId paymentId secret secretHash =>
      refine build_holds h _ _ (fun c m c' hp hop => ?_)
      refine hc.create channelId c (.unlock paymentId secret) (.unlock m) c' hp ?_
      rw [Channel.create, hop]
      rfl
  | sendLockRemoval recipient channelId secretHash =>
      refine build_holds h _ _ (fun c m c' hp hop => ?_)
      refine hc.create channelId c (.removal secretHash block) (.removal m) c' hp ?_
      rw [Channel.create, hop]
      rfl
  | _ => exact h

/-- The effects of a transfer keep what is closed, those included that follow from
    refusals. -/
theorem drain_holds (hc : Closed P R) {view : NetworkView} (h : view.Holds P) (block : Height)
    {t : Transfer} (hr : R t) (effects : List Effect) :
    (drain view block t effects).2.view.Holds P ∧ R (drain view block t effects).1 := by
  fun_induction drain view block t effects with
  -- Nothing is left to do.
  | case1 view t => exact ⟨h, hr⟩
  -- The channel created the locked transfer.
  | case2 view t recipient channelId terms rest m view' hsend t' o hdrain ih =>
      have hview : view'.Holds P := by
        refine h.withPartnerChannel hsend (fun c c' hp _ hop => ?_)
        refine hc.create channelId c (.transfer terms block) (.transfer m) c' hp ?_
        rw [Channel.create, hop]
        rfl
      have hrest := ih hview hr
      rwa [hdrain] at hrest
  -- The channel refused it, and the transfer reacts to that.
  | case3 view t recipient channelId terms rest e hsend refusal ih => exact ih h (hc.step t _ hr)
  -- Any other effect asks a channel for a message, or for none.
  | case4 view t effect rest hne done t' o hdrain ih =>
      have hrest := ih (perform_holds hc h block effect) hr
      rwa [hdrain] at hrest

theorem Holds.settle (hc : Closed P R) {b : Broker} (h : Holds P R b) {t : Transfer} (hr : R t)
    (effects : List Effect) : Holds P R (b.settle t effects).1 := by
  have hdrain := drain_holds hc h.channels b.block hr effects
  exact (h.withView hdrain.1).keep hdrain.2

theorem Holds.feed (hc : Closed P R) {b : Broker} (h : Holds P R b) (i : Input)
    (key : TransferKey) : Holds P R (b.feed i key).1 := by
  unfold Broker.feed
  split
  · exact h
  · rename_i t ht
    exact h.settle hc (hc.step t i (h.transfers key t ht)) _

theorem Holds.feedAll (hc : Closed P R) {b : Broker} (h : Holds P R b) (i : Input)
    (keys : List TransferKey) : Holds P R (b.feedAll i keys).1 := by
  induction keys generalizing b with
  | nil => exact h
  | cons key rest ih => exact ih (h.feed hc i key)

theorem removeLocks_holds (hc : Closed P R) {view : NetworkView} (h : view.Holds P)
    (block : Height) (locks : List NetworkView.SentLock) :
    (removeLocks view block locks).view.Holds P := by
  induction locks generalizing view with
  | nil => exact h
  | cons l rest ih =>
      refine ih (build_holds h _ _ (fun c m c' hp hop => ?_))
      refine hc.create l.channelId c (.removal l.secretHash block) (.removal m) c' hp ?_
      rw [Channel.create, hop]
      rfl

theorem Holds.advanceInOrder (hc : Closed P R) {b : Broker} (h : Holds P R b) (block : Height)
    (order : List TransferKey) : Holds P R (b.advanceInOrder block order).1 := by
  unfold Broker.advanceInOrder
  split
  · exact h
  · have hblock : Holds P R { b with block := block } := h.withView h.channels
    have hfed := hblock.feedAll hc (.block block) order
    exact hfed.withView (removeLocks_holds hc hfed.channels block _)

theorem Holds.observe (hc : Closed P R) {b : Broker} (h : Holds P R b) (e : ChainEvent) :
    Holds P R (b.observe e).1 := by
  cases e with
  | secretRegistered => exact h.feedAll hc _ _
  | channelClosed => exact h.feedAll hc _ _
  | _ => exact h

theorem Holds.begin? (hc : Closed P R) {b b' : Broker} (h : Holds P R b) {t : Transfer} (hr : R t)
    {effects : List Effect} {actions : List Action} (hb : b.begin? t effects = .ok (b', actions)) :
    Holds P R b' := by
  rw [Broker.begin?, ite_error_eq_ok_iff, Except.ok.injEq] at hb
  have hsettle := h.settle hc hr effects
  rwa [hb.2] at hsettle

end Holds

/-! ### The messages of a peer -/

/-- A lock that its channel files begins a transfer, unless one is in progress on
    it already. -/
theorem receiveTransfer_of_ok {b : Broker} {sender : Address} {m : LockedTransfer}
    {tokenNetwork : Address} {c c' : Channel} {t : Transfer} {effects : List Effect}
    (hsender : m.sender = sender) (hrecipient : m.recipient = b.view.ourAddress)
    (hfind : b.view.find? m.balanceProof.channelId = some (tokenNetwork, c))
    (hpartner : c.partner.address = sender) (hop : c.receiveTransfer m b.block = .ok c')
    (hstart : beginOffered (b.view.putChannel tokenNetwork m.balanceProof.channelId c') b.block
      c'.route m = (t, effects)) :
    (b.receiveTransfer sender m).1 =
      if b.transfers.contains t.key then
        { b with view := b.view.putChannel tokenNetwork m.balanceProof.channelId c' }
      else
        (settle { b with view := b.view.putChannel tokenNetwork m.balanceProof.channelId c' } t
          effects).1 := by
  have hparties : ¬ (m.sender ≠ sender ∨ m.recipient ≠ b.view.ourAddress) := by
    rintro (h | h)
    · exact h hsender
    · exact h hrecipient
  -- All three checks pass: the parties, the channel and its partner, the message.
  have haccept : b.view.withPartnerChannel m.balanceProof.channelId sender
      (fun c => (c.receiveTransfer m b.block).map fun c' => (c'.route, c'))
      = .ok (c'.route, b.view.putChannel tokenNetwork m.balanceProof.channelId c') :=
    NetworkView.withPartnerChannel_eq_ok_iff.mpr
      ⟨tokenNetwork, c, c', hfind, hpartner, by rw [hop]; rfl, rfl⟩
  rw [receiveTransfer, if_neg hparties]
  simp only [haccept, hstart]
  unfold begin?
  by_cases hprogress : b.transfers.contains t.key = true
  · have hprogress' : b.transfers.contains ⟨t.role, t.secretHash⟩ = true := hprogress
    simp only [if_pos hprogress, if_pos hprogress']
  · have hprogress' : ¬ b.transfers.contains ⟨t.role, t.secretHash⟩ = true := hprogress
    simp only [if_neg hprogress, if_neg hprogress']

/-- An offered lock is refused, or its channel files it. -/
theorem receiveTransfer_cases (b : Broker) (sender : Address) (m : LockedTransfer) :
    (b.receiveTransfer sender m).1 = b ∨
    (∃ tokenNetwork c c', m.sender = sender ∧ m.recipient = b.view.ourAddress ∧
      b.view.find? m.balanceProof.channelId = some (tokenNetwork, c) ∧
      c.partner.address = sender ∧ c.receiveTransfer m b.block = .ok c') := by
  rw [receiveTransfer]
  by_cases hparties : m.sender ≠ sender ∨ m.recipient ≠ b.view.ourAddress
  · rw [if_pos hparties]
    exact Or.inl rfl
  · rw [if_neg hparties]
    rw [not_or, Decidable.not_not, Decidable.not_not] at hparties
    dsimp only
    split
    · exact Or.inl rfl
    · rename_i payerRoute view haccept
      rcases NetworkView.withPartnerChannel_eq_ok_iff.mp haccept with
        ⟨tokenNetwork, c, c', hfind, hpartner, hop, rfl⟩
      rcases map_eq_ok_iff.mp hop with ⟨c₁, hreceive, -⟩
      exact Or.inr ⟨tokenNetwork, c, c₁, hparties.1, hparties.2, hfind, hpartner, hreceive⟩

/-- A change of the partner's end is refused, or its channel takes it and the
    transfers on the lock are told. -/
theorem receiveProof_cases (b : Broker) (sender : Address) (what : String)
    (channelId : ChannelId) (secretHash : SecretHash) (message : ProofMessage)
    (operation : Channel → Except ChannelError Channel) :
    ((b.receiveProof sender what channelId secretHash message operation).1 = b ∧
      ∀ c c', b.view.channel? channelId = some c → c.partner.address = sender →
        operation c ≠ .ok c') ∨
    (∃ tokenNetwork c c', b.view.find? channelId = some (tokenNetwork, c) ∧
      c.partner.address = sender ∧ operation c = .ok c' ∧
      b.receiveProof sender what channelId secretHash message operation
        = dispatch { b with view := b.view.putChannel tokenNetwork channelId c' }
          [.mediator, .target] secretHash (.proofReceived ⟨sender, secretHash, message⟩)) := by
  rw [receiveProof]
  split
  · rename_i e hreject
    refine Or.inl ⟨rfl, ?_⟩
    intro c c' hc hpartner hop
    rcases NetworkView.find?_of_channel? hc with ⟨tokenNetwork, hfind⟩
    have haccept : b.view.withPartnerChannel channelId sender
        (fun c => (operation c).map fun c' => ((), c'))
        = .ok ((), b.view.putChannel tokenNetwork channelId c') :=
      NetworkView.withPartnerChannel_eq_ok_iff.mpr
        ⟨tokenNetwork, c, c', hfind, hpartner, by rw [hop]; rfl, rfl⟩
    rw [haccept] at hreject
    cases hreject
  · rename_i view haccept
    rcases NetworkView.withPartnerChannel_eq_ok_iff.mp haccept with
      ⟨tokenNetwork, c, c', hfind, hpartner, hop, rfl⟩
    rcases map_eq_ok_iff.mp hop with ⟨c₁, hc, heq⟩
    cases heq
    exact Or.inr ⟨tokenNetwork, c, c', hfind, hpartner, hc, rfl⟩

/-! ### Any input -/

/-- Is a message meant for us, by the peer that it came from? Only an offer says. -/
def isAddressed (b : Broker) (sender : Address) : Message → Prop
  | .lockedTransfer m => m.sender = sender ∧ m.recipient = b.view.ourAddress
  | _ => True

/-- What an input may bring on top of reactions and created messages: a payment
    begins, a channel accepts a message of a peer, the offer in it is the start of a
    transfer, or the ledger opens and changes channels. -/
structure Admits (P : ChannelId → Channel → Prop) (R : Transfer → Prop) (b : Broker)
    (i : BrokerInput) : Prop where
  pay : ∀ terms, i = .pay terms →
    R (.initiator (Initiator.start
      ⟨b.view.ourAddress, terms, b.view.routes terms.tokenNetwork⟩ b.block).1)
  accept : ∀ sender m cm c c', i = .message sender m → b.isAddressed sender m →
    m.channelMessage? = some cm → b.view.channel? cm.balanceProof.channelId = some c →
    c.partner.address = sender → c.accept cm b.block = .ok c' → P cm.balanceProof.channelId c'
  begin : ∀ sender m view c c', i = .message sender (.lockedTransfer m) →
    b.isAddressed sender (.lockedTransfer m) →
    b.view.channel? m.balanceProof.channelId = some c →
    c.partner.address = sender → c.receiveTransfer m b.block = .ok c' →
    R (beginOffered view b.block c'.route m).1
  opened : ∀ e, i = .chain e →
    ∀ id tokenNetwork ourAddress partnerAddress revealTimeout settleTimeout block,
      P id (Channel.fresh id tokenNetwork ourAddress partnerAddress revealTimeout settleTimeout
        block)
  chain : ∀ e id c, i = .chain e → P id c → P id (c.applyEvent e)

section After

variable {P : ChannelId → Channel → Prop} {R : Transfer → Prop}

theorem Holds.receiveTransfer (hc : Closed P R) {b : Broker} (h : Holds P R b) {sender : Address}
    {m : LockedTransfer} (ha : Admits P R b (.message sender (.lockedTransfer m))) :
    Holds P R (b.receiveTransfer sender m).1 := by
  rcases receiveTransfer_cases b sender m with
    heq | ⟨tokenNetwork, c, c', hsender, hrecipient, hfind, hpartner, hop⟩
  · rwa [heq]
  · have hchannel := NetworkView.channel?_of_find? hfind
    have hp' := ha.accept sender _ (.transfer m) c c' rfl ⟨hsender, hrecipient⟩ rfl hchannel
      hpartner hop
    have hview : Holds P R
        { b with view := b.view.putChannel tokenNetwork m.balanceProof.channelId c' } :=
      h.withView (h.channels.putChannel hfind hp')
    cases hstart : beginOffered (b.view.putChannel tokenNetwork m.balanceProof.channelId c')
      b.block c'.route m with
    | mk t effects =>
        have hr := ha.begin sender m
          (b.view.putChannel tokenNetwork m.balanceProof.channelId c') c c' rfl
          ⟨hsender, hrecipient⟩ hchannel hpartner hop
        rw [hstart] at hr
        rw [receiveTransfer_of_ok hsender hrecipient hfind hpartner hop hstart]
        split
        · exact hview
        · exact hview.settle hc hr effects

theorem Holds.receiveProof (hc : Closed P R) {b : Broker} (h : Holds P R b) {sender : Address}
    {m : Message} {cm : ChannelMessage} (ha : Admits P R b (.message sender m))
    (hm : m.channelMessage? = some cm) (hto : b.isAddressed sender m) (what : String)
    (secretHash : SecretHash)
    (message : ProofMessage) {operation : Channel → Except ChannelError Channel}
    (hop : ∀ c, operation c = c.accept cm b.block) :
    Holds P R (b.receiveProof sender what cm.balanceProof.channelId secretHash message
      operation).1 := by
  rcases receiveProof_cases b sender what cm.balanceProof.channelId secretHash message
    operation with ⟨heq, -⟩ | ⟨tokenNetwork, c, c', hfind, hpartner, haccept, heq⟩
  · rwa [heq]
  · rw [hop] at haccept
    have hp' := ha.accept sender m cm c c' rfl hto hm (NetworkView.channel?_of_find? hfind)
      hpartner haccept
    rw [heq]
    have hview : Holds P R
        { b with view := b.view.putChannel tokenNetwork cm.balanceProof.channelId c' } :=
      h.withView (h.channels.putChannel hfind hp')
    exact hview.feedAll hc _ _

/-- An input keeps what is closed, if it brings nothing that is not admitted. -/
theorem Holds.after (hc : Closed P R) {b : Broker} (h : Holds P R b) {i : BrokerInput}
    (ha : Admits P R b i) : Holds P R (b.after i) := by
  cases i with
  | pay terms =>
      rw [Broker.after, react, Broker.pay]
      split
      · rename_i r hpay
        exact h.begin? hc (ha.pay terms rfl) hpay
      · exact h
  | message sender m =>
      cases m with
      -- Three messages are for channels, and the others only for transfers.
      | lockedTransfer m => exact h.receiveTransfer hc ha
      | secretRequest m => exact h.feedAll hc _ _
      | secretReveal m => exact h.feedAll hc _ _
      | unlock m =>
          have hm : (Message.unlock m).channelMessage? = some (.unlock m) := rfl
          exact h.receiveProof hc ha hm trivial _ _ _ (fun _ => rfl)
      | lockRemoval m =>
          have hm : (Message.lockRemoval m).channelMessage? = some (.removal m) := rfl
          exact h.receiveProof hc ha hm trivial _ _ _ (fun _ => rfl)
      | disposal m => exact h.feedAll hc _ _
  | block number order => exact h.advanceInOrder hc number order
  | chain e =>
      have hview : Holds P R { b with view := b.view.apply e } :=
        h.withView (h.channels.apply (ha.opened e rfl) (fun id c => ha.chain e id c rfl))
      exact hview.observe hc e

end After

end Broker

end PaymentNetwork

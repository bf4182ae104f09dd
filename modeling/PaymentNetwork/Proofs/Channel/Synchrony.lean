import PaymentNetwork.Proofs.Channel.History
import Mathlib.Logic.Function.Basic

/-!
# Both Ends of a Link

Two nodes that see the same channel, and the messages between them.

Either node has its own view, in which its own end is `ours`. It creates messages
whenever it likes, and they reach the other node one by one in the order in which
they were created. Meanwhile the other node does the same, so messages of both
directions are on their way at once, and neither view is ever the whole truth.

The invariant is about one direction at a time. `Relay` says that the messages on
their way lead, change by change, from what the receiver knows of the sender's end
to what that end is. A message is allowed when it is created, by what its sender
knows of the receiver, and has to be allowed when it arrives, by what the receiver
is by then. The two differ, but only in the amount that the receiver transferred,
and more of that never takes room away from the sender. That is why one direction
does not disturb the other.

## Main definitions

* `Parcel`: A message on its way, with the end that its sender had when it was
  created.
* `Station`, `Link`: One node with its parcels, and both nodes.
* `Link.step`, `Link.run`: A node creates a message, or its oldest one arrives.
* `Link.Timely`, `Link.TimelyRun`: Messages arrive at suitable blocks.
* `Relay`: The parcels of one direction, as a chain of changes.
* `Station.Leads`: The invariant of one direction.
* `Link.InSync`: The invariant of a link.
* `Link.opened`: Both views of a new channel, with the deposits made.
* `Link.Synchronous`: What the invariant says of the next message and of the two
  views.

## Theorems

* `Relay.append`, `Relay.mono`: A new parcel, and a receiver that transferred more.
* `Station.Leads.accepted`: The oldest parcel is accepted.
* `Station.Leads.create`, `Station.Leads.deliver`: What a move does to the direction
  it belongs to, and to the one back.
* `Link.step_inSync`, `Link.run_inSync`: A move keeps a link in sync, and so does
  a run.
* `Link.run_synchronous`: After every timely run the next message is accepted, and
  the two views agree when nothing is on its way.
-/

namespace PaymentNetwork

/-- A message on its way. `issuer` is the end of its sender right after the message
    was created. -/
structure Parcel where
  message : ChannelMessage
  issuer : ChannelEnd
deriving DecidableEq

/-- A node with its view of the channel, the parcels of its own that have not
    arrived, oldest first, and the number of all messages that it created. -/
structure Station where
  channel : Channel
  parcels : List Parcel
  created : Nat
deriving DecidableEq

/-- Both nodes of a channel. What one side calls `ours`, the other calls
    `partner`. -/
abbrev Link := Side → Station

/-- Something that happens on a link. -/
inductive LinkMove where
  /-- A node is asked for a message. -/
  | create (s : Side) (r : ChannelRequest)
  /-- The oldest parcel of a node arrives. -/
  | deliver (s : Side) (now : Height)
deriving DecidableEq

namespace Link

/-- The link after a move. A message that is refused is lost. -/
def step (l : Link) : LinkMove → Link
  | .create s r =>
    match (l s).channel.create r with
    | .ok (m, c) => Function.update l s ⟨c, (l s).parcels ++ [⟨m, c.ours⟩], (l s).created + 1⟩
    | .error _ => l
  | .deliver s now =>
    match (l s).parcels with
    | [] => l
    | parcel :: rest =>
      let sent := Function.update l s { l s with parcels := rest }
      match (l s.other).channel.accept parcel.message now with
      | .ok c => Function.update sent s.other { l s.other with channel := c }
      | .error _ => sent

section Step

variable {l : Link} {s : Side} {now : Height} {parcel : Parcel} {rest : List Parcel}

theorem step_create_of_ok {r : ChannelRequest} {m : ChannelMessage} {c : Channel}
    (h : (l s).channel.create r = .ok (m, c)) :
    l.step (.create s r)
      = Function.update l s ⟨c, (l s).parcels ++ [⟨m, c.ours⟩], (l s).created + 1⟩ := by
  rw [step, h]

theorem step_create_of_error {r : ChannelRequest} {err : ChannelError}
    (h : (l s).channel.create r = .error err) : l.step (.create s r) = l := by
  rw [step, h]

theorem step_deliver_of_nil (h : (l s).parcels = []) : l.step (.deliver s now) = l := by
  rw [step, h]

theorem step_deliver_of_ok {c : Channel} (h : (l s).parcels = parcel :: rest)
    (ha : (l s.other).channel.accept parcel.message now = .ok c) :
    l.step (.deliver s now) = Function.update (Function.update l s { l s with parcels := rest })
      s.other { l s.other with channel := c } := by
  rw [step, h]
  simp only [ha]

theorem step_deliver_of_error {err : ChannelError} (h : (l s).parcels = parcel :: rest)
    (ha : (l s.other).channel.accept parcel.message now = .error err) :
    l.step (.deliver s now) = Function.update l s { l s with parcels := rest } := by
  rw [step, h]
  simp only [ha]

end Step

/-- The link after some moves. -/
def run (l : Link) (moves : List LinkMove) : Link := moves.foldl step l

/-- Does the oldest parcel of `s` arrive at a suitable block? -/
def Timely (l : Link) (s : Side) (now : Height) : Prop :=
  ∀ parcel ∈ (l s).parcels.head?, parcel.message.Timely (l s.other).channel.partner now

/-- Does every parcel of a run arrive at a suitable block? -/
def TimelyRun : Link → List LinkMove → Prop
  | _, [] => True
  | l, .create s r :: rest => TimelyRun (l.step (.create s r)) rest
  | l, .deliver s now :: rest => l.Timely s now ∧ TimelyRun (l.step (.deliver s now)) rest

instance (l : Link) (s : Side) (now : Height) : Decidable (l.Timely s now) :=
  inferInstanceAs (Decidable (∀ parcel ∈ (l s).parcels.head?, _))

instance decidableTimelyRun : ∀ (moves : List LinkMove) (l : Link), Decidable (l.TimelyRun moves)
  | [], _ => isTrue trivial
  | .create s r :: rest, l => decidableTimelyRun rest (l.step (.create s r))
  | .deliver s now :: rest, l =>
    have := decidableTimelyRun rest (l.step (.deliver s now))
    inferInstanceAs (Decidable (_ ∧ _))

end Link

/-- The parcels of one direction lead from `base`, what the receiver knows of the
    sender, to `final`, what the sender is. The receiver's own end is `other`. -/
inductive Relay (channelId : ChannelId) (tokenNetwork : Address) (other : ChannelEnd) :
    ChannelEnd → List Parcel → ChannelEnd → Prop where
  | nil (e : ChannelEnd) : Relay channelId tokenNetwork other e [] e
  | cons {base final : ChannelEnd} {parcel : Parcel} {rest : List Parcel} {change : LockChange}
      (shows : parcel.message.Shows change)
      (recommits : base.Recommits channelId tokenNetwork other change parcel.message.balanceProof)
      (nonce : base.nonce < parcel.message.balanceProof.nonce)
      (issuer : parcel.issuer = base.recommit change parcel.message.balanceProof)
      (relay : Relay channelId tokenNetwork other parcel.issuer rest final) :
      Relay channelId tokenNetwork other base (parcel :: rest) final

namespace Relay

variable {channelId : ChannelId} {tokenNetwork : Address} {other base final : ChannelEnd}
  {parcels : List Parcel}

/-- A message that was just created goes to the end of the queue. -/
theorem append (h : Relay channelId tokenNetwork other base parcels final) {parcel : Parcel}
    {change : LockChange} (hshows : parcel.message.Shows change)
    (hrecommits : final.Recommits channelId tokenNetwork other change
      parcel.message.balanceProof)
    (hnonce : final.nonce < parcel.message.balanceProof.nonce)
    (hissuer : parcel.issuer = final.recommit change parcel.message.balanceProof) :
    Relay channelId tokenNetwork other base (parcels ++ [parcel]) parcel.issuer := by
  induction h with
  | nil e => exact cons hshows hrecommits hnonce hissuer (nil _)
  | cons shows recommits nonce issuer _ ih =>
      exact cons shows recommits nonce issuer (ih hrecommits hnonce hissuer)

/-- What is on its way is still allowed when the receiver transferred more. -/
theorem mono (h : Relay channelId tokenNetwork other base parcels final) {other' : ChannelEnd}
    (hle : other.transferredAmount ≤ other'.transferredAmount) :
    Relay channelId tokenNetwork other' base parcels final := by
  induction h with
  | nil e => exact nil e
  | cons shows recommits nonce issuer _ ih =>
      exact cons shows (recommits.mono hle) nonce issuer ih

/-- The receiver never knows of more than the sender transferred. -/
theorem transferredAmount_le (h : Relay channelId tokenNetwork other base parcels final) :
    base.transferredAmount ≤ final.transferredAmount := by
  induction h with
  | nil e => exact Nat.le_refl _
  | cons _ recommits _ issuer _ ih =>
      rw [issuer] at ih
      exact Nat.le_trans recommits.transferredAmount_le ih

theorem eq_of_nil (h : Relay channelId tokenNetwork other base [] final) : base = final := by
  cases h
  rfl

end Relay

namespace Station

/-- The direction from `a` to `b` is a chain of changes, in two views of one open
    channel. The nonce of `a` counts its messages. -/
structure Leads (a b : Station) : Prop where
  isOpen : a.channel.isOpen = true
  sound : a.channel.Sound
  id_eq : b.channel.id = a.channel.id
  tokenNetwork_eq : b.channel.tokenNetwork = a.channel.tokenNetwork
  counted : a.channel.ours.nonce.val = a.created
  relay : Relay a.channel.id a.channel.tokenNetwork b.channel.ours b.channel.partner a.parcels
    a.channel.ours

/-- The oldest parcel of `a` is accepted by `b`, and tells it what `a` was when the
    message was created. -/
theorem Leads.accepted {a b : Station} (h : a.Leads b) (hback : b.Leads a) {parcel : Parcel}
    {rest : List Parcel} {now : Height} (hparcels : a.parcels = parcel :: rest)
    (htimely : parcel.message.Timely b.channel.partner now) :
    b.channel.accept parcel.message now
      = .ok { b.channel with partner := parcel.issuer } ∧
    Relay a.channel.id a.channel.tokenNetwork b.channel.ours parcel.issuer rest
      a.channel.ours := by
  have hrelay := h.relay
  rw [hparcels] at hrelay
  cases hrelay with
  | cons shows recommits nonce issuer relay =>
      refine ⟨?_, relay⟩
      rw [Channel.accept_eq_ok_iff (hback.sound .partner)]
      -- Sender and receiver call the channel the same.
      rw [← h.id_eq, ← h.tokenNetwork_eq] at recommits
      exact ⟨hback.isOpen, htimely, nonce, _, shows, recommits, by rw [issuer]⟩

/-- Both directions after `a` created a message. It made sure of the message by what
    it knows of `b`, which transferred at least that. -/
theorem Leads.create {a b : Station} (h : a.Leads b) (hback : b.Leads a) {r : ChannelRequest}
    {m : ChannelMessage} {c : Channel} (hc : a.channel.create r = .ok (m, c))
    (hcount : a.created + 1 < 2 ^ 64) :
    Leads ⟨c, a.parcels ++ [⟨m, c.ours⟩], a.created + 1⟩ b ∧
    Leads b ⟨c, a.parcels ++ [⟨m, c.ours⟩], a.created + 1⟩ := by
  have hsound : c.Sound := h.sound.create hc
  rcases Channel.create_spec (h.sound .ours) hc with
    ⟨-, hnonce, change, -, hshows, hrecommits, rfl⟩
  -- The nonce counts messages, so it only goes up as long as it does not wrap.
  have hnext : m.balanceProof.nonce.val = a.created + 1 := by
    rw [hnonce, Word.val_succWrap, h.counted, Nat.mod_eq_of_lt hcount]
  have hlarger : a.channel.ours.nonce < m.balanceProof.nonce := by
    rw [Word.lt_iff, hnext, h.counted]
    exact Nat.lt_succ_self _
  -- By now the receiver may have transferred more than the sender knows.
  have hallowed := hrecommits.mono hback.relay.transferredAmount_le
  exact ⟨⟨h.isOpen, hsound, h.id_eq, h.tokenNetwork_eq, hnext,
      h.relay.append hshows hallowed hlarger rfl⟩,
    ⟨hback.isOpen, hback.sound, hback.id_eq, hback.tokenNetwork_eq, hback.counted,
      hback.relay.mono hrecommits.transferredAmount_le⟩⟩

/-- Both directions after the oldest parcel of `a` arrived. The direction back only
    knows the end of `b` that sends, and that end did not change. -/
theorem Leads.deliver {a b : Station} (h : a.Leads b) (hback : b.Leads a) {parcel : Parcel}
    {rest : List Parcel} {now : Height} (hparcels : a.parcels = parcel :: rest)
    (htimely : parcel.message.Timely b.channel.partner now) :
    Leads { a with parcels := rest }
      { b with channel := { b.channel with partner := parcel.issuer } } ∧
    Leads { b with channel := { b.channel with partner := parcel.issuer } }
      { a with parcels := rest } := by
  rcases h.accepted hback hparcels htimely with ⟨haccept, hrelay⟩
  have hsound : Channel.Sound { b.channel with partner := parcel.issuer } :=
    hback.sound.accept haccept
  exact ⟨⟨h.isOpen, h.sound, h.id_eq, h.tokenNetwork_eq, h.counted, hrelay⟩,
    ⟨hback.isOpen, hsound, hback.id_eq, hback.tokenNetwork_eq, hback.counted, hback.relay⟩⟩

end Station

namespace Link

/-- Both directions lead to what their senders are. -/
def InSync (l : Link) : Prop := ∀ s, (l s).Leads (l s.other)

/-- Two directions that belong to a node and to its partner are all there are. -/
theorem inSync_of_leads {l : Link} (s : Side) (h : (l s).Leads (l s.other))
    (hback : (l s.other).Leads (l s)) : l.InSync := by
  intro t
  rcases Side.eq_or_eq_other s t with rfl | rfl
  · exact h
  · rwa [Side.other_other]

theorem InSync.back {l : Link} (h : l.InSync) (s : Side) : (l s.other).Leads (l s) := by
  have hback := h s.other
  rwa [Side.other_other] at hback

/-- A move keeps a link in sync, if parcels arrive in time and nonces do not run
    out. -/
theorem step_inSync {l : Link} (h : l.InSync) {move : LinkMove}
    (htimely : ∀ s now, move = .deliver s now → l.Timely s now)
    (hcount : ∀ s, ((l.step move) s).created < 2 ^ 64) : (l.step move).InSync := by
  cases move with
  | create s r =>
      cases hc : (l s).channel.create r with
      | error err =>
          rw [step_create_of_error hc]
          exact h
      | ok x =>
          rcases x with ⟨m, c⟩
          -- The count after the move is what keeps the next nonce from wrapping.
          have hcount' := hcount s
          rw [step_create_of_ok hc, Function.update_self] at hcount'
          rw [step_create_of_ok hc]
          rcases (h s).create (h.back s) hc hcount' with ⟨hself, hback⟩
          refine inSync_of_leads s ?_ ?_
          · rwa [Function.update_self, Function.update_of_ne s.other_ne]
          · rwa [Function.update_self, Function.update_of_ne s.other_ne]
  | deliver s now =>
      cases hparcels : (l s).parcels with
      | nil =>
          rw [step_deliver_of_nil hparcels]
          exact h
      | cons parcel rest =>
          have hin : parcel.message.Timely (l s.other).channel.partner now := by
            refine htimely s now rfl parcel ?_
            rw [hparcels]
            rfl
          rw [step_deliver_of_ok hparcels ((h s).accepted (h.back s) hparcels hin).1]
          rcases (h s).deliver (h.back s) hparcels hin with ⟨hself, hback⟩
          refine inSync_of_leads s ?_ ?_
          · rwa [Function.update_self, Function.update_of_ne s.other_ne.symm,
              Function.update_self]
          · rwa [Function.update_self, Function.update_of_ne s.other_ne.symm,
              Function.update_self]

theorem created_update {l : Link} {s : Side} {a : Station} (h : a.created = (l s).created)
    (t : Side) : (Function.update l s a t).created = (l t).created := by
  by_cases hst : t = s
  · rw [hst, Function.update_self, h]
  · rw [Function.update_of_ne hst]

/-- A move counts at most one message, and no message is uncounted. -/
theorem created_step (l : Link) (move : LinkMove) (s : Side) :
    ((l.step move) s).created = (l s).created ∨
    ((l.step move) s).created = (l s).created + 1 := by
  cases move with
  | create t r =>
      cases hc : (l t).channel.create r with
      | error err => exact Or.inl (by rw [step_create_of_error hc])
      | ok x =>
          rw [step_create_of_ok hc]
          by_cases hst : s = t
          · rw [hst, Function.update_self]
            exact Or.inr rfl
          · rw [Function.update_of_ne hst]
            exact Or.inl rfl
  | deliver t now =>
      refine Or.inl ?_
      cases hparcels : (l t).parcels with
      | nil => rw [step_deliver_of_nil hparcels]
      | cons parcel rest =>
          have hsent : ∀ s, (Function.update l t { l t with parcels := rest } s).created
              = (l s).created := created_update rfl
          cases ha : (l t.other).channel.accept parcel.message now with
          | error err => rw [step_deliver_of_error hparcels ha, hsent]
          | ok c =>
              rw [step_deliver_of_ok hparcels ha, created_update, hsent]
              exact (hsent t.other).symm

theorem created_run_le (l : Link) (moves : List LinkMove) (s : Side) :
    (l s).created ≤ ((l.run moves) s).created := by
  induction moves generalizing l with
  | nil => exact Nat.le_refl _
  | cons move rest ih =>
      have hrest : ((l.step move) s).created ≤ ((l.run (move :: rest)) s).created :=
        ih (l.step move)
      rcases created_step l move s with h | h
      · omega
      · omega

/-- A run has to be very long for the nonces to run out. -/
theorem created_run_le_length (l : Link) (moves : List LinkMove) (s : Side) :
    ((l.run moves) s).created ≤ (l s).created + moves.length := by
  induction moves generalizing l with
  | nil => exact Nat.le_refl _
  | cons move rest ih =>
      have hrest : ((l.run (move :: rest)) s).created
          ≤ ((l.step move) s).created + rest.length := ih (l.step move)
      rw [List.length_cons]
      rcases created_step l move s with h | h
      · omega
      · omega

/-- A timely run keeps a link in sync. -/
theorem run_inSync {l : Link} (h : l.InSync) {moves : List LinkMove}
    (htimely : l.TimelyRun moves) (hcount : ∀ s, ((l.run moves) s).created < 2 ^ 64) :
    (l.run moves).InSync := by
  induction moves generalizing l with
  | nil => exact h
  | cons move rest ih =>
      have hnow : ∀ s now, move = .deliver s now → l.Timely s now := by
        rintro s now rfl
        exact htimely.1
      have hrest : (l.step move).TimelyRun rest := by
        cases move with
        | create s r => exact htimely
        | deliver s now => exact htimely.2
      exact ih (step_inSync h hnow (fun s =>
        Nat.lt_of_le_of_lt (created_run_le (l.step move) rest s) (hcount s))) hrest hcount

/-- Both views of a new channel, each after the deposits that it was told of. -/
def opened (id : ChannelId) (tokenNetwork : Address) (address : Side → Address)
    (revealTimeout settleTimeout openedBlock : Side → Height)
    (deposits : Side → List ChainEvent) : Link := fun s =>
  ⟨(deposits s).foldl Channel.applyEvent (Channel.fresh id tokenNetwork (address s)
    (address s.other) (revealTimeout s) (settleTimeout s) (openedBlock s)), [], 0⟩

/-- The next parcel of either node is accepted when it arrives in time, and tells
    the receiver what the sender was when it was created. With nothing on its way
    the two views agree on both ends, and so on what the ends own and can lock. -/
structure Synchronous (l : Link) : Prop where
  accepted : ∀ s parcel rest now, (l s).parcels = parcel :: rest →
    parcel.message.Timely (l s.other).channel.partner now →
    ∃ c, (l s.other).channel.accept parcel.message now = .ok c ∧ c.partner = parcel.issuer
  ends : (∀ s, (l s).parcels = []) → ∀ s, (l s.other).channel.partner = (l s).channel.ours
  balances : (∀ s, (l s).parcels = []) → ∀ s,
    ChannelEnd.balance (l s.other).channel.partner (l s.other).channel.ours
      = ChannelEnd.balance (l s).channel.ours (l s).channel.partner
  distributables : (∀ s, (l s).parcels = []) → ∀ s,
    (l s.other).channel.partnerDistributable = (l s).channel.ourDistributable

theorem InSync.synchronous {l : Link} (h : l.InSync) : l.Synchronous := by
  have hends : (∀ s, (l s).parcels = []) → ∀ s,
      (l s.other).channel.partner = (l s).channel.ours := by
    intro hnil s
    have hrelay := (h s).relay
    rw [hnil s] at hrelay
    exact hrelay.eq_of_nil
  -- The same for the other direction, read from this side.
  have hback : (∀ s, (l s).parcels = []) → ∀ s,
      (l s.other).channel.ours = (l s).channel.partner := by
    intro hnil s
    have hend := hends hnil s.other
    rw [Side.other_other] at hend
    exact hend.symm
  refine ⟨?_, hends, ?_, ?_⟩
  · intro s parcel rest now hparcels htimely
    exact ⟨_, ((h s).accepted (h.back s) hparcels htimely).1, rfl⟩
  · intro hnil s
    rw [hends hnil s, hback hnil s]
  · intro hnil s
    rw [Channel.partnerDistributable, Channel.ourDistributable, hends hnil s, hback hnil s]

end Link

namespace ChainEvent

/-- Does the event tell of a deposit? -/
def isDeposit : ChainEvent → Bool
  | channelNewDeposit .. => true
  | _ => false

end ChainEvent

namespace Channel

/-- A deposit changes nothing but what the two ends have on the ledger. -/
theorem applyEvent_of_isDeposit (c : Channel) {e : ChainEvent} (h : e.isDeposit = true) :
    ∃ a b, c.applyEvent e =
      { c with
        ours := { c.ours with contractBalance := a }
        partner := { c.partner with contractBalance := b } } := by
  cases e with
  | channelNewDeposit tokenNetwork id participant total block =>
      rw [applyEvent]
      split
      · rcases applyFor_cases c participant (.contractBalance total) with h | ⟨s, -, h⟩
        · exact ⟨_, _, h⟩
        · cases s with
          | ours => exact ⟨total, _, h⟩
          | partner => exact ⟨_, total, h⟩
      · exact ⟨_, _, rfl⟩
  | _ => cases h

theorem foldl_applyEvent_of_isDeposit (c : Channel) {deposits : List ChainEvent}
    (h : ∀ e ∈ deposits, e.isDeposit = true) :
    ∃ a b, deposits.foldl applyEvent c =
      { c with
        ours := { c.ours with contractBalance := a }
        partner := { c.partner with contractBalance := b } } := by
  induction deposits generalizing c with
  | nil => exact ⟨_, _, rfl⟩
  | cons e rest ih =>
      rcases applyEvent_of_isDeposit c (h e List.mem_cons_self) with ⟨a, b, hevent⟩
      rcases ih (c.applyEvent e) (fun e' he' => h e' (List.mem_cons_of_mem e he')) with
        ⟨a', b', hrest⟩
      rw [List.foldl_cons, hrest, hevent]
      exact ⟨a', b', rfl⟩

/-- Two views of one channel between different nodes, in which each end has the same
    deposit. -/
structure Mirrored (c d : Channel) : Prop where
  distinct : c.ours.address ≠ c.partner.address
  id_eq : d.id = c.id
  ours : d.partner.address = c.ours.address
  partner : d.ours.address = c.partner.address
  oursBalance : d.partner.contractBalance = c.ours.contractBalance
  partnerBalance : d.ours.contractBalance = c.partner.contractBalance

/-- The end that belongs to an address is ours in one view exactly if it is the
    partner's in the other. -/
theorem Mirrored.applyFor {c d : Channel} (h : Mirrored c d) (participant : Address)
    (total : Amount) : Mirrored (c.applyFor participant (.contractBalance total))
      (d.applyFor participant (.contractBalance total)) := by
  unfold Channel.applyFor sideOf?
  rw [h.ours, h.partner]
  by_cases hours : participant = c.ours.address
  -- Both views ask about their own end first, so the two addresses must differ.
  · have hne : participant ≠ c.partner.address := by
      rw [hours]
      exact h.distinct
    rw [if_pos hours, if_neg hne, if_pos hours]
    exact ⟨h.distinct, h.id_eq, h.ours, h.partner, rfl, h.partnerBalance⟩
  · rw [if_neg hours, if_neg hours]
    by_cases hpartner : participant = c.partner.address
    · rw [if_pos hpartner, if_pos hpartner]
      exact ⟨h.distinct, h.id_eq, h.ours, h.partner, h.oursBalance, rfl⟩
    · rw [if_neg hpartner, if_neg hpartner]
      exact h

theorem Mirrored.applyEvent {c d : Channel} (h : Mirrored c d) {e : ChainEvent}
    (he : e.isDeposit = true) : Mirrored (c.applyEvent e) (d.applyEvent e) := by
  cases e with
  | channelNewDeposit tokenNetwork id participant total block =>
      rw [Channel.applyEvent, Channel.applyEvent, h.id_eq]
      by_cases hid : (ChainEvent.channelNewDeposit tokenNetwork id participant total
          block).channelId? = some c.id
      · rw [if_pos hid, if_pos hid]
        exact h.applyFor participant total
      · rw [if_neg hid, if_neg hid]
        exact h
  | _ => cases he

theorem Mirrored.foldl_applyEvent {c d : Channel} (h : Mirrored c d) {deposits : List ChainEvent}
    (hdeposits : ∀ e ∈ deposits, e.isDeposit = true) :
    Mirrored (deposits.foldl Channel.applyEvent c) (deposits.foldl Channel.applyEvent d) := by
  induction deposits generalizing c d with
  | nil => exact h
  | cons e rest ih =>
      exact ih (h.applyEvent (hdeposits e List.mem_cons_self))
        (fun e' he' => hdeposits e' (List.mem_cons_of_mem e he'))

end Channel

namespace Link

section Opened

variable {id : ChannelId} {tokenNetwork : Address} {address : Side → Address}
  {revealTimeout settleTimeout openedBlock : Side → Height} {deposits : Side → List ChainEvent}

/-- A new link is in sync if both views were told the same deposits of each end. -/
theorem opened_inSync (hdeposits : ∀ s, ∀ e ∈ deposits s, e.isDeposit = true)
    (hsame : ∀ s,
      (opened id tokenNetwork address revealTimeout settleTimeout openedBlock deposits
        s.other).channel.partner.contractBalance
      = (opened id tokenNetwork address revealTimeout settleTimeout openedBlock deposits
        s).channel.ours.contractBalance) :
    InSync (opened id tokenNetwork address revealTimeout settleTimeout openedBlock deposits) := by
  intro s
  have hbalance := hsame s
  rcases Channel.foldl_applyEvent_of_isDeposit (Channel.fresh id tokenNetwork (address s)
    (address s.other) (revealTimeout s) (settleTimeout s) (openedBlock s)) (hdeposits s) with
    ⟨a, b, hs⟩
  rcases Channel.foldl_applyEvent_of_isDeposit (Channel.fresh id tokenNetwork (address s.other)
    (address s.other.other) (revealTimeout s.other) (settleTimeout s.other)
    (openedBlock s.other)) (hdeposits s.other) with ⟨a', b', ho⟩
  -- Deposits touch nothing else, so all but the balances is as in a fresh channel.
  rw [opened, opened, hs, ho] at hbalance
  rw [opened, opened, hs, ho, Side.other_other]
  have hb : b' = a := hbalance
  subst hb
  refine ⟨rfl, ?_, rfl, rfl, rfl, Relay.nil _⟩
  intro t
  cases t with
  | ours => exact (ChannelEnd.sound_fresh (address s)).congr rfl
  | partner => exact (ChannelEnd.sound_fresh (address s.other)).congr rfl

/-- Two different nodes that are told of the same deposits agree on them. -/
theorem opened_contractBalance {events : List ChainEvent}
    (hdistinct : address .ours ≠ address .partner) (hevents : ∀ e ∈ events, e.isDeposit = true)
    (s : Side) :
    (opened id tokenNetwork address revealTimeout settleTimeout openedBlock (fun _ => events)
      s.other).channel.partner.contractBalance
    = (opened id tokenNetwork address revealTimeout settleTimeout openedBlock (fun _ => events)
      s).channel.ours.contractBalance := by
  have hne : address s ≠ address s.other := by
    cases s with
    | ours => exact hdistinct
    | partner => exact hdistinct.symm
  have hmirrored : Channel.Mirrored
      (Channel.fresh id tokenNetwork (address s) (address s.other) (revealTimeout s)
        (settleTimeout s) (openedBlock s))
      (Channel.fresh id tokenNetwork (address s.other) (address s.other.other)
        (revealTimeout s.other) (settleTimeout s.other) (openedBlock s.other)) := by
    rw [Side.other_other]
    exact ⟨hne, rfl, rfl, rfl, rfl, rfl⟩
  exact (hmirrored.foldl_applyEvent hevents).oursBalance

/-- Two nodes that agree on what was deposited for a new channel stay synchronous,
    however their messages interleave. -/
theorem run_synchronous {moves : List LinkMove}
    (hdeposits : ∀ s, ∀ e ∈ deposits s, e.isDeposit = true)
    (hsame : ∀ s,
      (opened id tokenNetwork address revealTimeout settleTimeout openedBlock deposits
        s.other).channel.partner.contractBalance
      = (opened id tokenNetwork address revealTimeout settleTimeout openedBlock deposits
        s).channel.ours.contractBalance)
    (htimely : (opened id tokenNetwork address revealTimeout settleTimeout openedBlock
      deposits).TimelyRun moves)
    (hcount : ∀ s, ((opened id tokenNetwork address revealTimeout settleTimeout openedBlock
      deposits).run moves s).created < 2 ^ 64) :
    ((opened id tokenNetwork address revealTimeout settleTimeout openedBlock
      deposits).run moves).Synchronous :=
  (run_inSync (opened_inSync hdeposits hsame) htimely hcount).synchronous

end Opened

/-- A run in which messages cross: each node offers the other a lock, we unlock ours,
    and the partner takes its own back. -/
def crossingMoves : List LinkMove :=
  [.create .ours (.transfer ⟨1, FixedBytes.replicate 20 8, 4, FixedBytes.replicate 20 1,
      FixedBytes.replicate 20 2, 50, hashSecret (FixedBytes.replicate 32 7), none⟩ 3),
    .create .partner (.transfer ⟨2, FixedBytes.replicate 20 8, 3, FixedBytes.replicate 20 2,
      FixedBytes.replicate 20 1, 40, hashSecret (FixedBytes.replicate 32 6), none⟩ 3),
    .deliver .ours 5,
    .create .ours (.unlock 1 (FixedBytes.replicate 32 7)),
    .deliver .partner 6,
    .create .partner (.removal (hashSecret (FixedBytes.replicate 32 6)) 40),
    .deliver .ours 7,
    .deliver .partner 45]

/-- The link on which messages cross, with ten deposited by us and six by the
    partner. -/
def crossingLink : Link :=
  opened (FixedBytes.replicate 32 9) (FixedBytes.replicate 20 8)
    (fun s => if s = .ours then FixedBytes.replicate 20 1 else FixedBytes.replicate 20 2)
    (fun _ => 5) (fun _ => 20) (fun _ => 0)
    (fun _ => [.channelNewDeposit (FixedBytes.replicate 20 8) (FixedBytes.replicate 32 9)
        (FixedBytes.replicate 20 1) 10 1,
      .channelNewDeposit (FixedBytes.replicate 20 8) (FixedBytes.replicate 32 9)
        (FixedBytes.replicate 20 2) 6 2])

theorem run_synchronous_crossing :
    crossingLink.TimelyRun crossingMoves ∧ (crossingLink.run crossingMoves).Synchronous := by
  have htimely : crossingLink.TimelyRun crossingMoves := by decide +kernel
  have hcount : ∀ s, ((crossingLink.run crossingMoves) s).created < 2 ^ 64 := by
    intro s
    -- Counting the moves saves carrying them out.
    refine Nat.lt_of_le_of_lt (created_run_le_length crossingLink crossingMoves s) ?_
    change 0 + crossingMoves.length < 2 ^ 64
    decide
  exact ⟨htimely, run_synchronous (fun _ => by decide)
    (opened_contractBalance (by decide) (by decide)) htimely hcount⟩

end Link

end PaymentNetwork

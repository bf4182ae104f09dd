import PaymentNetwork.Channel.OnChain
import PaymentNetwork.Proofs.Channel.Recommitment

/-!
# Histories of a Channel

What a channel is after any sequence of requests, messages and ledger events.

A history is a list of inputs, carried out one after the other. An input may be
refused, and then the channel stays as it was. The arguments of an input are
arbitrary: messages may be forged, blocks may jump, and events may name other
channels.

Every later result is an induction over a history whose step is one of three
things, and `after_cases` names them: nothing happened, one end was recommitted,
or the ledger had its say. Most results are about one end at a time, and
`after_endOf` says the same of a single end.

## Main definitions

* `collect`: What is reported of every input of a run.
* `Channel.endOf`, `Channel.withEnd`: One end of a channel, and its replacement.
* `ChannelInput`: A request, a message or a ledger event.
* `Channel.respond`: What comes of an input.
* `Channel.after`, `Channel.run`: The channel after an input and after many.
* `Channel.Recommitted`: An input that recommitted one end.
* `ChainEvent.endChange?`: The change that an event asks for.

## Theorems

* `Channel.after_cases`, `Channel.after_endOf`: What one input does, to the channel
  and to one end.
* `Channel.applyEvent_cases`, `Channel.applyEvent_endOf`: What one event does.
* `Channel.after_transferredAmount_le`: Nothing makes a transferred amount smaller.
* `Channel.run_invariant`: What every input keeps, every history keeps.
* `Channel.run_sound`: Both ends stay sound.
-/

namespace PaymentNetwork

/-- What `f` reports of every input of a run, in order, where `after` is what an
    input makes of a state. -/
def collect {σ ι α : Type} (after : σ → ι → σ) (f : σ → ι → List α) : σ → List ι → List α
  | _, [] => []
  | s, i :: rest => f s i ++ collect after f (after s i) rest

namespace Side

/-- The other end. -/
def other : Side → Side
  | ours => partner
  | partner => ours

@[simp] theorem other_other (s : Side) : s.other.other = s := by
  cases s <;> rfl

theorem other_ne (s : Side) : s.other ≠ s := by
  cases s <;> decide

theorem eq_or_eq_other (s t : Side) : t = s ∨ t = s.other := by
  cases s <;> cases t <;> decide

end Side

/-- Something that reaches a channel. -/
inductive ChannelInput where
  | create (r : ChannelRequest)
  | accept (m : ChannelMessage) (now : Height)
  | event (e : ChainEvent)
deriving DecidableEq

namespace ChannelInput

/-- The end that the input would recommit. -/
def side? : ChannelInput → Option Side
  | create _ => some .ours
  | accept _ _ => some .partner
  | event _ => none

/-- Does the input tell of the change? -/
def Shows : ChannelInput → LockChange → Prop
  | create r, change => r.Shows change
  | accept m _, change => m.Shows change
  | event _, _ => False

end ChannelInput

namespace ChainEvent

/-- The change of an end that the event asks for, and whose end it is. -/
def endChange? : ChainEvent → Option (Address × EndChange)
  | channelNewDeposit _ _ participant total _ => some (participant, .contractBalance total)
  | channelWithdrawn _ _ participant total _ => some (participant, .withdrawn total)
  | channelUnlocked _ _ participant secretHash _ _ => some (participant, .removeLock secretHash)
  | _ => none

/-- No event files a lock or brings a balance proof. -/
theorem endChange?_cases {e : ChainEvent} {participant : Address} {change : EndChange}
    (h : e.endChange? = some (participant, change)) :
    (∃ total, change = .contractBalance total) ∨ (∃ total, change = .withdrawn total) ∨
    (∃ secretHash, change = .removeLock secretHash) := by
  cases e with
  | channelNewDeposit =>
      cases h
      exact Or.inl ⟨_, rfl⟩
  | channelWithdrawn =>
      cases h
      exact Or.inr (Or.inl ⟨_, rfl⟩)
  | channelUnlocked =>
      cases h
      exact Or.inr (Or.inr ⟨_, rfl⟩)
  | _ => cases h

end ChainEvent

namespace Channel

/-- One end of the channel. -/
def endOf (c : Channel) : Side → ChannelEnd
  | .ours => c.ours
  | .partner => c.partner

/-- The channel with one end replaced. -/
def withEnd (c : Channel) : Side → ChannelEnd → Channel
  | .ours, e => { c with ours := e }
  | .partner, e => { c with partner := e }

section Ends

variable (c : Channel) (s : Side) (e : ChannelEnd)

@[simp] theorem endOf_withEnd_self : (c.withEnd s e).endOf s = e := by
  cases s <;> rfl

@[simp] theorem endOf_withEnd_other : (c.withEnd s e).endOf s.other = c.endOf s.other := by
  cases s <;> rfl

@[simp] theorem withEnd_id : (c.withEnd s e).id = c.id := by
  cases s <;> rfl

@[simp] theorem withEnd_tokenNetwork : (c.withEnd s e).tokenNetwork = c.tokenNetwork := by
  cases s <;> rfl

theorem applyAt_eq_withEnd (change : EndChange) :
    c.applyAt s change = c.withEnd s ((c.endOf s).apply change) := by
  cases s <;> rfl

end Ends

/-- What comes of an input: the message that recommitted an end, if there is one,
    and the channel afterwards. -/
def respond (c : Channel) :
    ChannelInput → Except ChannelError (Option ChannelMessage × Channel)
  | .create r => (c.create r).map fun x => (some x.1, x.2)
  | .accept m now => (c.accept m now).map fun c' => (some m, c')
  | .event e => .ok (none, c.applyEvent e)

/-- The channel after an input. -/
def after (c : Channel) (i : ChannelInput) : Channel :=
  match c.respond i with
  | .ok (_, c') => c'
  | .error _ => c

/-- The channel after some inputs. -/
def run (c : Channel) (inputs : List ChannelInput) : Channel := inputs.foldl after c

@[simp] theorem run_cons (c : Channel) (i : ChannelInput) (inputs : List ChannelInput) :
    c.run (i :: inputs) = (c.after i).run inputs := rfl

theorem after_eq_of_ok {c c' : Channel} {i : ChannelInput} {m? : Option ChannelMessage}
    (h : c.respond i = .ok (m?, c')) : c.after i = c' := by
  rw [after, h]

theorem after_eq_of_error {c : Channel} {i : ChannelInput} {err : ChannelError}
    (h : c.respond i = .error err) : c.after i = c := by
  rw [after, h]

theorem after_event (c : Channel) (e : ChainEvent) : c.after (.event e) = c.applyEvent e := rfl

/-- Both ends are sound. -/
def Sound (c : Channel) : Prop := ∀ s, (c.endOf s).Sound

/-- An input recommitted one end, by the message `m`. Our own nonces go up by
    one, and those of the partner go up. -/
structure Recommitted (c : Channel) (i : ChannelInput) (s : Side) (m : ChannelMessage)
    (change : LockChange) : Prop where
  side : i.side? = some s
  input : i.Shows change
  message : m.Shows change
  recommits : (c.endOf s).Recommits c.id c.tokenNetwork (c.endOf s.other) change m.balanceProof
  ours : s = .ours → m.balanceProof.nonce = c.ours.nonce.succWrap
  partner : s = .partner → c.partner.nonce < m.balanceProof.nonce
  result : c.respond i = .ok (some m, c.withEnd s ((c.endOf s).recommit change m.balanceProof))

theorem Recommitted.after {c : Channel} {i : ChannelInput} {s : Side} {m : ChannelMessage}
    {change : LockChange} (h : c.Recommitted i s m change) :
    c.after i = c.withEnd s ((c.endOf s).recommit change m.balanceProof) :=
  after_eq_of_ok h.result

theorem Recommitted.endOf_after {c : Channel} {i : ChannelInput} {s : Side} {m : ChannelMessage}
    {change : LockChange} (h : c.Recommitted i s m change) :
    (c.after i).endOf s = (c.endOf s).recommit change m.balanceProof := by
  rw [h.after, endOf_withEnd_self]

/-- What one input does: nothing, a recommitment, or what the ledger says. -/
theorem after_cases {c : Channel} (hs : c.Sound) (i : ChannelInput) :
    (∃ err, c.respond i = .error err) ∨ (∃ s m change, c.Recommitted i s m change) ∨
    (∃ e, i = .event e) := by
  cases i with
  | create r =>
      cases hc : c.create r with
      | error err => exact Or.inl ⟨err, by rw [respond, hc]; rfl⟩
      | ok x =>
          rcases x with ⟨m, c'⟩
          -- A request is about our own end, and a message about the end of the partner.
          rcases create_spec (hs .ours) hc with
            ⟨-, hnonce, change, hr, hm, hrecommits, rfl⟩
          refine Or.inr (Or.inl ⟨.ours, m, change, rfl, hr, hm, hrecommits, fun _ => hnonce,
            nofun, ?_⟩)
          rw [respond, hc]
          rfl
  | accept m now =>
      cases hc : c.accept m now with
      | error err => exact Or.inl ⟨err, by rw [respond, hc]; rfl⟩
      | ok c' =>
          rcases (accept_eq_ok_iff (hs .partner)).mp hc with
            ⟨-, -, hnonce, change, hm, hrecommits, rfl⟩
          refine Or.inr (Or.inl ⟨.partner, m, change, rfl, hm, hm, hrecommits, nofun,
            fun _ => hnonce, ?_⟩)
          rw [respond, hc]
          rfl
  | event e => exact Or.inr (Or.inr ⟨e, rfl⟩)

/-- A change is made to the end of the participant, and to none for a stranger. -/
theorem applyFor_cases (c : Channel) (participant : Address) (change : EndChange) :
    c.applyFor participant change = c ∨
    (∃ s, participant = (c.endOf s).address ∧
      c.applyFor participant change = c.withEnd s ((c.endOf s).apply change)) := by
  unfold applyFor sideOf?
  by_cases hours : participant = c.ours.address
  · rw [if_pos hours]
    exact Or.inr ⟨.ours, hours, applyAt_eq_withEnd c .ours change⟩
  · rw [if_neg hours]
    by_cases hpartner : participant = c.partner.address
    · rw [if_pos hpartner]
      exact Or.inr ⟨.partner, hpartner, applyAt_eq_withEnd c .partner change⟩
    · rw [if_neg hpartner]
      exact Or.inl rfl

/-- What one event does: nothing, a change of the status, or the change that it
    asks for, of the end that belongs to the participant it names. -/
theorem applyEvent_cases (c : Channel) (e : ChainEvent) :
    c.applyEvent e = c ∨ (∃ status, c.applyEvent e = { c with status := status }) ∨
    (∃ s change, e.channelId? = some c.id ∧
      e.endChange? = some ((c.endOf s).address, change) ∧
      c.applyEvent e = c.withEnd s ((c.endOf s).apply change)) := by
  unfold applyEvent
  by_cases hid : e.channelId? = some c.id
  · rw [if_pos hid]
    -- Three events change the end of a participant, who may be a stranger.
    have hfor : ∀ participant change, e.endChange? = some (participant, change) →
        c.applyFor participant change = c ∨
        (∃ status, c.applyFor participant change = { c with status := status }) ∨
        (∃ s change', e.channelId? = some c.id ∧
          e.endChange? = some ((c.endOf s).address, change') ∧
          c.applyFor participant change = c.withEnd s ((c.endOf s).apply change')) := by
      intro participant change he
      rcases applyFor_cases c participant change with h | ⟨s, hs, h⟩
      · exact Or.inl h
      · exact Or.inr (Or.inr ⟨s, change, hid, hs ▸ he, h⟩)
    cases e with
    | channelNewDeposit => exact hfor _ _ rfl
    | channelWithdrawn => exact hfor _ _ rfl
    | channelUnlocked => exact hfor _ _ rfl
    | channelClosed =>
        by_cases hopen : c.isOpen = true
        · exact Or.inr (Or.inl ⟨_, if_pos hopen⟩)
        · exact Or.inl (if_neg hopen)
    | channelSettled => exact Or.inr (Or.inl ⟨_, rfl⟩)
    | channelCooperativeSettled => exact Or.inr (Or.inl ⟨_, rfl⟩)
    | tokenNetworkCreated => exact Or.inl rfl
    | channelOpened => exact Or.inl rfl
    | balanceProofUpdated => exact Or.inl rfl
    | secretRegistered => exact Or.inl rfl
  · rw [if_neg hid]
    exact Or.inl rfl

/-- What one event does to one end: nothing, or the change that it asks for. -/
theorem applyEvent_endOf (c : Channel) (e : ChainEvent) (s : Side) :
    (c.applyEvent e).endOf s = c.endOf s ∨
    (∃ change, e.channelId? = some c.id ∧ e.endChange? = some ((c.endOf s).address, change) ∧
      (c.applyEvent e).endOf s = (c.endOf s).apply change) := by
  rcases applyEvent_cases c e with h | ⟨status, h⟩ | ⟨t, change, hid, he, h⟩
  · rw [h]
    exact Or.inl rfl
  · rw [h]
    cases s with
    | ours => exact Or.inl rfl
    | partner => exact Or.inl rfl
  · rw [h]
    rcases Side.eq_or_eq_other t s with rfl | rfl
    · exact Or.inr ⟨change, hid, he, endOf_withEnd_self c _ _⟩
    · exact Or.inl (endOf_withEnd_other c t _)

/-- What one input does to one end: nothing, a recommitment, or what the ledger
    says. -/
theorem after_endOf {c : Channel} (hs : c.Sound) (i : ChannelInput) (s : Side) :
    (c.after i).endOf s = c.endOf s ∨ (∃ m change, c.Recommitted i s m change) ∨
    (∃ e change, i = .event e ∧ e.channelId? = some c.id ∧
      e.endChange? = some ((c.endOf s).address, change) ∧
      (c.after i).endOf s = (c.endOf s).apply change) := by
  rcases after_cases hs i with ⟨err, herr⟩ | ⟨t, m, change, h⟩ | ⟨e, rfl⟩
  · rw [after_eq_of_error herr]
    exact Or.inl rfl
  · rcases Side.eq_or_eq_other t s with rfl | rfl
    · exact Or.inr (Or.inl ⟨m, change, h⟩)
    · rw [h.after]
      exact Or.inl (endOf_withEnd_other c t _)
  · rcases applyEvent_endOf c e s with h | ⟨change, hid, he, h⟩
    · exact Or.inl h
    · exact Or.inr (Or.inr ⟨e, change, rfl, hid, he, h⟩)

/-! ### What every history keeps -/

theorem applyEvent_id (c : Channel) (e : ChainEvent) : (c.applyEvent e).id = c.id := by
  rcases applyEvent_cases c e with h | ⟨status, h⟩ | ⟨s, change, -, -, h⟩
  · rw [h]
  · rw [h]
  · rw [h, withEnd_id]

theorem applyEvent_tokenNetwork (c : Channel) (e : ChainEvent) :
    (c.applyEvent e).tokenNetwork = c.tokenNetwork := by
  rcases applyEvent_cases c e with h | ⟨status, h⟩ | ⟨s, change, -, -, h⟩
  · rw [h]
  · rw [h]
  · rw [h, withEnd_tokenNetwork]

theorem after_id {c : Channel} (hs : c.Sound) (i : ChannelInput) : (c.after i).id = c.id := by
  rcases after_cases hs i with ⟨err, h⟩ | ⟨s, m, change, h⟩ | ⟨e, rfl⟩
  · rw [after_eq_of_error h]
  · rw [h.after, withEnd_id]
  · rw [after_event, applyEvent_id]

theorem after_tokenNetwork {c : Channel} (hs : c.Sound) (i : ChannelInput) :
    (c.after i).tokenNetwork = c.tokenNetwork := by
  rcases after_cases hs i with ⟨err, h⟩ | ⟨s, m, change, h⟩ | ⟨e, rfl⟩
  · rw [after_eq_of_error h]
  · rw [h.after, withEnd_tokenNetwork]
  · rw [after_event, applyEvent_tokenNetwork]

theorem after_address {c : Channel} (hs : c.Sound) (i : ChannelInput) (s : Side) :
    ((c.after i).endOf s).address = (c.endOf s).address := by
  rcases after_endOf hs i s with h | ⟨m, change, h⟩ | ⟨e, change, -, -, -, h⟩
  · rw [h]
  · rw [h.endOf_after, ChannelEnd.recommit_address]
  · rw [h]
    cases change <;> rfl

theorem after_sound {c : Channel} (hs : c.Sound) (i : ChannelInput) : (c.after i).Sound := by
  intro s
  rcases after_endOf hs i s with h | ⟨m, change, h⟩ | ⟨e, change, -, -, he, h⟩
  · rw [h]
    exact hs s
  · rw [h.endOf_after]
    exact h.recommits.sound (hs s)
  · rw [h]
    rcases ChainEvent.endChange?_cases he with ⟨total, rfl⟩ | ⟨total, rfl⟩ | ⟨k, rfl⟩
    -- Of what the ledger can change, only a claimed lock is about the locks.
    · exact (hs s).congr rfl
    · exact (hs s).congr rfl
    · exact (hs s).removeLock k

theorem Sound.create {c c' : Channel} (hs : c.Sound) {r : ChannelRequest} {m : ChannelMessage}
    (h : c.create r = .ok (m, c')) : c'.Sound := by
  have hafter : c.after (.create r) = c' := after_eq_of_ok (by rw [respond, h]; rfl)
  rw [← hafter]
  exact after_sound hs (.create r)

theorem Sound.accept {c c' : Channel} (hs : c.Sound) {m : ChannelMessage} {now : Height}
    (h : c.accept m now = .ok c') : c'.Sound := by
  have hafter : c.after (.accept m now) = c' := after_eq_of_ok (by rw [respond, h]; rfl)
  rw [← hafter]
  exact after_sound hs (.accept m now)

/-- Nothing makes a transferred amount smaller. -/
theorem after_transferredAmount_le {c : Channel} (hs : c.Sound) (i : ChannelInput) (s : Side) :
    (c.endOf s).transferredAmount ≤ ((c.after i).endOf s).transferredAmount := by
  rcases after_endOf hs i s with h | ⟨m, change, h⟩ | ⟨e, change, -, -, he, h⟩
  · rw [h]
    exact Nat.le_refl _
  · rw [h.endOf_after]
    exact h.recommits.transferredAmount_le
  · rw [h]
    rcases ChainEvent.endChange?_cases he with ⟨total, rfl⟩ | ⟨total, rfl⟩ | ⟨k, rfl⟩
    · exact Nat.le_refl _
    · exact Nat.le_refl _
    · exact Nat.le_refl _

/-- What every input of a kind keeps, every history of that kind keeps. -/
theorem run_invariant {P : Channel → Prop} {Q : ChannelInput → Prop}
    (hstep : ∀ c i, c.Sound → Q i → P c → P (c.after i)) {c : Channel} (hs : c.Sound) (h : P c)
    {inputs : List ChannelInput} (hq : ∀ i ∈ inputs, Q i) : P (c.run inputs) := by
  induction inputs generalizing c with
  | nil => exact h
  | cons i rest ih =>
      have hrest : ∀ j ∈ rest, Q j := fun j hj => hq j (List.mem_cons_of_mem i hj)
      exact ih (after_sound hs i) (hstep c i hs (hq i List.mem_cons_self) h) hrest

theorem run_sound {c : Channel} (hs : c.Sound) (inputs : List ChannelInput) :
    (c.run inputs).Sound := by
  induction inputs generalizing c with
  | nil => exact hs
  | cons i rest ih => exact ih (after_sound hs i)

theorem sound_fresh (id : ChannelId) (tokenNetwork ourAddress partnerAddress : Address)
    (revealTimeout settleTimeout openedBlock : Height) :
    (fresh id tokenNetwork ourAddress partnerAddress revealTimeout settleTimeout
      openedBlock).Sound := by
  intro s
  cases s with
  | ours => exact ChannelEnd.sound_fresh ourAddress
  | partner => exact ChannelEnd.sound_fresh partnerAddress

end Channel

/-- A history with every kind of input that counts: both ends deposit, we lock an
    amount, the partner claims a lock that it never had, we unlock ours, and the
    channel closes. -/
def paidHistory (id : ChannelId) (tokenNetwork ourAddress partnerAddress : Address)
    (secret : Secret) : List ChannelInput :=
  [.event (.channelNewDeposit tokenNetwork id ourAddress 10 1),
    .event (.channelNewDeposit tokenNetwork id partnerAddress 6 2),
    .create (.transfer ⟨1, tokenNetwork, 4, ourAddress, partnerAddress, 50, hashSecret secret, none⟩
      3),
    .accept (.unlock ⟨1, secret, ⟨tokenNetwork, id, 1, 4, 0, FixedBytes.zero 32⟩⟩) 4,
    .create (.unlock 1 secret),
    .event (.channelClosed tokenNetwork id partnerAddress 9)]

end PaymentNetwork

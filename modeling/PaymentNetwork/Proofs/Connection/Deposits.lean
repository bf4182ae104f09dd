import PaymentNetwork.Proofs.Connection.Partners
import PaymentNetwork.Proofs.Connection.Stints

/-!
# Where Deposits Go

The channel of every deposit that an operation asks the ledger for.

Two operations deposit. Who joins a channel takes the one that is found under the partner,
and who opened a channel takes it once it is found under its identifier. Neither asks for more
than that. So a deposit never goes to a channel that is not in view, but what is found need
not be open: the latest channel with a partner stays the latest after its end, and a channel
may end while its opening is waited for. Nor need the channel that is found under an
identifier be the one that was opened, since another network may have opened that identifier.

That is all that can be wrong with it. Channels come into view open, only an event that names
them and ends them changes that, and they stay in the network where they were opened. So if
nothing of the kind was seen by the time of the deposit, the channel is open and in the network
of the operation. In which order operations and events come, and what the ledger answers, makes
no difference.

## Main definitions

* `Phase.deposit?`: The deposit that an operation asks for.
* `Desk.HasEnded`, `Desk.HasOpened`: Did a channel end by now, and was it ever opened?
* `Desk.Finds`: How an operation finds the channel that it deposits into.
* `Desk.DepositLaw`: What is known of a deposit at the moment when it is asked for.

## Theorems

* `Membership.resume_deposit_cases`: The two ways to a deposit.
* `NetworkView.stored?_apply_cases`: Where a channel comes from, and whether it is open.
* `Desk.run_stored_cases`: The same for a run.
* `Desk.run_depositLaw`: The law for every deposit in every run.
-/

namespace PaymentNetwork

/-! ### Two ways to a deposit -/

/-- The channel and the amount of the deposit that an operation asks for. -/
def Phase.deposit? : Phase → Option (ChannelId × Amount)
  | funding channelId amount _ => some (channelId, amount)
  | joining channelId amount => some (channelId, amount)
  | _ => none

section Steps

variable {s : ConnectionSettings}

theorem Phase.wants_eq_deposit_iff {p : Phase} {tokenNetwork : Address} {channelId : ChannelId}
    {amount : Amount} :
    p.wants s = .ledger (.deposit tokenNetwork channelId amount) ↔
      s.tokenNetwork = tokenNetwork ∧ p.deposit? = some (channelId, amount) := by
  cases p <;> simp [wants, deposit?]

namespace Membership

@[simp] theorem deposit?_openNext (amount : Amount) (partners : List Address) :
    (openNext amount partners).deposit? = none := by
  cases partners <;> rfl

@[simp] theorem deposit?_finishOpening (errand : Errand) (amount : Amount)
    (result : Except ConnectionError ChannelId) :
    (finishOpening errand amount result).deposit? = none := by
  cases errand with
  | batch rest => exact deposit?_openNext amount rest
  | single => cases result <;> rfl

@[simp] theorem deposit?_addPartners (m : Membership) : (m.addPartners s).deposit? = none :=
  deposit?_openNext _ _

@[simp] theorem deposit?_closeNext (m : Membership) (closed : List ChannelId)
    (channels : List Channel) : (m.closeNext closed channels).deposit? = none := by
  cases channels with
  | cons c rest => rfl
  | nil =>
      unfold closeNext
      dsimp only
      split <;> rfl

/-- A channel that was opened gets a deposit only if it is in view. -/
theorem lookForChannel_deposit {m : Membership} {channelId id : ChannelId} {polls : Nat}
    {funding amount : Amount} {errand : Errand}
    (h : (m.lookForChannel s channelId polls funding errand).deposit? = some (id, amount)) :
    id = channelId ∧ amount = funding ∧ amount ≠ 0 ∧ ∃ c, m.view.channel? channelId = some c := by
  unfold lookForChannel at h
  split at h
  · rename_i c hfound
    split at h
    · rw [deposit?_finishOpening] at h
      cases h
    · rename_i hfunding
      cases h
      exact ⟨rfl, rfl, hfunding, c, hfound⟩
  · split at h
    · rw [deposit?_finishOpening] at h
      cases h
    · cases h

/-- Who joins a channel takes the latest one with the partner. -/
theorem granted_deposit {m : Membership} {op : Operation} {id : ChannelId} {amount : Amount}
    (h : (m.granted s op).2.deposit? = some (id, amount)) :
    amount ≠ 0 ∧ ∃ partner deposit c, op = .joinChannel partner deposit ∧
      m.view.channelByPartner? s.tokenNetwork partner = some c ∧ c.id = id := by
  cases op with
  | joinChannel partner deposit =>
      unfold granted at h
      dsimp only at h
      split at h
      · cases h
      · rename_i hbusy
        split at h
        · cases h
        · rename_i c hfound
          cases h
          -- Nothing to deposit is one of the reasons to stop.
          refine ⟨fun hzero => hbusy ?_, partner, deposit, c, rfl, hfound, rfl⟩
          rw [hzero, decide_eq_true rfl, Bool.or_true]
  | connect policy =>
      unfold granted at h
      dsimp only at h
      split at h
      · cases h
      · rw [deposit?_addPartners] at h
        cases h
  | retryConnect =>
      unfold granted at h
      dsimp only at h
      split at h
      · cases h
      · rw [deposit?_addPartners] at h
        cases h
  | leave onlyReceiving =>
      unfold granted at h
      dsimp only at h
      rw [deposit?_closeNext] at h
      cases h
  | _ => cases h

/-- There are two ways to a deposit: who gets the policy joins a channel, or a channel that
    was looked for is in view. -/
theorem resume_deposit_cases {m : Membership} {p : Phase} {w : Wake} {id : ChannelId}
    {amount : Amount} (hends : (p.wants s).isEndedBy w = true)
    (h : (m.resume s p w).2.deposit? = some (id, amount)) :
    amount ≠ 0 ∧
    ((∃ partner deposit c, p = .queued (.joinChannel partner deposit) ∧
      m.view.channelByPartner? s.tokenNetwork partner = some c ∧ c.id = id) ∨
    (p.seeks? w = some id ∧ ∃ c, m.view.channel? id = some c)) := by
  -- Most steps lead to a place that asks for no deposit.
  have hnone : ∀ {q : Phase}, q.deposit? = none → q.deposit? = some (id, amount) → False :=
    fun hq hq' => nomatch hq.symm.trans hq'
  have hlooked : ∀ {channelId : ChannelId} {polls : Nat} {funding : Amount} {errand : Errand},
      p.seeks? w = some channelId →
      (m.lookForChannel s channelId polls funding errand).deposit? = some (id, amount) →
      amount ≠ 0 ∧ ((∃ partner deposit c, p = .queued (.joinChannel partner deposit) ∧
        m.view.channelByPartner? s.tokenNetwork partner = some c ∧ c.id = id) ∨
      (p.seeks? w = some id ∧ ∃ c, m.view.channel? id = some c)) := by
    intro channelId polls funding errand hseeks hnext
    obtain ⟨rfl, -, hamount, hfound⟩ := lookForChannel_deposit hnext
    exact ⟨hamount, Or.inr ⟨hseeks, hfound⟩⟩
  cases p with
  | queued op =>
      cases w with
      | granted =>
          obtain ⟨hamount, partner, deposit, c, rfl, hfound⟩ := granted_deposit h
          exact ⟨hamount, Or.inl ⟨partner, deposit, c, rfl, hfound⟩⟩
      | _ => cases hends
  | opening partner funding errand =>
      cases w with
      | answered answer =>
          rcases answer with e | a
          · exact (hnone (deposit?_finishOpening errand funding (.error (.ledger e))) h).elim
          · cases a with
            | opened channelId => exact hlooked rfl h
            | _ =>
                exact (hnone (deposit?_finishOpening errand funding (.error .channelNotVisible))
                  h).elim
      | _ => cases hends
  | polling channelId polls funding errand =>
      cases w with
      | ticked ok =>
          cases ok with
          | true => exact hlooked rfl h
          | false =>
              exact (hnone (deposit?_finishOpening errand funding (.error .clockStopped)) h).elim
      | _ => cases hends
  | bootstrapping =>
      cases w with
      | answered answer =>
          rcases answer with e | a
          · cases h
          · exact (hnone (deposit?_addPartners m) h).elim
      | _ => cases hends
  | funding channelId funding errand =>
      cases w with
      | answered answer =>
          rcases answer with e | a
          · exact (hnone (deposit?_finishOpening errand funding (.error (.ledger e))) h).elim
          · exact (hnone (deposit?_finishOpening errand funding (.ok channelId)) h).elim
      | _ => cases hends
  | joining channelId funding =>
      cases w with
      | answered answer => rcases answer with e | a <;> cases h
      | _ => cases hends
  | closing c rest closed =>
      cases w with
      | answered answer => rcases answer with e | a <;> exact (hnone (deposit?_closeNext ..) h).elim
      | _ => cases hends
  | settling closed =>
      cases w with
      | ticked ok =>
          cases ok with
          | true => exact (hnone (deposit?_closeNext m closed []) h).elim
          | false => cases h
      | _ => cases hends
  | ended result => cases hends

end Membership

end Steps

/-! ### Where channels come from -/

namespace NetworkView

/-- A channel that is stored after an event was stored before, with the status that it has
    unless the event ends it, or the event opens it. -/
theorem stored?_apply_cases {v : NetworkView} {e : ChainEvent} {tokenNetwork : Address}
    {id : ChannelId} {c : Channel} (h : (v.apply e).stored? tokenNetwork id = some c) :
    (∃ c', v.stored? tokenNetwork id = some c' ∧
      (c.isOpen = c'.isOpen ∨ e.ends = true ∧ e.channelId? = some id)) ∨
    (c.isOpen = true ∧
      ∃ o, e.opening? v.ourAddress = some o ∧ o.place = (tokenNetwork, id)) := by
  have hsame := v.sameChannels_learn e
  have hopening := v.opening?_eq e
  have hchange := v.change_apply e
  generalize v.apply e = w at hchange h
  cases hchange with
  | @opens d hopened hfree =>
      -- Only one place is filled, with a channel that is open, and none is emptied.
      by_cases hplace : tokenNetwork = d.tokenNetwork ∧ id = d.id
      · obtain ⟨rfl, rfl⟩ := hplace
        rw [stored?_addChannel_self, Option.some.injEq] at h
        subst h
        rw [hopened] at hopening
        exact Or.inr ⟨isOpen_of_opened? hopened, d.opening, hopening, rfl⟩
      · rw [stored?_addChannel_of_ne hplace, hsame.stored] at h
        exact Or.inl ⟨c, h, Or.inl rfl⟩
  | turnsDown => exact Or.inl ⟨c, (hsame.stored _ _).symm.trans h, Or.inl rfl⟩
  | @reaches _ _ d hopened hid hfind =>
      rcases stored?_putChannel_cases hfind (d.applyEvent e) tokenNetwork id with
        hkept | ⟨-, rfl, hd, hput⟩
      · exact Or.inl ⟨c, hkept.symm.trans h, Or.inl rfl⟩
      · rw [hput, Option.some.injEq] at h
        subst h
        refine Or.inl ⟨d, hd, ?_⟩
        -- The event reached a channel in this place. It keeps the status, unless it is an end.
        cases hends : e.ends with
        | true => exact Or.inr ⟨rfl, hid⟩
        | false =>
            refine Or.inl ?_
            rw [Channel.isOpen, Channel.status_applyEvent hends, Channel.isOpen]
  | learns => exact Or.inl ⟨c, (hsame.stored _ _).symm.trans h, Or.inl rfl⟩

end NetworkView

namespace Desk

/-- Was an event of an end of this channel seen, or was the channel not open to begin with? -/
def HasEnded (d : Desk) (moves : List Move) (tokenNetwork : Address) (id : ChannelId) : Prop :=
  (∃ e ∈ events moves, e.ends = true ∧ e.channelId? = some id) ∨
    ∃ c, d.membership.view.stored? tokenNetwork id = some c ∧ c.isOpen = false

/-- Was the opening of this channel seen, or was the channel in view to begin with? -/
def HasOpened (d : Desk) (moves : List Move) (tokenNetwork : Address) (id : ChannelId) : Prop :=
  (∃ e ∈ events moves, ∃ o, e.opening? d.membership.view.ourAddress = some o ∧
    o.place = (tokenNetwork, id)) ∨
    (d.membership.view.stored? tokenNetwork id).isSome

section Runs

variable {s : ConnectionSettings} {d : Desk} {tokenNetwork : Address} {id : ChannelId}

theorem filterMap_append_singleton {α β : Type} (f : α → Option β) (xs : List α) (x : α) :
    (xs ++ [x]).filterMap f = xs.filterMap f ++ (f x).toList := by
  rw [List.filterMap_append]
  cases hx : f x <;> simp [hx]

theorem events_append_singleton (moves : List Move) (move : Move) :
    events (moves ++ [move]) = events moves ++ move.event?.toList :=
  filterMap_append_singleton _ moves move

theorem mem_events_append_singleton {moves : List Move} {e : ChainEvent} (move : Move)
    (h : e ∈ events moves) : e ∈ events (moves ++ [move]) := by
  rw [events_append_singleton]
  exact List.mem_append_left _ h

theorem HasEnded.append {moves : List Move} (move : Move) (h : d.HasEnded moves tokenNetwork id) :
    d.HasEnded (moves ++ [move]) tokenNetwork id :=
  h.imp_left (fun ⟨e, he, hends⟩ => ⟨e, mem_events_append_singleton move he, hends⟩)

theorem HasOpened.append {moves : List Move} (move : Move)
    (h : d.HasOpened moves tokenNetwork id) : d.HasOpened (moves ++ [move]) tokenNetwork id :=
  h.imp_left (fun ⟨e, he, hopens⟩ => ⟨e, mem_events_append_singleton move he, hopens⟩)

theorem ourAddress_run (d : Desk) (moves : List Move) :
    (d.run s moves).membership.view.ourAddress = d.membership.view.ourAddress := by
  induction moves using List.reverseRecOn with
  | nil => rfl
  | append_singleton moves move ih => rw [run_append_singleton, ourAddress_after, ih]

/-- A channel that is stored was opened, and is open unless it ended. -/
theorem run_stored_cases (moves : List Move) {c : Channel}
    (h : (d.run s moves).membership.view.stored? tokenNetwork id = some c) :
    d.HasOpened moves tokenNetwork id ∧ (c.isOpen = true ∨ d.HasEnded moves tokenNetwork id) := by
  induction moves using List.reverseRecOn generalizing c with
  | nil =>
      refine ⟨Or.inr (Option.isSome_of_eq_some h), ?_⟩
      cases hopen : c.isOpen with
      | true => exact Or.inl rfl
      | false => exact Or.inr (Or.inr ⟨c, h, hopen⟩)
  | append_singleton moves move ih =>
      rw [run_append_singleton] at h
      rcases (d.run s moves).after_view_cases (s := s) move with ⟨e, he, hview⟩ | ⟨-, hsame⟩
      · have hlast : e ∈ events (moves ++ [move]) := by
          rw [events_append_singleton, he]
          exact List.mem_append_right _ (List.mem_singleton_self e)
        rw [hview] at h
        rcases NetworkView.stored?_apply_cases h with ⟨c', hc', hstatus⟩ | ⟨hopen, o, ho, hplace⟩
        · -- It was there before, so the last event can only have ended it.
          obtain ⟨hopened, hstays⟩ := ih hc'
          refine ⟨hopened.append move, ?_⟩
          rcases hstatus with hstatus | hends
          · rw [hstatus]
            exact hstays.imp_right (HasEnded.append move)
          · exact Or.inr (Or.inl ⟨e, hlast, hends⟩)
        · rw [ourAddress_run] at ho
          exact ⟨Or.inl ⟨e, hlast, o, ho, hplace⟩, Or.inl hopen⟩
      · obtain ⟨hopened, hstays⟩ := ih ((hsame.stored _ _).symm.trans h)
        exact ⟨hopened.append move, hstays.imp_right (HasEnded.append move)⟩

/-- The indexes of the view stay in order. -/
theorem run_indexed {opened : List Opening} (h : d.membership.view.Indexed opened)
    (moves : List Move) :
    ∃ opened', (d.run s moves).membership.view.Indexed opened' := by
  induction moves using List.reverseRecOn with
  | nil => exact ⟨opened, h⟩
  | append_singleton moves move ih =>
      obtain ⟨opened', h'⟩ := ih
      rw [run_append_singleton]
      rcases (d.run s moves).after_view_cases (s := s) move with ⟨e, -, hview⟩ | ⟨-, hsame⟩
      · exact ⟨_, hview ▸ h'.apply e⟩
      · exact ⟨opened', h'.congr hsame⟩

end Runs

/-! ### Deposits -/

/-- How an operation finds the channel that it deposits into: it is the latest one with the
    partner that it joins, or the one under the identifier that it looks for. -/
inductive Finds (s : ConnectionSettings) (t : Stint) (c : Channel) : Prop
  | partner (partner : Address) (deposit : Amount)
      (joins : t.phase = .queued (.joinChannel partner deposit))
      (latest : t.view.channelByPartner? s.tokenNetwork partner = some c)
      (isPartner : c.partner.address = partner) (network : c.tokenNetwork = s.tokenNetwork)
  | identifier (seeks : t.phase.seeks? t.wake = some c.id)
      (found : t.view.channel? c.id = some c)

/-- What is known of a deposit that is asked for after some moves. -/
structure DepositLaw (s : ConnectionSettings) (d : Desk) (moves : List Move) (t : Stint)
    (tokenNetwork : Address) (id : ChannelId) (amount : Amount) : Prop where
  network : tokenNetwork = s.tokenNetwork
  positive : amount ≠ 0
  /-- The channel is in view, where it was found. It is open unless it ended, and in the network
      of the operation unless another network opened its identifier. -/
  channel : ∃ c ∈ t.view.channels c.tokenNetwork, c.id = id ∧ Finds s t c ∧
    (c.isOpen = true ∨ d.HasEnded moves c.tokenNetwork id) ∧ d.HasOpened moves c.tokenNetwork id
  /-- A channel that did not end, with an identifier that no other network opened, is one of our
      open channels in the network of the operation. -/
  safe : ¬ d.HasEnded moves s.tokenNetwork id →
    (∀ other, d.HasOpened moves other id → other = s.tokenNetwork) →
    ∃ c ∈ t.view.openChannels s.tokenNetwork, c.id = id

/-- Every deposit in every run keeps to the law, whatever the operations have done before. -/
theorem run_depositLaw {s : ConnectionSettings} {d : Desk} {opened : List Opening}
    (h : d.membership.view.Indexed opened) {moves : List Move} {move : Move} {t : Stint}
    {tokenNetwork : Address} {id : ChannelId} {amount : Amount}
    (ht : (d.run s moves).stint? s move = some t)
    (hrequest : t.request? s = some (.deposit tokenNetwork id amount)) :
    DepositLaw s d moves t tokenNetwork id amount := by
  obtain ⟨opened', hindexed⟩ := run_indexed (s := s) h moves
  obtain ⟨-, hfound, -, hends⟩ := stint?_eq_some_iff.mp ht
  rw [← hfound] at hindexed
  obtain ⟨hnetwork, hdeposit⟩ :=
    Phase.wants_eq_deposit_iff.mp (Stint.request?_eq_some_iff.mp hrequest)
  obtain ⟨hpositive, hways⟩ := Membership.resume_deposit_cases hends hdeposit
  have hchannel : ∃ c ∈ t.view.channels c.tokenNetwork, c.id = id ∧ Finds s t c := by
    rcases hways with ⟨partner, deposit, c, hphase, hlatest, hid⟩ | ⟨hseeks, c, hc⟩
    · have hmem := hindexed.mem_of_channelByPartner? hlatest
      obtain ⟨hhere, -⟩ := hindexed.opening_of_mem hmem
      refine ⟨c, hhere.symm ▸ hmem, hid, .partner partner deposit hphase hlatest ?_ hhere⟩
      have hopening := hindexed.channelByPartner?_opening s.tokenNetwork partner
      rw [hlatest, Option.map_some] at hopening
      exact (Opening.latestWith?_eq_some hopening.symm).2.2
    · -- By its identifier a channel is found in whatever network it is in.
      obtain ⟨rfl, hmem⟩ := hindexed.mem_of_channel? hc
      exact ⟨c, hmem, rfl, .identifier hseeks hc⟩
  obtain ⟨c, hmem, rfl, hfinds⟩ := hchannel
  have hstored : (d.run s moves).membership.view.stored? c.tokenNetwork c.id = some c := by
    rw [← hfound]
    exact hindexed.mem_channels.mp hmem
  obtain ⟨hopened, hopen⟩ := run_stored_cases moves hstored
  refine ⟨hnetwork.symm, hpositive, ⟨c, hmem, rfl, hfinds, hopen, hopened⟩, ?_⟩
  intro hstays hhere
  rw [hhere _ hopened] at hmem hopen
  exact ⟨c, List.mem_filter.mpr ⟨hmem, hopen.resolve_right hstays⟩, rfl⟩

namespace LateJoin

/-! ### A channel that ended before it was joined -/

def us : Address := .replicate 20 1

def partner : Address := .replicate 20 17

def channelId : ChannelId := .replicate 32 17

def settings : ConnectionSettings := ⟨.replicate 20 170, us, .replicate 20 2, 100, 1, 1, 3⟩

/-- Nothing was seen yet. -/
def view : NetworkView := .fresh us 5

/-- A partner opens a channel, and a node that joined the network is asked to join it. Until
    the node gets the policy the partner closes the channel. -/
def moves : List Move :=
  [.event (.channelOpened settings.tokenNetwork channelId partner us 100 10),
    .start (.connect ⟨100, 2, 0.0⟩), .wake 0 .granted, .start (.joinChannel partner 50),
    .event (.channelClosed settings.tokenNetwork channelId partner 11)]

theorem asks : (((fresh ⟨view, .empty⟩).run settings moves).stint? settings
    (.wake 1 .granted)).bind (Stint.request? settings)
      = some (.deposit settings.tokenNetwork channelId 50) := by decide +kernel

theorem hasNoOpenChannel : (((fresh ⟨view, .empty⟩).run settings moves).membership.view.openChannels
    settings.tokenNetwork).length = 0 := by decide +kernel

/-- The node deposits into the closed channel, though no channel of its is open. -/
theorem deposits_into_closed :
    ¬ ∀ (s : ConnectionSettings) (v : NetworkView) (moves : List Move) (move : Move) (t : Stint)
      (tokenNetwork : Address) (id : ChannelId) (amount : Amount),
      ((fresh ⟨v, .empty⟩).run s moves).stint? s move = some t →
      t.request? s = some (.deposit tokenNetwork id amount) →
      ∃ c ∈ t.view.openChannels s.tokenNetwork, c.id = id := by
  intro h
  obtain ⟨t, ht, hrequest⟩ := Option.bind_eq_some_iff.mp asks
  obtain ⟨c, hc, -⟩ := h _ _ _ _ t _ _ _ ht hrequest
  obtain ⟨-, hfound, -⟩ := stint?_eq_some_iff.mp ht
  rw [Stint.view, hfound, List.length_eq_zero_iff.mp hasNoOpenChannel] at hc
  cases hc

/-- The law for this deposit: the channel is in view, and an end of it was seen. -/
theorem run_depositLaw_lateJoin : view.Indexed [] ∧
    ∃ t, ((fresh ⟨view, .empty⟩).run settings moves).stint? settings (.wake 1 .granted) = some t ∧
      t.request? settings = some (.deposit settings.tokenNetwork channelId 50) ∧
      DepositLaw settings (fresh ⟨view, .empty⟩) moves t settings.tokenNetwork channelId 50 := by
  have hindexed := NetworkView.indexed_fresh us 5
  obtain ⟨t, ht, hrequest⟩ := Option.bind_eq_some_iff.mp asks
  exact ⟨hindexed, t, ht, hrequest, run_depositLaw hindexed ht hrequest⟩

end LateJoin

end Desk

end PaymentNetwork

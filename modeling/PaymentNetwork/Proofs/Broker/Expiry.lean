import PaymentNetwork.Proofs.Broker.Actions
import PaymentNetwork.Proofs.Broker.Custody
import PaymentNetwork.Proofs.Sorting

/-!
# Locks That Expire

What one operation of a node does to the locks that it sent and that expired.

Only a block makes locks expire, and then there are three who may take one back: the
payment that it was sent for, the transfer that it was passed on for, and the node itself,
which looks through its channels when the transfers are done. Some locks are left to the
node alone, because their transfer went on over another route or ended for another reason.
That all three may try does no harm. A lock that is pending and expired is removed, and
its partner is told. A lock that is gone is not removed again, so nobody is told twice. So
it does not matter who comes first, and all that has to be known of the transfers is that
on a block they neither send locks nor unlock any.

Between two blocks no lock expires. A channel refuses to take a lock back before its time,
so as long as nothing expired is left over, nothing is taken back at all.

## Main definitions

* `Channel.Unexpired`: The channel is not open, or no lock of ours in it expired.
* `Holding`, `NetworkView.holding?`: What a view says about one lock of ours.
* `Broker.removals`: The peers that are told that one lock is taken back.
* `TakesBack`, `Broker.Tidies`: Expired locks go, with one message each, and nothing else
  changes.

## Theorems

* `Transfer.step_block_takesBackOnly`: What a block makes transfers ask for.
* `TakesBack.trans`: A lock that was taken back is not taken back again.
* `Broker.mem_expiredLocks`: The node finds every lock of ours that expired.
* `Broker.react_block`, `Broker.react_still`: What a block does, and everything else.
-/

namespace PaymentNetwork

/-! ### What a block makes a transfer ask for -/

namespace Effect

/-- Does the effect neither send a lock nor unlock one? -/
def takesBackOnly : Effect → Bool
  | sendLockedTransfer .. => false
  | sendUnlock .. => false
  | _ => true

theorem takesBackOnly_of_isQuiet {e : Effect} (h : e.isQuiet = true) : e.takesBackOnly = true := by
  cases e with
  | sendLockedTransfer => cases h
  | sendUnlock => cases h
  | _ => rfl

theorem all_takesBackOnly_of_isQuiet {es : List Effect} (h : es.all isQuiet = true) :
    es.all takesBackOnly = true :=
  List.all_eq_true.mpr (fun e he => takesBackOnly_of_isQuiet (List.all_eq_true.mp h e he))

end Effect

theorem Initiator.onBlock_takesBackOnly (s : Initiator) (number : Height) :
    (s.onBlock number).2.all Effect.takesBackOnly = true := by
  have hexpire : ∀ u : Initiator, u.expire.2.all Effect.takesBackOnly = true := by
    intro u
    unfold expire removal
    split
    · split
      · split
        · rfl
        · rfl
      · rfl
    · rfl
  unfold onBlock
  dsimp only
  rw [List.all_append, hexpire, Bool.and_true]
  rcases registerSecret_cases { s with blockNumber := number } with heq | ⟨secret, heq⟩
  · rw [heq]
    rfl
  · rw [heq]
    rfl

theorem Mediator.onBlock_takesBackOnly (s : Mediator) (number : Height) :
    (s.onBlock number).2.all Effect.takesBackOnly = true := by
  have hexpire : ∀ u : Mediator, u.expire.2.all Effect.takesBackOnly = true := by
    intro u
    unfold expire
    split
    · rfl
    · rfl
  have hremove : ∀ u : Mediator, u.removeDownstream.2.all Effect.takesBackOnly = true := by
    intro u
    unfold removeDownstream
    split
    · split
      · rfl
      · rfl
    · rfl
  unfold onBlock
  dsimp only
  split
  · rw [List.all_append, hexpire, hremove]
    rfl
  · exact Effect.all_takesBackOnly_of_isQuiet (checkPayerDeadline_quiet _)
  · rfl

namespace Transfer

/-- On a block, a transfer neither sends a lock nor unlocks one. -/
theorem step_block_takesBackOnly (t : Transfer) (number : Height) :
    (t.step (.block number)).2.all Effect.takesBackOnly = true := by
  cases t with
  | initiator s =>
      change (s.step (.block number)).2.all Effect.takesBackOnly = true
      unfold Initiator.step
      split
      · rfl
      · exact s.onBlock_takesBackOnly number
  | mediator s =>
      change (s.step (.block number)).2.all Effect.takesBackOnly = true
      unfold Mediator.step
      split
      · rfl
      · exact s.onBlock_takesBackOnly number
  | target s => exact Effect.all_takesBackOnly_of_isQuiet (s.step_quiet (.block number))

end Transfer

/-! ### One lock -/

/-- What a view says about our lock on a hash in a channel: whether the channel is open,
    with whom it is, and the lock if it is pending. -/
structure Holding where
  isOpen : Bool
  partner : Address
  lock? : Option Lock

/-- Our lock on a hash in the channel. -/
def Channel.holding (c : Channel) (k : SecretHash) : Holding :=
  ⟨c.isOpen, c.partner.address, c.ours.pendingLocks.get? k⟩

/-- Our lock on a hash in the channel of an identifier. -/
def NetworkView.holding? (v : NetworkView) (id : ChannelId) (k : SecretHash) : Option Holding :=
  (v.channel? id).map (·.holding k)

theorem NetworkView.holding?_eq_some_iff {v : NetworkView} {id : ChannelId} {k : SecretHash}
    {isOpen : Bool} {partner : Address} {l? : Option Lock} :
    v.holding? id k = some ⟨isOpen, partner, l?⟩ ↔ ∃ c, v.channel? id = some c ∧
      c.isOpen = isOpen ∧ c.partner.address = partner ∧ c.ours.pendingLocks.get? k = l? := by
  rw [holding?, Option.map_eq_some_iff]
  simp only [Channel.holding, Holding.mk.injEq]

/-- Nothing happens to a lock, or it is taken back after it expired and the partner is told
    once. -/
inductive TakesBack (now : Height) : Option Holding → List Address → Option Holding → Prop where
  | kept (h? : Option Holding) : TakesBack now h? [] h?
  | taken {partner : Address} {l : Lock} (hexpired : l.expiration ≤ now) :
      TakesBack now (some ⟨true, partner, some l⟩) [partner] (some ⟨true, partner, none⟩)

section TakesBack

variable {now : Height} {h? h₁? h₂? : Option Holding} {told told' : List Address}

/-- A lock that was taken back is not there to be taken back again. -/
theorem TakesBack.trans (h : TakesBack now h? told h₁?) (h' : TakesBack now h₁? told' h₂?) :
    TakesBack now h? (told ++ told') h₂? := by
  cases h with
  | kept => exact h'
  | taken hexpired =>
      cases h' with
      | kept => exact .taken hexpired

/-- What is still pending was pending all the time, and nobody was told otherwise. -/
theorem TakesBack.of_pending (h : TakesBack now h? told h₁?) {isOpen : Bool} {partner : Address}
    {l : Lock} (hpending : h₁? = some ⟨isOpen, partner, some l⟩) :
    h? = some ⟨isOpen, partner, some l⟩ ∧ told = [] := by
  cases h with
  | kept => exact ⟨hpending, rfl⟩
  | taken => cases hpending

/-- Whoever is told anything is the partner of an open channel with an expired lock. -/
theorem TakesBack.of_told (h : TakesBack now h? told h₁?) (htold : told ≠ []) :
    ∃ partner l, h? = some ⟨true, partner, some l⟩ ∧ l.expiration ≤ now ∧ told = [partner] ∧
      h₁? = some ⟨true, partner, none⟩ := by
  cases h with
  | kept => exact absurd rfl htold
  | taken hexpired => exact ⟨_, _, rfl, hexpired, rfl, rfl⟩

end TakesBack

/-- A channel takes a lock back that expired, and leaves the other locks alone. -/
theorem Channel.sendRemoval_takesBack {c c' : Channel} {secretHash : SecretHash} {now : Height}
    {m : LockRemoval} (hs : c.ours.Sound) (h : c.sendRemoval secretHash now = .ok (m, c')) :
    m.balanceProof.channelId = c.id ∧ m.secretHash = secretHash ∧
      ∀ k, TakesBack now (some (c.holding k))
        (if secretHash = k then [c.partner.address] else []) (some (c'.holding k)) := by
  obtain ⟨hopen, -, hhash, l, rfl, hexpired, hrecommits, rfl⟩ := sendRemoval_spec hs h
  refine ⟨hrecommits.channelId_eq, hhash, fun k => ?_⟩
  -- What is left of our locks is all but the one that was asked for.
  have hafter : holding { c with ours := c.ours.recommit (.removed l) m.balanceProof } k
      = ⟨c.isOpen, c.partner.address, (c.ours.pendingLocks.erase l.secretHash).get? k⟩ := rfl
  rw [hafter, holding]
  by_cases hk : l.secretHash = k
  · subst hk
    rw [if_pos rfl, hopen, hrecommits.allowed, SortedMap.get?_erase_self]
    exact .taken hexpired
  · rw [if_neg hk, SortedMap.get?_erase_of_ne (fun heq => hk heq.symm)]
    exact .kept _

/-- The peer that is told that our lock on a hash in a channel is taken back, if the action
    tells that. -/
def Action.removal? (id : ChannelId) (k : SecretHash) : Action → Option Address
  | .send recipient (.lockRemoval m) =>
    if m.balanceProof.channelId = id ∧ m.secretHash = k then some recipient else none
  | _ => none

namespace Broker

/-- The peers that are told that our lock on a hash in a channel is taken back. -/
def removals (id : ChannelId) (k : SecretHash) (actions : List Action) : List Address :=
  actions.filterMap (Action.removal? id k)

theorem removals_append (id : ChannelId) (k : SecretHash) (xs ys : List Action) :
    removals id k (xs ++ ys) = removals id k xs ++ removals id k ys :=
  List.filterMap_append

theorem removals_lockRemoval (id : ChannelId) (k : SecretHash) (recipient : Address)
    (m : LockRemoval) : removals id k [.send recipient (.lockRemoval m)]
      = if m.balanceProof.channelId = id ∧ m.secretHash = k then [recipient] else [] := by
  by_cases hsame : m.balanceProof.channelId = id ∧ m.secretHash = k
  · rw [if_pos hsame]
    exact List.filterMap_cons_some (if_pos hsame)
  · rw [if_neg hsame]
    exact List.filterMap_cons_none (if_neg hsame)

theorem removals_of_isAside {actions : List Action} (h : ∀ a ∈ actions, a.isAside = true)
    (id : ChannelId) (k : SecretHash) : removals id k actions = [] := by
  refine List.filterMap_eq_nil_iff.mpr (fun a ha => ?_)
  have haside := h a ha
  cases a with
  | send recipient m =>
      cases m with
      | lockRemoval => cases haside
      | _ => rfl
  | _ => rfl

theorem noticeOf_removals (level : NoticeLevel) (info : String) (id : ChannelId)
    (k : SecretHash) : removals id k (noticeOf level info) = [] := by
  unfold noticeOf
  split
  · rfl
  · rfl

/-- An effect that leaves the channels alone takes nothing back. -/
theorem perform_removals_of_quiet (view : NetworkView) (block : Height) {e : Effect}
    (h : e.isQuiet = true) (id : ChannelId) (k : SecretHash) :
    removals id k (perform view block e).actions = [] := by
  cases e with
  | sendLockedTransfer => cases h
  | sendUnlock => cases h
  | sendLockRemoval => cases h
  | unlockFailed =>
      dsimp only [perform]
      exact noticeOf_removals _ _ id k
  | notice =>
      dsimp only [perform]
      exact noticeOf_removals _ _ id k
  | _ => rfl

/-! ### What a block takes back -/

/-- From one view to another, expired locks were taken back, with one message each, and
    nothing else happened to our locks. -/
def Tidies (now : Height) (v : NetworkView) (actions : List Action) (v' : NetworkView) : Prop :=
  ∀ id k, TakesBack now (v.holding? id k) (removals id k actions) (v'.holding? id k)

section Tidies

variable {now : Height} {v v' v'' : NetworkView} {actions actions' : List Action}
  {log : List Offer} {b : Broker}

theorem tidies_of_quiet (h : ∀ id k, removals id k actions = []) : Tidies now v actions v := by
  intro id k
  rw [h id k]
  exact .kept _

theorem Tidies.trans (h : Tidies now v actions v') (h' : Tidies now v' actions' v'') :
    Tidies now v (actions ++ actions') v'' := by
  intro id k
  rw [removals_append]
  exact (h id k).trans (h' id k)

/-- Taking one lock back: its channel does it and the partner is told, or it refuses and
    nothing happens. -/
theorem build_removal_tidies (h : v.Holds (fun id c => c.Logged log id)) (channelId : ChannelId)
    (recipient : Address) (secretHash : SecretHash) :
    Tidies now v
      (build v channelId recipient (·.sendRemoval secretHash now) .lockRemoval
        fun _ => []).actions
      (build v channelId recipient (·.sendRemoval secretHash now) .lockRemoval
        fun _ => []).view := by
  unfold build
  split
  · rename_i m view' hbuild
    obtain ⟨tokenNetwork, c, c', hfind, hpartner, hop, rfl⟩ :=
      NetworkView.withPartnerChannel_eq_ok_iff.mp hbuild
    have hlogged := h channelId c (NetworkView.channel?_of_find? hfind)
    obtain ⟨hid, hhash, htakes⟩ := Channel.sendRemoval_takesBack (hlogged.sound .ours) hop
    intro id k
    rw [removals_lockRemoval, hid, hlogged.id_eq, hhash]
    by_cases hself : id = channelId
    · subst hself
      rw [NetworkView.holding?, NetworkView.holding?, NetworkView.channel?_of_find? hfind,
        NetworkView.channel?_putChannel_self hfind, ← hpartner]
      simpa only [true_and, Option.map_some] using htakes k
    · rw [if_neg (fun hsame => hself hsame.1.symm), NetworkView.holding?, NetworkView.holding?,
        NetworkView.channel?_putChannel_of_ne hself]
      exact .kept _
  · exact tidies_of_quiet (fun _ _ => rfl)

theorem perform_tidies (h : v.Holds (fun id c => c.Logged log id)) {e : Effect}
    (he : e.takesBackOnly = true) :
    Tidies now v (perform v now e).actions (perform v now e).view := by
  by_cases hquiet : e.isQuiet = true
  · rw [perform_view_of_quiet v now hquiet]
    exact tidies_of_quiet (perform_removals_of_quiet v now hquiet)
  · cases e with
    | sendLockedTransfer => cases he
    | sendUnlock => cases he
    | sendLockRemoval => exact build_removal_tidies h _ _ _
    | _ => exact absurd rfl hquiet

/-- What a transfer asks for on a block takes expired locks back at most. -/
theorem drain_tidies (h : v.Holds (fun id c => c.Logged log id)) (t : Transfer)
    {effects : List Effect} (heffects : effects.all Effect.takesBackOnly = true) :
    Tidies now v (drain v now t effects).2.actions (drain v now t effects).2.view := by
  fun_induction drain v now t effects with
  | case1 view t => exact tidies_of_quiet (fun _ _ => rfl)
  | case2 view t recipient channelId terms rest m view' hsend t' o hdrain ih => cases heffects
  | case3 view t recipient channelId terms rest e hsend refusal ih => cases heffects
  | case4 view t effect rest hne done t' o hdrain ih =>
      rw [List.all_cons, Bool.and_eq_true] at heffects
      rw [hdrain] at ih
      exact (perform_tidies h heffects.1).trans
        (ih (perform_holds (closed_logged log) h now effect) heffects.2)

theorem feed_block_tidies (h : b.Logged log) (number : Height) (key : TransferKey) :
    Tidies b.block b.view (b.feed (.block number) key).2 (b.feed (.block number) key).1.view := by
  cases ht : b.transfers.get? key with
  | none =>
      rw [feed, ht]
      exact tidies_of_quiet (fun _ _ => rfl)
  | some t =>
      rw [feed_of_some ht, settle, keep_view]
      exact drain_tidies h.channels _ (t.step_block_takesBackOnly number)

theorem feedAll_block_tidies (h : b.Logged log) (number : Height) (keys : List TransferKey) :
    Tidies b.block b.view (b.feedAll (.block number) keys).2
      (b.feedAll (.block number) keys).1.view := by
  induction keys generalizing b with
  | nil => exact tidies_of_quiet (fun _ _ => rfl)
  | cons key rest ih =>
      have hrest := ih (h.feed (closed_logged log) (.block number) key)
      rw [feed_block] at hrest
      exact (feed_block_tidies h number key).trans hrest

theorem removeLocks_tidies (now : Height) (h : v.Holds (fun id c => c.Logged log id))
    (locks : List NetworkView.SentLock) :
    Tidies now v (removeLocks v now locks).actions (removeLocks v now locks).view := by
  induction locks generalizing v with
  | nil => exact tidies_of_quiet (fun _ _ => rfl)
  | cons l rest ih =>
      refine (build_removal_tidies h l.channelId l.partner l.secretHash).trans (ih ?_)
      exact removeLocks_holds (closed_logged log) h now [l]

end Tidies

end Broker

/-! ### What is left over -/

namespace Channel

/-- No lock of ours in the channel expired, as long as it is open. -/
def Unexpired (now : Height) (c : Channel) : Prop :=
  c.isOpen = true → ∀ k l, c.ours.pendingLocks.get? k = some l → now < l.expiration

section Unexpired

variable {c c' : Channel} {now : Height}

theorem Unexpired.of_subset (h : c.Unexpired now) (hopen : c'.isOpen = true → c.isOpen = true)
    (hlocks : ∀ k l, c'.ours.pendingLocks.get? k = some l → c.ours.pendingLocks.get? k = some l) :
    c'.Unexpired now :=
  fun hopen' k l hl => h (hopen hopen') k l (hlocks k l hl)

/-- A lock that we send did not expire. -/
theorem Unexpired.sendTransfer (h : c.Unexpired now) {t : TransferTerms} {m : LockedTransfer}
    (hop : c.sendTransfer t now = .ok (m, c')) : c'.Unexpired now := by
  obtain ⟨-, -, hlater, -, -, rfl⟩ := Channel.sendTransfer_eq_ok_iff.mp hop
  intro hopen k l hl
  have hinserted : (c.ours.pendingLocks.insert t.secretHash t.lock).get? k = some l := hl
  by_cases hk : k = t.secretHash
  · rw [hk, SortedMap.get?_insert_self, Option.some.injEq] at hinserted
    rw [← hinserted]
    exact hlater
  · rw [SortedMap.get?_insert_of_ne hk] at hinserted
    exact h hopen k l hinserted

theorem Unexpired.sendUnlock (h : c.Unexpired now) {paymentId : PaymentId} {secret : Secret}
    {m : Unlock} (hop : c.sendUnlock paymentId secret = .ok (m, c')) : c'.Unexpired now := by
  unfold Channel.sendUnlock at hop
  rw [ite_error_eq_ok_iff] at hop
  obtain ⟨-, hop⟩ := hop
  dsimp only at hop
  split at hop
  · cases hop
  · split at hop
    · cases hop
    · cases hop
      exact h.of_subset (fun hopen => hopen) (fun _ _ hl => SortedMap.get?_of_get?_erase hl)

/-- What did not expire is not taken back. -/
theorem Unexpired.sendRemoval_ne_ok (h : c.Unexpired now) {secretHash : SecretHash}
    {r : LockRemoval × Channel} : c.sendRemoval secretHash now ≠ .ok r := by
  intro hop
  obtain ⟨m, c'⟩ := r
  obtain ⟨hopen, ⟨l, hl, hexpired⟩, -⟩ := sendRemoval_expired hop
  exact absurd (h hopen secretHash l hl) (Word.not_lt.mpr hexpired)

theorem Unexpired.accept (h : c.Unexpired now) (hs : c.partner.Sound) {m : ChannelMessage}
    {block : Height} (hop : c.accept m block = .ok c') : c'.Unexpired now := by
  obtain ⟨-, -, -, change, -, -, rfl⟩ := (accept_eq_ok_iff hs).mp hop
  exact h

/-- The ledger opens no channel again, and gives us no lock. -/
theorem Unexpired.applyEvent (h : c.Unexpired now) (e : ChainEvent) :
    (c.applyEvent e).Unexpired now := by
  refine h.of_subset isOpen_of_applyEvent (fun k l hl => ?_)
  have hl' : ((c.applyEvent e).endOf .ours).pendingLocks.get? k = some l := hl
  rcases applyEvent_endOf c e .ours with heq | ⟨change, -, he, heq⟩
  · rw [heq] at hl'
    exact hl'
  · rw [heq] at hl'
    rcases ChainEvent.endChange?_cases he with ⟨total, rfl⟩ | ⟨total, rfl⟩ | ⟨hash, rfl⟩
    · exact hl'
    · exact hl'
    · exact SortedMap.get?_of_get?_erase hl'

theorem unexpired_fresh (id : ChannelId) (tokenNetwork ourAddress partnerAddress : Address)
    (revealTimeout settleTimeout openedBlock : Height) :
    (fresh id tokenNetwork ourAddress partnerAddress revealTimeout settleTimeout
      openedBlock).Unexpired now := by
  intro _ k l hl
  have hempty : (SortedMap.empty : SortedMap SecretHash Lock).get? k = some l := hl
  rw [SortedMap.get?_empty] at hempty
  cases hempty

end Unexpired

end Channel

namespace Broker

section Sweep

variable {now : Height} {v : NetworkView} {log : List Offer} {b : Broker}

/-- The node finds every lock of ours that expired in an open channel. -/
theorem mem_expiredLocks {id : ChannelId} {c : Channel} {k : SecretHash} {l : Lock}
    (hc : v.channel? id = some c) (hlogged : c.Logged log id) (hopen : c.isOpen = true)
    (hl : c.ours.pendingLocks.get? k = some l) (hexpired : l.expiration ≤ now) :
    ⟨id, c.partner.address, k⟩ ∈ v.expiredLocks now := by
  have hkey : l.secretHash = k := (hlogged.sound .ours).keyed k l hl
  obtain ⟨tokenNetwork, hfind⟩ := NetworkView.find?_of_channel? hc
  have hstored := (NetworkView.find?_eq_some_iff.mp hfind).2
  -- The channel is in a network of the view, and the lock is in the channel.
  have hnetwork : v.network tokenNetwork ∈ v.networks.values := by
    unfold NetworkView.network at hstored ⊢
    cases hn : v.networks.get? tokenNetwork with
    | none =>
        rw [hn, Option.getD_none, TokenNetwork.fresh, SortedMap.get?_empty] at hstored
        cases hstored
    | some n => exact SortedMap.mem_values_of_get? hn
  have hin : (⟨id, c.partner.address, k⟩ : NetworkView.SentLock) ∈ NetworkView.expiredIn c now := by
    rw [NetworkView.expiredIn, if_pos hopen]
    refine List.mem_map.mpr ⟨l, List.mem_filter.mpr ⟨SortedMap.mem_values_of_get? hl, ?_⟩, ?_⟩
    · exact decide_eq_true hexpired
    · rw [hlogged.id_eq, hkey]
  rw [NetworkView.expiredLocks, sortOn, (sortBy_perm _ _).mem_iff]
  exact List.mem_flatMap.mpr ⟨_, hnetwork,
    List.mem_flatMap.mpr ⟨c, SortedMap.mem_values_of_get? hstored, hin⟩⟩

/-- A lock that is pending and expired is gone when it was asked for. -/
theorem build_removal_clears (h : v.Holds (fun id c => c.Logged log id)) {channelId : ChannelId}
    {partner : Address} {secretHash : SecretHash} {l : Lock} (hexpired : l.expiration ≤ now)
    (hpending : v.holding? channelId secretHash = some ⟨true, partner, some l⟩) :
    (build v channelId partner (·.sendRemoval secretHash now) .lockRemoval
      fun _ => []).view.holding? channelId secretHash = some ⟨true, partner, none⟩ := by
  obtain ⟨c, hc, hopen, hpartner, hl⟩ := NetworkView.holding?_eq_some_iff.mp hpending
  unfold build
  split
  · rename_i m view' hbuild
    obtain ⟨tokenNetwork, d, c', hfind, -, hop, rfl⟩ :=
      NetworkView.withPartnerChannel_eq_ok_iff.mp hbuild
    cases hc.symm.trans (NetworkView.channel?_of_find? hfind)
    obtain ⟨-, -, htakes⟩ := Channel.sendRemoval_takesBack ((h channelId c hc).sound .ours) hop
    have htaken := htakes secretHash
    rw [if_pos rfl, Channel.holding, hopen, hpartner, hl] at htaken
    dsimp only
    rw [NetworkView.holding?, NetworkView.channel?_putChannel_self hfind, Option.map_some]
    obtain ⟨partner', l', heq, -, -, hgone⟩ := htaken.of_told (List.cons_ne_nil _ _)
    cases heq
    exact hgone
  · rename_i e hbuild
    -- A channel does not refuse to take such a lock back.
    exact absurd (NetworkView.error_of_withPartnerChannel hc hpartner hbuild)
      (Channel.sendRemoval_ne_error hopen hl hexpired e)

/-- A lock that is looked for is not pending afterwards. -/
theorem removeLocks_clears (h : v.Holds (fun id c => c.Logged log id))
    {locks : List NetworkView.SentLock} {wanted : NetworkView.SentLock} (hmem : wanted ∈ locks)
    {l : Lock} (hexpired : l.expiration ≤ now) :
    (removeLocks v now locks).view.holding? wanted.channelId wanted.secretHash
      ≠ some ⟨true, wanted.partner, some l⟩ := by
  induction locks generalizing v with
  | nil => cases hmem
  | cons first rest ih =>
      have hrest := removeLocks_holds (closed_logged log) h now [first]
      rcases List.mem_cons.mp hmem with rfl | hlater
      · intro hpending
        -- Were it pending in the end, then also when its turn was over, and before.
        have hafter := (removeLocks_tidies now hrest rest _ _).of_pending hpending
        have hbefore := (removeLocks_tidies now h [wanted] _ _).of_pending hafter.1
        cases hafter.1.symm.trans (build_removal_clears h hexpired hbefore.1)
      · exact ih hrest hlater

/-- When the node looked through its channels, no expired lock is left. -/
theorem removeLocks_unexpired (h : v.Holds (fun id c => c.Logged log id)) :
    (removeLocks v now (v.expiredLocks now)).view.Holds (fun _ c => c.Unexpired now) := by
  intro id c' hc' hopen k l hl
  refine Word.not_le.mp (fun hexpired => ?_)
  have hpending := NetworkView.holding?_eq_some_iff.mpr ⟨c', hc', hopen, rfl, hl⟩
  -- A lock that is left was there before, so the node found it.
  have hbefore := (removeLocks_tidies now h _ id k).of_pending hpending
  obtain ⟨c, hc, hopen', hpartner, hl'⟩ := NetworkView.holding?_eq_some_iff.mp hbefore.1
  have hmem := mem_expiredLocks hc (h id c hc) hopen' hl' hexpired
  rw [hpartner] at hmem
  exact removeLocks_clears h hmem hexpired hpending

/-- A block takes expired locks back and does nothing else to our locks, and no expired lock
    is left. -/
theorem react_block (h : b.Logged log) {number : Height} (hnews : b.block < number)
    (order : List TransferKey) :
    Tidies number b.view (b.react (.block number order)).2 (b.after (.block number order)).view ∧
    (b.after (.block number order)).view.Holds (fun _ c => c.Unexpired number) := by
  have hblock : Logged log { b with block := number } := h.withView h.channels
  have hfed := hblock.feedAll (closed_logged log) (.block number) order
  have htidies := feedAll_block_tidies hblock number order
  rw [after, react, advanceInOrder, if_neg (Word.not_le.mpr hnews)]
  exact ⟨htidies.trans (removeLocks_tidies number hfed.channels _),
    removeLocks_unexpired hfed.channels⟩

end Sweep

/-! ### Between two blocks -/

section Still

variable {now : Height} {v : NetworkView} {log : List Offer} {b : Broker} {i : BrokerInput}

theorem perform_unexpired (h : v.Holds (fun _ c => c.Unexpired now)) (e : Effect) :
    (perform v now e).view.Holds (fun _ c => c.Unexpired now) ∧
    ∀ id k, removals id k (perform v now e).actions = [] := by
  cases e with
  | sendLockedTransfer => exact ⟨h, fun _ _ => rfl⟩
  | sendUnlock recipient channelId paymentId secret secretHash =>
      dsimp only [perform, build]
      split
      · rename_i m view' hbuild
        exact ⟨h.withPartnerChannel hbuild (fun c c' hc _ hop => hc.sendUnlock hop),
          fun _ _ => rfl⟩
      · refine ⟨h, fun id k => ?_⟩
        dsimp only
        exact noticeOf_removals _ _ id k
  | sendLockRemoval recipient channelId secretHash =>
      dsimp only [perform, build]
      split
      · -- A channel in which nothing expired refuses.
        rename_i m view' hbuild
        obtain ⟨tokenNetwork, c, c', hfind, -, hop, -⟩ :=
          NetworkView.withPartnerChannel_eq_ok_iff.mp hbuild
        have hc := h channelId c (NetworkView.channel?_of_find? hfind)
        exact absurd hop hc.sendRemoval_ne_ok
      · exact ⟨h, fun _ _ => rfl⟩
  | _ => exact ⟨h, perform_removals_of_quiet v now rfl⟩

/-- As long as nothing expired, no effect takes anything back. -/
theorem drain_unexpired (h : v.Holds (fun _ c => c.Unexpired now)) (t : Transfer)
    (effects : List Effect) :
    (drain v now t effects).2.view.Holds (fun _ c => c.Unexpired now) ∧
    ∀ id k, removals id k (drain v now t effects).2.actions = [] := by
  fun_induction drain v now t effects with
  | case1 view t => exact ⟨h, fun _ _ => rfl⟩
  | case2 view t recipient channelId terms rest m view' hsend t' o hdrain ih =>
      rw [hdrain] at ih
      exact ih (h.withPartnerChannel hsend (fun c c' hc _ hop => hc.sendTransfer hop))
  | case3 view t recipient channelId terms rest e hsend refusal ih => exact ih h
  | case4 view t effect rest hne done t' o hdrain ih =>
      rw [hdrain] at ih
      obtain ⟨hview, hactions⟩ := perform_unexpired h effect
      obtain ⟨hview', hactions'⟩ := ih hview
      refine ⟨hview', fun id k => ?_⟩
      rw [removals_append, hactions id k, hactions' id k, List.append_nil]

theorem settle_unexpired (h : b.view.Holds (fun _ c => c.Unexpired b.block)) (t : Transfer)
    (effects : List Effect) :
    (b.settle t effects).1.view.Holds (fun _ c => c.Unexpired b.block) ∧
    ∀ id k, removals id k (b.settle t effects).2 = [] := by
  have hdrain := drain_unexpired h t effects
  rw [settle, keep_view]
  exact hdrain

theorem feedAll_unexpired (h : b.view.Holds (fun _ c => c.Unexpired b.block)) (fact : Input)
    (keys : List TransferKey) :
    (b.feedAll fact keys).1.view.Holds (fun _ c => c.Unexpired b.block) ∧
    ∀ id k, removals id k (b.feedAll fact keys).2 = [] := by
  induction keys generalizing b with
  | nil => exact ⟨h, fun _ _ => rfl⟩
  | cons key rest ih =>
      have hfeed : (b.feed fact key).1.view.Holds (fun _ c => c.Unexpired b.block) ∧
          ∀ id k, removals id k (b.feed fact key).2 = [] := by
        unfold feed
        split
        · exact ⟨h, fun _ _ => rfl⟩
        · exact settle_unexpired h _ _
      rw [← feed_block b fact key] at hfeed
      obtain ⟨hview, hactions⟩ := ih hfeed.1
      rw [feed_block] at hview
      refine ⟨hview, fun id k => ?_⟩
      rw [feedAll_cons, removals_append, hfeed.2 id k, hactions id k, List.append_nil]

/-- Neither the ledger nor a peer gives us a lock. -/
theorem base_unexpired (hlogged : b.Logged log) (h : b.view.Holds (fun _ c => c.Unexpired now))
    (i : BrokerInput) : (b.reaction i).base.view.Holds (fun _ c => c.Unexpired now) := by
  rcases base_view_cases b i with heq | ⟨e, -, heq⟩ | ⟨m, tokenNetwork, c, c', haccepts, heq⟩
  · rw [heq]
    exact h
  · rw [heq]
    exact h.apply Channel.unexpired_fresh (fun _ _ hc => hc.applyEvent e)
  · rw [heq]
    have hc := NetworkView.channel?_of_find? haccepts.found
    exact h.putChannel haccepts.found
      ((h _ c hc).accept ((hlogged.channels _ c hc).sound .partner) haccepts.accepted)

/-- As long as the clock stands still, nothing expires and nothing is taken back. -/
theorem react_still (hlogged : b.Logged log) (h : b.view.Holds (fun _ c => c.Unexpired b.block))
    (hstill : (b.after i).block = b.block) :
    (b.after i).view.Holds (fun _ c => c.Unexpired b.block) ∧
    ∀ id k, removals id k (b.react i).2 = [] := by
  have hbase := base_unexpired hlogged h i
  rw [block_of_reaction] at hstill
  rw [← hstill] at hbase ⊢
  have hreact : (b.after i).view.Holds (fun _ c => c.Unexpired (b.reaction i).base.block) ∧
      ∀ id k, removals id k (b.reaction i).actions = [] := by
    rw [after_eq]
    cases hreaction : b.reaction i with
    | tell b' fact keys =>
        rw [hreaction] at hbase hstill
        have hfed := feedAll_unexpired (b := b') hbase fact keys
        have htold := tell_of_reaction hreaction
        cases fact with
        | block number =>
            -- A block that is told moves the clock.
            have hmoved := (htold.news number rfl).2
            rw [← hstill] at hmoved
            exact absurd hmoved (Word.not_lt.mpr (Nat.le_of_eq (congrArg Word.val
              (htold.block_eq number rfl))))
        | _ =>
            refine ⟨hfed.1, fun id k => ?_⟩
            rw [Reaction.actions, removals_append, hfed.2 id k]
            rfl
    | start b' t effects =>
        rw [hreaction] at hbase
        exact settle_unexpired hbase t effects
    | rest b' =>
        rw [hreaction] at hbase
        exact ⟨hbase, fun _ _ => rfl⟩
  obtain ⟨asides, hactions, hasides⟩ := b.react_actions i
  refine ⟨hreact.1, fun id k => ?_⟩
  rw [hactions, removals_append, removals_of_isAside hasides, hreact.2 id k, List.append_nil]

end Still

end Broker

end PaymentNetwork

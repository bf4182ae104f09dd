import PaymentNetwork.Proofs.Broker.Run
import PaymentNetwork.Proofs.Channel.Consistency
import PaymentNetwork.Proofs.Transfer.Pledge

/-!
# What a View Carries

A pledge of a transfer is carried if the lock is pending in the channel.

What a transfer takes for granted is about one channel, one of its locks, and only as long
as the channel is open. Everything that is done to the view goes through a channel, and an
operation of a channel concerns the lock on one hash. So it is enough to know of every
operation which hash that is. A locked transfer is refused if the hash is taken, so a new
lock is nobody's yet. An unlock and a removal take what is there. A removal is refused
before the lock expires, so it never takes a lock from somebody who still waits. The
partner only changes its own end, and the ledger takes locks from channels that it closed.

A pledge that is carried can be given up. The unlock of a pending lock in an open channel
fails only if the sum of all that was transferred does not fit, and the removal of one that
expired does not fail.

## Main definitions

* `Channel.KeepsLock`: Our lock on a hash, and its channel, are as before.
* `NetworkView.Carries`: The lock of a pledge is pending in its channel.
* `NetworkView.Sure`: An effect is not refused because of the lock that it gives up.

## Theorems

* `Channel.applyEvent_keepsLock`, `Channel.accept_keepsLock`: What the ledger and the
  partner do to our locks.
* `NetworkView.carries_of_sendTransfer`: A new lock is carried, and is nobody else's.
* `NetworkView.Carries.perform`, `NetworkView.Carries.removeLocks`,
  `NetworkView.Carries.accept`, `NetworkView.Carries.apply`: What leaves a pledge carried.
* `NetworkView.Carries.sure`: A pledge that is carried can be given up.
-/

namespace PaymentNetwork

/-! ### What an operation does to the locks of ours -/

namespace Channel

/-- A channel that is still open, and our lock on a hash in it, are as before. -/
structure KeepsLock (k : SecretHash) (c c' : Channel) : Prop where
  isOpen : c'.isOpen = true → c.isOpen = true
  partner : c'.partner.address = c.partner.address
  lock : c'.isOpen = true → c'.ours.pendingLocks.get? k = c.ours.pendingLocks.get? k

section KeepsLock

variable {c c' : Channel} {now : Height} {k : SecretHash}

theorem keepsLock_removeLock (c : Channel) {secretHash : SecretHash} (hk : k ≠ secretHash)
    (p : BalanceProof) :
    KeepsLock k c ((c.applyAt .ours (.removeLock secretHash)).applyAt .ours (.proof p)) :=
  ⟨fun hopen => hopen, rfl, fun _ => SortedMap.get?_erase_of_ne hk⟩

/-- A locked transfer is created for a lock on a new hash. -/
theorem sendTransfer_files {t : TransferTerms} {m : LockedTransfer}
    (h : c.sendTransfer t now = .ok (m, c')) :
    c.isOpen = true ∧ c.ours.pendingLocks.get? t.secretHash = none ∧
      c'.partner = c.partner ∧ c'.ours.pendingLocks.get? t.secretHash = some t.lock ∧
      ∀ k, k ≠ t.secretHash → KeepsLock k c c' := by
  obtain ⟨hopen, hnew, -, -, -, rfl⟩ := sendTransfer_eq_ok_iff.mp h
  -- The lock is filed under its hash, which leaves the other hashes alone.
  exact ⟨hopen, hnew, rfl, SortedMap.get?_insert_self .., fun k hk =>
    ⟨fun hopen => hopen, rfl, fun _ => SortedMap.get?_insert_of_ne hk⟩⟩

theorem sendUnlock_keepsLock {paymentId : PaymentId} {secret : Secret} {m : Unlock}
    (h : c.sendUnlock paymentId secret = .ok (m, c')) (hk : k ≠ hashSecret secret) :
    KeepsLock k c c' := by
  unfold sendUnlock at h
  rw [ite_error_eq_ok_iff] at h
  obtain ⟨-, h⟩ := h
  dsimp only at h
  split at h
  · cases h
  · split at h
    · cases h
    · cases h
      exact keepsLock_removeLock c hk _

/-- A removal is for a lock that expired. -/
theorem sendRemoval_expired {secretHash : SecretHash} {m : LockRemoval}
    (h : c.sendRemoval secretHash now = .ok (m, c')) :
    c.isOpen = true ∧
      (∃ l, c.ours.pendingLocks.get? secretHash = some l ∧ l.expiration ≤ now) ∧
      ∀ k, k ≠ secretHash → KeepsLock k c c' := by
  unfold sendRemoval at h
  rw [ite_error_eq_ok_iff] at h
  obtain ⟨hopen, h⟩ := h
  split at h
  · cases h
  · rename_i l hl
    rw [ite_error_eq_ok_iff] at h
    obtain ⟨hexpired, h⟩ := h
    cases h
    exact ⟨by simpa using hopen, ⟨l, hl, Word.not_lt.mp hexpired⟩,
      fun k hk => keepsLock_removeLock c hk _⟩

/-- The unlock of a pending lock fails in one way only. -/
theorem sendUnlock_error {paymentId : PaymentId} {secret : Secret} {l : Lock}
    (hopen : c.isOpen = true) (hl : c.ours.pendingLocks.get? (hashSecret secret) = some l)
    {e : ChannelError} (h : c.sendUnlock paymentId secret = .error e) : e = .amountOverflow := by
  unfold sendUnlock at h
  simp only [hopen, hl, Bool.not_true, Bool.false_eq_true, if_false] at h
  split at h
  · cases h
    rfl
  · cases h

/-- The removal of a pending lock that expired does not fail. -/
theorem sendRemoval_ne_error {secretHash : SecretHash} {l : Lock} (hopen : c.isOpen = true)
    (hl : c.ours.pendingLocks.get? secretHash = some l) (hexpired : l.expiration ≤ now)
    (e : ChannelError) : c.sendRemoval secretHash now ≠ .error e := by
  unfold sendRemoval
  simp only [hopen, hl, if_neg (Word.not_lt.mpr hexpired)]
  exact fun h => nomatch h

/-- What the partner does concerns its own end. -/
theorem accept_keepsLock {m : ChannelMessage} (hs : c.partner.Sound)
    (h : c.accept m now = .ok c') : KeepsLock k c c' := by
  obtain ⟨-, -, -, change, -, -, rfl⟩ := (accept_eq_ok_iff hs).mp h
  exact ⟨fun hopen => hopen, ChannelEnd.recommit_address .., fun _ => rfl⟩

/-- No event opens a channel again. -/
theorem isOpen_of_applyEvent {e : ChainEvent} (h : (c.applyEvent e).isOpen = true) :
    c.isOpen = true := by
  -- What concerns one end only leaves the status alone.
  have hfor : ∀ participant change, (c.applyFor participant change).isOpen = c.isOpen := by
    intro participant change
    rcases applyFor_cases c participant change with heq | ⟨s, -, heq⟩
    · rw [heq]
    · rw [heq]
      cases s with
      | _ => rfl
  unfold applyEvent at h
  by_cases hid : e.channelId? = some c.id
  · rw [if_pos hid] at h
    cases e with
    | channelNewDeposit => rwa [← hfor]
    | channelWithdrawn => rwa [← hfor]
    | channelUnlocked => rwa [← hfor]
    | channelClosed =>
        by_cases hopen : c.isOpen = true
        · exact hopen
        · dsimp only at h
          rwa [if_neg hopen] at h
    | channelSettled => cases of_decide_eq_true h
    | channelCooperativeSettled => cases of_decide_eq_true h
    | _ => exact h
  · rwa [if_neg hid] at h

/-- An event leaves our locks alone, unless it is the claim of one on the ledger. -/
theorem applyEvent_keepsLock {e : ChainEvent}
    (hsilent : c.isOpen = true → (ChannelInput.event e).isLedgerClaim = false) :
    KeepsLock k c (c.applyEvent e) := by
  refine ⟨isOpen_of_applyEvent, ?_, fun hopen => ?_⟩
  · rcases applyEvent_endOf c e .partner with heq | ⟨change, -, -, heq⟩
    · exact congrArg ChannelEnd.address heq
    · refine (congrArg ChannelEnd.address heq).trans ?_
      cases change with
      | _ => rfl
  · rcases applyEvent_endOf c e .ours with heq | ⟨change, -, he, heq⟩
    · exact congrArg (fun end' => end'.pendingLocks.get? k) heq
    · refine (congrArg (fun end' => end'.pendingLocks.get? k) heq).trans ?_
      -- Deposits and withdrawals leave the locks alone, and a claim is excluded.
      rcases ChainEvent.endChange?_cases he with ⟨total, rfl⟩ | ⟨total, rfl⟩ | ⟨hash, rfl⟩
      · rfl
      · rfl
      · have hclaim := ChannelInput.isLedgerClaim_of_endChange? he
        cases (hsilent (isOpen_of_applyEvent hopen)).symm.trans hclaim

end KeepsLock

end Channel

/-! ### What a view does to a pledge -/

namespace NetworkView

/-- The channel of a pledge is there. As long as it is open, it is one with the node of
    the pledge, and the lock is pending in it. -/
def Carries (v : NetworkView) (p : Pledge) : Prop :=
  ∃ c, v.channel? p.channelId = some c ∧
    (c.isOpen = true → c.partner.address = p.recipient ∧
      c.ours.pendingLocks.get? p.lock.secretHash = some p.lock)

section Carries

variable {v v' : NetworkView} {p q : Pledge} {channelId : ChannelId} {partner : Address}
  {now : Height}

/-- A channel that keeps the lock still carries it. -/
theorem Carries.of_keepsLock (h : v.Carries p) {c c' : Channel}
    (hc : v.channel? p.channelId = some c) (hc' : v'.channel? p.channelId = some c')
    (hkeeps : Channel.KeepsLock p.lock.secretHash c c') : v'.Carries p := by
  obtain ⟨d, hd, hcarried⟩ := h
  cases hd.symm.trans hc
  refine ⟨c', hc', fun hopen => ?_⟩
  rw [hkeeps.partner, hkeeps.lock hopen]
  exact hcarried (hkeeps.isOpen hopen)

theorem Carries.putChannel (h : v.Carries p) {tokenNetwork : Address} {c c' : Channel}
    (hfind : v.find? channelId = some (tokenNetwork, c))
    (hkeeps : p.channelId = channelId → Channel.KeepsLock p.lock.secretHash c c') :
    (v.putChannel tokenNetwork channelId c').Carries p := by
  rcases channel?_putChannel_cases hfind c' p.channelId with heq | ⟨hid, hc, heq⟩
  · obtain ⟨d, hd, hcarried⟩ := h
    exact ⟨d, heq.trans hd, hcarried⟩
  · exact h.of_keepsLock hc heq (hkeeps hid)

/-- A message that is built without touching the lock leaves it carried. -/
theorem Carries.build (h : v.Carries p) {α : Type}
    {operation : Channel → Except ChannelError (α × Channel)}
    (hkeeps : ∀ c c' a, v.channel? channelId = some c → operation c = .ok (a, c') →
      p.channelId = channelId → Channel.KeepsLock p.lock.secretHash c c')
    (message : α → Message) (complaint : ChannelError → List Action) :
    (Broker.build v channelId partner operation message complaint).view.Carries p := by
  unfold Broker.build
  split
  · rename_i m view' hbuild
    obtain ⟨tokenNetwork, c, c', hfind, -, hop, rfl⟩ := withPartnerChannel_eq_ok_iff.mp hbuild
    exact h.putChannel hfind (hkeeps c c' m (channel?_of_find? hfind) hop)
  · exact h

/-- A locked transfer that was sent is carried, and no other pledge is about its place. -/
theorem carries_of_sendTransfer {terms : TransferTerms} {m : LockedTransfer}
    (h : v.withPartnerChannel channelId partner (·.sendTransfer terms now) = .ok (m, v')) :
    v'.Carries ⟨partner, channelId, terms.lock⟩ ∧
    ∀ q, v.Carries q → v'.Carries q ∧ ¬ Pledge.Clashes ⟨partner, channelId, terms.lock⟩ q := by
  obtain ⟨tokenNetwork, c, c', hfind, hpartner, hop, rfl⟩ := withPartnerChannel_eq_ok_iff.mp h
  obtain ⟨hopen, hnew, hpartner', hfiled, hkeeps⟩ := Channel.sendTransfer_files hop
  refine ⟨⟨c', channel?_putChannel_self hfind, fun _ => ⟨?_, hfiled⟩⟩, fun q hq => ?_⟩
  · exact (congrArg ChannelEnd.address hpartner').trans hpartner
  · -- The channel refuses a second lock on a hash.
    have hapart : q.channelId = channelId → q.lock.secretHash ≠ terms.secretHash := by
      intro hid hhash
      obtain ⟨d, hd, hcarried⟩ := hq
      rw [hid, channel?_of_find? hfind] at hd
      cases hd
      have hpending := (hcarried hopen).2
      rw [hhash, hnew] at hpending
      cases hpending
    exact ⟨hq.putChannel hfind (fun hid => hkeeps _ (hapart hid)),
      fun hclash => hapart hclash.1.symm hclash.2.symm⟩

/-- An error of the channel is what comes of an operation on it. -/
theorem error_of_withPartnerChannel {α : Type} {c : Channel}
    {operation : Channel → Except ChannelError (α × Channel)} {e : ChannelError}
    (hc : v.channel? channelId = some c) (hpartner : c.partner.address = partner)
    (h : v.withPartnerChannel channelId partner operation = .error e) : operation c = .error e := by
  obtain ⟨tokenNetwork, hfind⟩ := find?_of_channel? hc
  cases hop : operation c with
  | error e' =>
      unfold withPartnerChannel withChannel at h
      simp only [hfind, hop, if_neg (not_not.mpr hpartner)] at h
      cases h
      rfl
  | ok result =>
      -- Had the operation succeeded, the channel would have been put back.
      have hok : v.withPartnerChannel channelId partner operation
          = .ok (result.1, v.putChannel tokenNetwork channelId result.2) :=
        withPartnerChannel_eq_ok_iff.mpr ⟨tokenNetwork, c, _, hfind, hpartner, hop, rfl⟩
      cases h.symm.trans hok

/-- In an open channel, the effect is not refused because of the lock that it gives up: no
    removal is, and an unlock only if a sum does not fit. -/
def Sure (v : NetworkView) (now : Height) : Effect → Prop
  | .sendUnlock recipient channelId paymentId secret _ =>
    ∀ c, v.channel? channelId = some c → c.isOpen = true → ∀ e,
      v.withPartnerChannel channelId recipient (·.sendUnlock paymentId secret) = .error e →
        e = .amountOverflow
  | .sendLockRemoval recipient channelId secretHash =>
    ∀ c, v.channel? channelId = some c → c.isOpen = true → ∀ e,
      v.withPartnerChannel channelId recipient (·.sendRemoval secretHash now) ≠ .error e
  | _ => True

theorem sure_of_isQuiet {e : Effect} (h : e.isQuiet = true) : v.Sure now e := by
  cases e with
  | sendUnlock => cases h
  | sendLockRemoval => cases h
  | _ => trivial

/-- Giving up a lock that is carried does not fail. -/
theorem Carries.sure (h : v.Carries p) {e : Effect} (hspends : e.Spends p now) :
    v.Sure now e := by
  obtain ⟨d, hd, hcarried⟩ := h
  cases e with
  | sendUnlock recipient channelId paymentId secret secretHash =>
      obtain ⟨rfl, rfl, hhash⟩ := hspends
      intro c hc hopen e he
      cases hd.symm.trans hc
      obtain ⟨hpartner, hpending⟩ := hcarried hopen
      rw [← hhash] at hpending
      exact Channel.sendUnlock_error hopen hpending (error_of_withPartnerChannel hc hpartner he)
  | sendLockRemoval recipient channelId secretHash =>
      obtain ⟨rfl, rfl, rfl, hexpired⟩ := hspends
      intro c hc hopen e he
      cases hd.symm.trans hc
      obtain ⟨hpartner, hpending⟩ := hcarried hopen
      exact Channel.sendRemoval_ne_error hopen hpending hexpired e
        (error_of_withPartnerChannel hc hpartner he)
  | _ => exact hspends.elim

/-- Giving up one lock does not concern the others. -/
theorem Carries.perform (h : v.Carries q) {e : Effect} (hspends : e.Spends p now)
    (hapart : ¬ p.Clashes q) : (Broker.perform v now e).view.Carries q := by
  cases e with
  | sendUnlock recipient channelId paymentId secret secretHash =>
      obtain ⟨rfl, rfl, hhash⟩ := hspends
      refine h.build (fun c c' m _ hop hid => Channel.sendUnlock_keepsLock hop (fun heq => ?_)) _ _
      exact hapart ⟨hid.symm, hhash.symm.trans heq.symm⟩
  | sendLockRemoval recipient channelId secretHash =>
      obtain ⟨rfl, rfl, rfl, -⟩ := hspends
      refine h.build (fun c c' m _ hop hid =>
        (Channel.sendRemoval_expired hop).2.2 _ (fun heq => ?_)) _ _
      exact hapart ⟨hid.symm, heq.symm⟩
  | _ => exact hspends.elim

/-- Taking back what expired does not concern a lock that did not. -/
theorem Carries.removeLocks (h : v.Carries p) (hlater : now < p.lock.expiration)
    (locks : List SentLock) : (Broker.removeLocks v now locks).view.Carries p := by
  induction locks generalizing v with
  | nil => exact h
  | cons l rest ih =>
      refine ih (h.build (fun c c' m hc hop hid => ?_) _ _)
      obtain ⟨hopen, ⟨lock, hlock, hexpired⟩, hkeeps⟩ := Channel.sendRemoval_expired hop
      refine hkeeps _ (fun hhash => ?_)
      -- Were it the lock of the pledge, then that expired.
      obtain ⟨d, hd, hcarried⟩ := h
      rw [hid, hc] at hd
      cases hd
      have hpending := (hcarried hopen).2
      rw [hhash, hlock] at hpending
      cases hpending
      exact absurd hlater (Word.not_lt.mpr hexpired)

/-- A message that its channel accepts leaves our locks alone. -/
theorem Carries.accept (h : v.Carries p) {tokenNetwork : Address} {m : ChannelMessage}
    {c c' : Channel} (hfind : v.find? channelId = some (tokenNetwork, c))
    (hs : c.partner.Sound) (haccept : c.accept m now = .ok c') :
    (v.putChannel tokenNetwork channelId c').Carries p :=
  h.putChannel hfind (fun _ => Channel.accept_keepsLock hs haccept)

/-- An event leaves what is carried alone, if it opens no channel again and claims no lock
    of an open one. -/
theorem Carries.apply (h : v.Carries p) {e : ChainEvent}
    (hnew : ∀ tokenNetwork participant1 participant2 settleTimeout block,
      e ≠ .channelOpened tokenNetwork p.channelId participant1 participant2 settleTimeout block)
    (hsilent : ∀ c, v.channel? p.channelId = some c → c.isOpen = true →
      e.channelId? = some p.channelId → (ChannelInput.event e).isLedgerClaim = false) :
    (v.apply e).Carries p := by
  by_cases hid : e.channelId? = some p.channelId
  · rcases channel?_apply_cases v e p.channelId with
      heq | ⟨c, hc, heq⟩ | ⟨_, _, _, _, _, _, he, -⟩
    · obtain ⟨d, hd, hcarried⟩ := h
      exact ⟨d, heq.trans hd, hcarried⟩
    · exact h.of_keepsLock hc heq
        (Channel.applyEvent_keepsLock (fun hopen => hsilent c hc hopen hid))
    · exact absurd he (hnew _ _ _ _ _)
  · obtain ⟨d, hd, hcarried⟩ := h
    exact ⟨d, (channel?_apply_of_ne hid).trans hd, hcarried⟩

end Carries

end NetworkView

end PaymentNetwork

import PaymentNetwork.Proofs.Channel.Synchrony

/-!
# Lost Messages

What the loss of messages does to one direction of a channel.

A node offers locks to its partner, and takes them back when they expired. On the way
a message may get lost, and the partner rejects whatever does not fit what it knows.
Nothing is sent twice. So the two drift apart, but only in the pending locks: the
amount transferred does not change, nonces only grow, and nobody touches the other end.

What the partner still has on file are the locks whose offer it accepted and whose
removal it did not. Once the sender has taken back all of its locks, its next balance
proof speaks of the new lock alone, and the partner expects the sum and the root of that
lock and of what it has on file. So the channel recovers from what was lost if nothing
is on file, and it does not if a removal was lost: every further offer is refused then.

## Main definitions

* `Lane`, `LaneMove`: One direction of a channel, and what happens on it.
* `Lane.Outstanding`: The receiver accepted the offer of a lock, and no message since
  that clears it.
* `Lane.Adrift`: How far the two views may be apart.
* `ChannelEnd.Unburdened`: An end expects of a new lock what an end without locks does.
* `Lane.RecoveryLaw`: When a channel recovers.

## Theorems

* `Lane.Adrift.create`, `Lane.Adrift.deliver`, `Lane.Adrift.lose`: No move drives the
  views further apart.
* `Lane.Adrift.accepted_iff`: When the next offer is accepted.
* `Lane.run_recoveryLaw`: The law for every run.
* `Lane.lostRemoval_refused`: One lost removal is enough for the next offer to be refused.
-/

namespace PaymentNetwork

namespace ChannelMessage

/-- The lock that the message offers. -/
def offers? : ChannelMessage → Option Lock
  | transfer m => some m.lock
  | _ => none

/-- The hash of the lock that the message clears. -/
def clears? : ChannelMessage → Option SecretHash
  | transfer _ => none
  | unlock m => some (hashSecret m.secret)
  | removal m => some m.secretHash

end ChannelMessage

/-- One direction of a channel: the views of the node that sends and of the one that
    receives, the messages on their way, oldest first, those that were accepted, and the
    number of all that were created. -/
structure Lane where
  sender : Channel
  receiver : Channel
  parcels : List ChannelMessage
  heard : List ChannelMessage
  created : Nat

/-- Something that happens on a lane. -/
inductive LaneMove where
  /-- The sender offers a lock. -/
  | offer (terms : TransferTerms) (now : Height)
  /-- The sender takes back a lock that expired. -/
  | takeBack (secretHash : SecretHash) (now : Height)
  /-- The oldest message arrives. -/
  | deliver (now : Height)
  /-- The oldest message is lost. -/
  | lose

namespace Lane

/-- The direction of a link from us to the partner. -/
def ofLink (l : Link) : Lane := ⟨(l .ours).channel, (l .partner).channel, [], [], 0⟩

/-- The lane after a message was asked for. -/
def create (l : Lane) (r : ChannelRequest) : Lane :=
  match l.sender.create r with
  | .ok (m, c) =>
    { l with sender := c, parcels := l.parcels ++ [m], created := l.created + 1 }
  | .error _ => l

/-- The lane after the oldest message arrived. A message that is refused is lost. -/
def deliver (l : Lane) (now : Height) : Lane :=
  match l.parcels with
  | [] => l
  | m :: rest =>
    match l.receiver.accept m now with
    | .ok c => { l with receiver := c, parcels := rest, heard := l.heard ++ [m] }
    | .error _ => { l with parcels := rest }

/-- The lane after a move. -/
def step (l : Lane) : LaneMove → Lane
  | .offer terms now => l.create (.transfer terms now)
  | .takeBack secretHash now => l.create (.removal secretHash now)
  | .deliver now => l.deliver now
  | .lose => { l with parcels := l.parcels.tail }

/-- The lane after some moves. -/
def run (l : Lane) (moves : List LaneMove) : Lane := moves.foldl step l

/-! ### What the receiver has on file -/

/-- The receiver accepted the offer of the lock, and no message since that clears it. -/
def Outstanding (heard : List ChannelMessage) (lock : Lock) : Prop :=
  ∃ before m since, heard = before ++ m :: since ∧ m.offers? = some lock ∧
    ∀ m' ∈ since, m'.clears? ≠ some lock.secretHash

theorem not_outstanding_nil (lock : Lock) : ¬ Outstanding [] lock := by
  rintro ⟨before, m, since, heq, -⟩
  exact absurd heq (List.append_ne_nil_of_right_ne_nil before (List.cons_ne_nil m since)).symm

/-- The last message decides, or leaves what was decided before. -/
theorem outstanding_concat {heard : List ChannelMessage} {m : ChannelMessage} {lock : Lock} :
    Outstanding (heard ++ [m]) lock ↔
      m.offers? = some lock ∨ (Outstanding heard lock ∧ m.clears? ≠ some lock.secretHash) := by
  constructor
  · rintro ⟨before, offer, since, heq, hoffer, hsince⟩
    -- Either the offer came last, or something came after it that does not clear it.
    rcases List.eq_nil_or_concat since with rfl | ⟨since', last, rfl⟩
    · obtain ⟨-, hlast⟩ := List.append_inj' heq rfl
      cases hlast
      exact Or.inl hoffer
    · rw [List.concat_eq_append] at heq hsince
      rw [← List.cons_append, ← List.append_assoc] at heq
      obtain ⟨hinit, hlast⟩ := List.append_inj' heq rfl
      cases hlast
      refine Or.inr ⟨⟨before, offer, since', hinit, hoffer, fun m' hm' => ?_⟩, ?_⟩
      · exact hsince m' (List.mem_append_left _ hm')
      · exact hsince m (List.mem_append_right _ (List.mem_singleton_self m))
  · rintro (hoffer | ⟨⟨before, offer, since, rfl, hoffer, hsince⟩, hclears⟩)
    · exact ⟨heard, m, [], rfl, hoffer, fun _ hm' => nomatch hm'⟩
    · refine ⟨before, offer, since ++ [m], List.append_assoc .., hoffer, fun m' hm' => ?_⟩
      rcases List.mem_append.mp hm' with hm' | hm'
      · exact hsince m' hm'
      · rw [List.mem_singleton.mp hm']
        exact hclears

/-- What an accepted message does to the locks on file is what it says. -/
theorem get?_recommit_iff {e other : ChannelEnd} {id : ChannelId} {tokenNetwork : Address}
    {m : ChannelMessage} {change : LockChange} {p : BalanceProof} (hshows : m.Shows change)
    (h : e.Recommits id tokenNetwork other change p) (lock : Lock) :
    (e.recommit change p).pendingLocks.get? lock.secretHash = some lock ↔
      m.offers? = some lock ∨
        (e.pendingLocks.get? lock.secretHash = some lock ∧ m.clears? ≠ some lock.secretHash) := by
  have hallowed := h.allowed
  -- Whatever clears a lock removes what is filed under its hash.
  have hremoved : ∀ l : Lock, m.offers? = none → m.clears? = some l.secretHash →
      ((e.pendingLocks.erase l.secretHash).get? lock.secretHash = some lock ↔
        m.offers? = some lock ∨
          (e.pendingLocks.get? lock.secretHash = some lock ∧
            m.clears? ≠ some lock.secretHash)) := by
    intro l hoffers hclears
    rw [hoffers, hclears]
    by_cases hkey : lock.secretHash = l.secretHash
    · rw [hkey, SortedMap.get?_erase_self]
      simp
    · rw [SortedMap.get?_erase_of_ne hkey]
      simp [Ne.symm hkey]
  cases change with
  | added l =>
      cases m with
      | transfer m =>
          have hlock : m.lock = l := hshows
          change (e.pendingLocks.insert l.secretHash l).get? lock.secretHash = some lock ↔ _
          rw [ChannelMessage.offers?, ChannelMessage.clears?, hlock]
          by_cases hkey : lock.secretHash = l.secretHash
          · rw [hkey, SortedMap.get?_insert_self, hallowed.1]
            simp
          · have hne : l ≠ lock := fun heq => hkey (congrArg Lock.secretHash heq.symm)
            rw [SortedMap.get?_insert_of_ne hkey]
            simp [hne]
      | unlock m => exact hshows.elim
      | removal m => exact hshows.elim
  | claimed l =>
      cases m with
      | unlock m => exact hremoved l rfl (congrArg some hshows)
      | transfer m => exact hshows.elim
      | removal m => exact hshows.elim
  | removed l =>
      cases m with
      | removal m => exact hremoved l rfl (congrArg some hshows)
      | transfer m => exact hshows.elim
      | unlock m => exact hshows.elim

/-! ### How far the views drift apart -/

/-- The two views of a lane whose messages may be lost: they agree on everything but the
    pending locks and the nonce of the sender, and the nonce only grows. -/
structure Adrift (l : Lane) : Prop where
  senderOpen : l.sender.isOpen = true
  receiverOpen : l.receiver.isOpen = true
  senderSound : l.sender.Sound
  receiverSound : l.receiver.Sound
  id_eq : l.receiver.id = l.sender.id
  tokenNetwork_eq : l.receiver.tokenNetwork = l.sender.tokenNetwork
  ours_eq : l.receiver.ours = l.sender.partner
  address_eq : l.receiver.partner.address = l.sender.ours.address
  contractBalance_eq : l.receiver.partner.contractBalance = l.sender.ours.contractBalance
  withdrawn_eq : l.receiver.partner.withdrawn = l.sender.ours.withdrawn
  transferred_eq : l.receiver.partner.transferredAmount = l.sender.ours.transferredAmount
  counted : l.sender.ours.nonce.val = l.created
  nonce_le : l.receiver.partner.nonce ≤ l.sender.ours.nonce
  parcels : ∀ m ∈ l.parcels,
    m.balanceProof.transferredAmount = l.sender.ours.transferredAmount ∧
      m.balanceProof.nonce ≤ l.sender.ours.nonce
  filed : ∀ lock, l.receiver.partner.pendingLocks.get? lock.secretHash = some lock ↔
    Outstanding l.heard lock

section Adrift

variable {l : Lane}

/-- The next nonce is larger than all that the receiver ever saw, if it does not wrap. -/
theorem Adrift.nonce_succ (h : l.Adrift) (hcount : l.created + 1 < 2 ^ 64) :
    l.sender.ours.nonce.succWrap.val = l.created + 1 := by
  rw [Word.val_succWrap, h.counted, Nat.mod_eq_of_lt hcount]

/-- A message that transfers nothing leaves the views where they are. -/
theorem Adrift.create (h : l.Adrift) {r : ChannelRequest}
    (hr : ∀ change, r.Shows change → change.claimedAmount = 0)
    (hcount : (l.create r).created < 2 ^ 64) : (l.create r).Adrift := by
  cases hc : l.sender.create r with
  | error err =>
      have heq : l.create r = l := by rw [Lane.create, hc]
      rw [heq]
      exact h
  | ok x =>
      obtain ⟨m, c⟩ := x
      have heq : l.create r = { l with
          sender := c, parcels := l.parcels ++ [m], created := l.created + 1 } := by
        rw [Lane.create, hc]
      rw [heq] at hcount ⊢
      have hsound := h.senderSound.create hc
      obtain ⟨-, hnonce, change, hasks, -, hrecommits, rfl⟩ :=
        Channel.create_spec (h.senderSound .ours) hc
      -- The nonce counts the messages, so it grows as long as it does not wrap.
      have hnext : m.balanceProof.nonce.val = l.created + 1 := by
        rw [hnonce, h.nonce_succ hcount]
      have hgrows : l.sender.ours.nonce ≤ m.balanceProof.nonce := by
        rw [Word.le_iff, hnext, h.counted]
        exact Nat.le_succ _
      have hsame : m.balanceProof.transferredAmount = l.sender.ours.transferredAmount := by
        rw [Word.ext_iff, hrecommits.transferred, hr change hasks, Nat.add_zero]
      exact
        { senderOpen := h.senderOpen
          receiverOpen := h.receiverOpen
          senderSound := hsound
          receiverSound := h.receiverSound
          id_eq := h.id_eq
          tokenNetwork_eq := h.tokenNetwork_eq
          ours_eq := h.ours_eq
          address_eq := h.address_eq.trans ChannelEnd.recommit_address.symm
          contractBalance_eq :=
            h.contractBalance_eq.trans ChannelEnd.recommit_contractBalance.symm
          withdrawn_eq := h.withdrawn_eq.trans ChannelEnd.recommit_withdrawn.symm
          transferred_eq := h.transferred_eq.trans hsame.symm
          counted := hnext
          nonce_le := Nat.le_trans h.nonce_le hgrows
          parcels := by
            intro m' hm'
            rcases List.mem_append.mp hm' with hm' | hm'
            · obtain ⟨htransferred, hle⟩ := h.parcels m' hm'
              exact ⟨htransferred.trans hsame.symm, Nat.le_trans hle hgrows⟩
            · rw [List.mem_singleton.mp hm']
              exact ⟨rfl, Nat.le_refl _⟩
          filed := h.filed }

/-- A message less on its way. -/
theorem Adrift.lose (h : l.Adrift) {rest : List ChannelMessage}
    (hrest : ∀ m ∈ rest, m ∈ l.parcels) : Adrift { l with parcels := rest } :=
  { h with parcels := fun m hm => h.parcels m (hrest m hm) }

/-- A message that arrives is accepted and moves the receiver, or it is lost. -/
theorem Adrift.deliver (h : l.Adrift) (now : Height) : (l.deliver now).Adrift := by
  unfold Lane.deliver
  split
  · exact h
  · rename_i m rest hparcels
    have hm : m ∈ l.parcels := by
      rw [hparcels]
      exact List.mem_cons_self
    have hrest : ∀ m' ∈ rest, m' ∈ l.parcels := by
      intro m' hm'
      rw [hparcels]
      exact List.mem_cons_of_mem m hm'
    split
    · rename_i c haccept
      -- The message says what the sender transferred, which did not change since.
      have hsound := h.receiverSound.accept haccept
      obtain ⟨-, -, -, change, hshows, hrecommits, rfl⟩ :=
        (Channel.accept_eq_ok_iff (h.receiverSound .partner)).mp haccept
      obtain ⟨htransferred, hle⟩ := h.parcels m hm
      exact
        { h.lose hrest with
          receiverOpen := h.receiverOpen
          receiverSound := hsound
          id_eq := h.id_eq
          tokenNetwork_eq := h.tokenNetwork_eq
          ours_eq := h.ours_eq
          address_eq := ChannelEnd.recommit_address.trans h.address_eq
          contractBalance_eq :=
            ChannelEnd.recommit_contractBalance.trans h.contractBalance_eq
          withdrawn_eq := ChannelEnd.recommit_withdrawn.trans h.withdrawn_eq
          transferred_eq := htransferred
          nonce_le := hle
          filed := by
            intro lock
            refine (get?_recommit_iff hshows hrecommits lock).trans ?_
            rw [outstanding_concat, h.filed lock] }
    · exact h.lose hrest

end Adrift

/-! ### The next offer -/

end Lane

namespace ChannelEnd

/-- The end expects of the balance proof of a new lock what an end without locks would. -/
structure Unburdened (e : ChannelEnd) (lock : Lock) : Prop where
  new : e.pendingLocks.get? lock.secretHash = none
  total : e.pendingTotal = 0
  root : PaymentNetwork.locksroot (e.pendingLocks.insert lock.secretHash lock).values
    = PaymentNetwork.locksroot [lock]

theorem unburdened_of_empty {e : ChannelEnd} (h : e.pendingLocks = .empty) (lock : Lock) :
    e.Unburdened lock := by
  refine ⟨?_, ?_, ?_⟩
  · rw [h, SortedMap.get?_empty]
  · rw [pendingTotal, h]
    rfl
  · rw [h]
    rfl

end ChannelEnd

namespace Lane

section Next

variable {l : Lane} {terms : TransferTerms} {now later : Height} {m : LockedTransfer}
  {c : Channel}

/-- The next offer of a sender without locks is accepted exactly if the receiver expects
    what it would expect of an end without locks. -/
theorem Adrift.accepted_iff (h : l.Adrift) (hcount : l.created + 1 < 2 ^ 64)
    (hempty : l.sender.ours.pendingLocks = .empty)
    (hsend : l.sender.sendTransfer terms now = .ok (m, c)) (hlater : later < m.lock.expiration) :
    (∃ d, l.receiver.receiveTransfer m later = .ok d) ↔ l.receiver.partner.Unburdened m.lock := by
  have hsender : l.sender.ours.Sound := h.senderSound .ours
  have hreceiver : l.receiver.partner.Sound := h.receiverSound .partner
  obtain ⟨-, hnonce, hlock, hsent, rfl⟩ := Channel.sendTransfer_spec hsender hsend
  rw [← hlock] at hsent
  have hroom := hsent.allowed.2
  -- The balance proof of the sender speaks of the new lock alone.
  have hlocked : m.balanceProof.lockedAmount.val = m.lock.amount.val := by
    rw [hsent.locked, ChannelEnd.recommit_pendingTotal, LockChange.toEndChange,
      ChannelEnd.pendingTotal_insertLock hsent.allowed.1, ChannelEnd.pendingTotal, hempty]
    rfl
  have hroot : m.balanceProof.locksroot = PaymentNetwork.locksroot [m.lock] := by
    rw [hsent.root]
    change PaymentNetwork.locksroot
      (l.sender.ours.pendingLocks.insert m.lock.secretHash m.lock).values = _
    rw [hempty]
    rfl
  simp only [Channel.receiveTransfer_eq_ok_iff hreceiver]
  constructor
  · -- What the receiver checks of the locked amount and the locksroot is what is asked for.
    rintro ⟨d, -, -, -, hrecommits, -⟩
    refine ⟨hrecommits.allowed.1, ?_, ?_⟩
    · have htotal := hrecommits.locked
      rw [hlocked, ChannelEnd.recommit_pendingTotal, LockChange.toEndChange,
        ChannelEnd.pendingTotal_insertLock hrecommits.allowed.1] at htotal
      omega
    · exact hrecommits.root.symm.trans hroot
  · intro hburden
    refine ⟨_, h.receiverOpen, hlater, ?_, ?_, rfl⟩
    · have hle := h.nonce_le
      rw [Word.le_iff, h.counted] at hle
      rw [Word.lt_iff, hnonce, h.nonce_succ hcount]
      omega
    · refine ⟨⟨hburden.new, ?_⟩, ?_, ?_, ?_, ?_, ?_⟩
      · -- Without locks that count, the receiver leaves the sender as much room as it has.
        have hsenderTotal : l.sender.ours.lockedAmount = l.receiver.partner.lockedAmount := by
          rw [Word.ext_iff, hsender.val_lockedAmount, hreceiver.val_lockedAmount,
            hburden.total, ChannelEnd.pendingTotal, hempty]
          rfl
        have hsame : ChannelEnd.distributable l.receiver.partner l.receiver.ours
            = ChannelEnd.distributable l.sender.ours l.sender.partner := by
          rw [ChannelEnd.distributable, ChannelEnd.distributable, ChannelEnd.balance,
            ChannelEnd.balance, h.ours_eq, h.contractBalance_eq, h.withdrawn_eq,
            h.transferred_eq, hsenderTotal]
        rw [hsame]
        exact hroom
      · rw [h.id_eq]
        exact hsent.channelId_eq
      · rw [h.tokenNetwork_eq]
        exact hsent.tokenNetwork_eq
      · rw [h.transferred_eq]
        exact hsent.transferred
      · rw [hlocked, ChannelEnd.recommit_pendingTotal, LockChange.toEndChange,
          ChannelEnd.pendingTotal_insertLock hburden.new, hburden.total, Nat.add_zero]
      · exact hroot.trans hburden.root.symm

/-- With nothing outstanding the receiver has nothing on file. -/
theorem Adrift.empty_of_cleared (h : l.Adrift) (hclear : ∀ lock, ¬ Outstanding l.heard lock) :
    l.receiver.partner.pendingLocks = .empty := by
  refine SortedMap.ext (List.eq_nil_iff_forall_not_mem.mpr ?_)
  rintro ⟨k, lock⟩ hmem
  have hget := SortedMap.get?_eq_some_iff.mpr hmem
  have hkey := (h.receiverSound .partner).keyed k lock hget
  rw [← hkey] at hget
  exact hclear lock ((h.filed lock).mp hget)

/-- A lock on file that has an amount burdens the receiver. -/
theorem Adrift.not_unburdened (h : l.Adrift) {old lock : Lock} (hold : Outstanding l.heard old)
    (hpos : 0 < old.amount.val) : ¬ l.receiver.partner.Unburdened lock := by
  intro hburden
  have htotal := ChannelEnd.pendingTotal_removeLock ((h.filed old).mpr hold)
  rw [hburden.total] at htotal
  omega

/-- The two ends agree again after the offer was accepted. -/
theorem Adrift.recovered (h : l.Adrift) (hempty : l.sender.ours.pendingLocks = .empty)
    (hclear : l.receiver.partner.pendingLocks = .empty)
    (hsend : l.sender.sendTransfer terms now = .ok (m, c)) {d : Channel}
    (hd : l.receiver.receiveTransfer m later = .ok d) : d.partner = c.ours := by
  obtain ⟨-, -, hlock, -, rfl⟩ := Channel.sendTransfer_spec (h.senderSound .ours) hsend
  obtain ⟨-, -, -, -, rfl⟩ := (Channel.receiveTransfer_eq_ok_iff (h.receiverSound .partner)).mp hd
  change l.receiver.partner.recommit (.added m.lock) m.balanceProof
    = l.sender.ours.recommit (.added terms.lock) m.balanceProof
  unfold ChannelEnd.recommit LockChange.toEndChange ChannelEnd.apply
  dsimp only
  rw [h.address_eq, h.contractBalance_eq, h.withdrawn_eq, hclear, hempty, hlock]

end Next

/-! ### Any run -/

/-- When a channel recovers from lost messages. The receiver has on file what is
    outstanding. Once the sender has no locks left, its next offer, if it arrives before
    the lock expires, is accepted exactly if what is on file does not count. So it is
    accepted, and the two ends agree again, if nothing is outstanding, and it is refused
    if a lock with an amount is. -/
structure RecoveryLaw (l : Lane) : Prop where
  filed : ∀ lock, l.receiver.partner.pendingLocks.get? lock.secretHash = some lock ↔
    Outstanding l.heard lock
  accepted_iff : ∀ terms now m c later, l.sender.ours.pendingLocks = .empty →
    l.sender.sendTransfer terms now = .ok (m, c) → later < m.lock.expiration →
    ((∃ d, l.receiver.receiveTransfer m later = .ok d) ↔
      l.receiver.partner.Unburdened m.lock)
  recovers : ∀ terms now m c later, l.sender.ours.pendingLocks = .empty →
    l.sender.sendTransfer terms now = .ok (m, c) → later < m.lock.expiration →
    (∀ lock, ¬ Outstanding l.heard lock) →
    ∃ d, l.receiver.receiveTransfer m later = .ok d ∧ d.partner = c.ours
  refused : ∀ terms now m c later old, l.sender.ours.pendingLocks = .empty →
    l.sender.sendTransfer terms now = .ok (m, c) → later < m.lock.expiration →
    Outstanding l.heard old → 0 < old.amount.val →
    ∀ d, l.receiver.receiveTransfer m later ≠ .ok d

theorem Adrift.recoveryLaw {l : Lane} (h : l.Adrift) (hcount : l.created + 1 < 2 ^ 64) :
    l.RecoveryLaw where
  filed := h.filed
  accepted_iff terms now m c later hempty hsend hlater :=
    h.accepted_iff hcount hempty hsend hlater
  recovers terms now m c later hempty hsend hlater hclear := by
    have hfile := h.empty_of_cleared hclear
    obtain ⟨d, hd⟩ := (h.accepted_iff hcount hempty hsend hlater).mpr
      (ChannelEnd.unburdened_of_empty hfile m.lock)
    exact ⟨d, hd, h.recovered hempty hfile hsend hd⟩
  refused terms now m c later old hempty hsend hlater hold hpos d hd :=
    h.not_unburdened hold hpos ((h.accepted_iff hcount hempty hsend hlater).mp ⟨d, hd⟩)

theorem created_step_le (l : Lane) (move : LaneMove) : l.created ≤ (l.step move).created := by
  have hcreate : ∀ r, l.created ≤ (l.create r).created := by
    intro r
    unfold Lane.create
    split
    · exact Nat.le_succ _
    · exact Nat.le_refl _
  cases move with
  | offer terms now => exact hcreate _
  | takeBack secretHash now => exact hcreate _
  | deliver now =>
      refine Nat.le_of_eq ?_
      change l.created = (l.deliver now).created
      unfold Lane.deliver
      split
      · rfl
      · split
        · rfl
        · rfl
  | lose => exact Nat.le_refl _

theorem created_run_le (l : Lane) (moves : List LaneMove) : l.created ≤ (l.run moves).created := by
  induction moves generalizing l with
  | nil => exact Nat.le_refl _
  | cons move rest ih => exact Nat.le_trans (created_step_le l move) (ih (l.step move))

theorem Adrift.step {l : Lane} (h : l.Adrift) (move : LaneMove)
    (hcount : (l.step move).created < 2 ^ 64) : (l.step move).Adrift := by
  cases move with
  | offer terms now =>
      refine h.create (fun change hasks => ?_) hcount
      cases change with
      | added => rfl
      | claimed => exact hasks.elim
      | removed => exact hasks.elim
  | takeBack secretHash now =>
      refine h.create (fun change hasks => ?_) hcount
      cases change with
      | added => exact hasks.elim
      | claimed => exact hasks.elim
      | removed => rfl
  | deliver now => exact h.deliver now
  | lose => exact h.lose (fun m hm => List.mem_of_mem_tail hm)

theorem run_adrift {l : Lane} (h : l.Adrift) {moves : List LaneMove}
    (hcount : (l.run moves).created < 2 ^ 64) : (l.run moves).Adrift := by
  induction moves generalizing l with
  | nil => exact h
  | cons move rest ih =>
      -- The count never falls, so the bound at the end is one at every step.
      have hfirst : (l.step move).created < 2 ^ 64 :=
        Nat.lt_of_le_of_lt (created_run_le (l.step move) rest) hcount
      exact ih (h.step move hfirst) hcount

section Opened

variable {id : ChannelId} {tokenNetwork : Address} {address : Side → Address}
  {revealTimeout settleTimeout openedBlock : Side → Height} {deposits : Side → List ChainEvent}

/-- Two views of a new channel that were told the same deposits of each end. -/
theorem opened_adrift (hdeposits : ∀ s, ∀ e ∈ deposits s, e.isDeposit = true)
    (hsame : ∀ s,
      (Link.opened id tokenNetwork address revealTimeout settleTimeout openedBlock deposits
        s.other).channel.partner.contractBalance
      = (Link.opened id tokenNetwork address revealTimeout settleTimeout openedBlock deposits
        s).channel.ours.contractBalance) :
    (ofLink (Link.opened id tokenNetwork address revealTimeout settleTimeout openedBlock
      deposits)).Adrift := by
  have hours := hsame .ours
  have hpartner := hsame .partner
  obtain ⟨a, b, hs⟩ := Channel.foldl_applyEvent_of_isDeposit (Channel.fresh id tokenNetwork
    (address .ours) (address .partner) (revealTimeout .ours) (settleTimeout .ours)
    (openedBlock .ours)) (hdeposits .ours)
  obtain ⟨a', b', hr⟩ := Channel.foldl_applyEvent_of_isDeposit (Channel.fresh id tokenNetwork
    (address .partner) (address .ours) (revealTimeout .partner) (settleTimeout .partner)
    (openedBlock .partner)) (hdeposits .partner)
  -- Deposits touch nothing else, so all but the balances is as in a fresh channel.
  simp only [Link.opened, Side.other, hs, hr] at hours hpartner
  have hcontract : b' = a := hours
  have hcontract' : b = a' := hpartner
  subst hcontract hcontract'
  simp only [ofLink, Link.opened, Side.other, hs, hr]
  exact
    { senderOpen := rfl
      receiverOpen := rfl
      senderSound := by
        intro s
        cases s with
        | ours => exact (ChannelEnd.sound_fresh (address .ours)).congr rfl
        | partner => exact (ChannelEnd.sound_fresh (address .partner)).congr rfl
      receiverSound := by
        intro s
        cases s with
        | ours => exact (ChannelEnd.sound_fresh (address .partner)).congr rfl
        | partner => exact (ChannelEnd.sound_fresh (address .ours)).congr rfl
      id_eq := rfl
      tokenNetwork_eq := rfl
      ours_eq := rfl
      address_eq := rfl
      contractBalance_eq := rfl
      withdrawn_eq := rfl
      transferred_eq := rfl
      counted := rfl
      nonce_le := Nat.le_refl _
      parcels := fun _ hm => absurd hm List.not_mem_nil
      filed := by
        intro lock
        refine iff_of_false (fun hget => ?_) (not_outstanding_nil lock)
        cases hget }

/-- Whatever is lost of one direction of a new channel, it recovers as the law says. -/
theorem run_recoveryLaw {moves : List LaneMove}
    (hdeposits : ∀ s, ∀ e ∈ deposits s, e.isDeposit = true)
    (hsame : ∀ s,
      (Link.opened id tokenNetwork address revealTimeout settleTimeout openedBlock deposits
        s.other).channel.partner.contractBalance
      = (Link.opened id tokenNetwork address revealTimeout settleTimeout openedBlock deposits
        s).channel.ours.contractBalance)
    (hcount : ((ofLink (Link.opened id tokenNetwork address revealTimeout settleTimeout
      openedBlock deposits)).run moves).created + 1 < 2 ^ 64) :
    ((ofLink (Link.opened id tokenNetwork address revealTimeout settleTimeout openedBlock
      deposits)).run moves).RecoveryLaw :=
  (run_adrift (opened_adrift hdeposits hsame) (Nat.lt_of_succ_lt hcount)).recoveryLaw hcount

end Opened

/-! ### A lost removal -/

deriving instance DecidableEq for Except

/-- The terms of a lock of ours for the partner. -/
def offerOf (paymentId : PaymentId) (amount : Amount) (expiration : Height)
    (secretHash : SecretHash) : TransferTerms :=
  ⟨paymentId, FixedBytes.replicate 20 8, amount, FixedBytes.replicate 20 1,
    FixedBytes.replicate 20 2, expiration, secretHash, none⟩

/-- The first lock, and another. -/
def first : TransferTerms := offerOf 1 4 20 (FixedBytes.replicate 32 7)

def second : TransferTerms := offerOf 2 3 40 (FixedBytes.replicate 32 6)

/-- The first lock arrives and is accepted. It expires and is taken back, but the removal
    gets lost. -/
def lostRemoval : List LaneMove :=
  [.offer first 10, .deliver 11, .takeBack first.secretHash 20, .lose]

/-- The next offer. -/
def secondOffer : LockedTransfer :=
  ⟨2, second.initiator, second.target, FixedBytes.replicate 20 1, FixedBytes.replicate 20 2,
    second.lock, ⟨second.tokenNetwork, FixedBytes.replicate 32 9, 3, 0, 3, locksroot [second.lock]⟩⟩

/-- The sender has no locks left. Its next offer arrives in time, and is refused. -/
theorem lostRemoval_refused :
    let l := (ofLink Link.crossingLink).run lostRemoval
    l.sender.ours.pendingLocks = .empty ∧ l.sender.ours.nonce = 2 ∧ l.parcels = [] ∧
    l.heard.length = 1 ∧ (∃ c, l.sender.sendTransfer second 21 = .ok (secondOffer, c)) ∧
    22 < secondOffer.lock.expiration ∧
    l.receiver.receiveTransfer secondOffer 22 = .error .lockedAmountMismatch := by
  intro l
  -- One evaluation of the run serves all facts.
  have hrun : l.sender.ours.pendingLocks = .empty ∧ l.sender.ours.nonce = 2 ∧ l.parcels = [] ∧
      l.heard.length = 1 ∧ (l.sender.sendTransfer second 21).map Prod.fst = .ok secondOffer ∧
      22 < secondOffer.lock.expiration ∧
      l.receiver.receiveTransfer secondOffer 22 = .error .lockedAmountMismatch := by
    decide +kernel
  obtain ⟨hempty, hnonce, hparcels, hheard, hsend, hrest⟩ := hrun
  obtain ⟨⟨m, c⟩, hsend, rfl⟩ := map_eq_ok_iff.mp hsend
  exact ⟨hempty, hnonce, hparcels, hheard, ⟨c, hsend⟩, hrest⟩

/-- The first lock is offered and taken back, and both messages arrive. Then another is
    offered and taken back, and both messages get lost. -/
def lostLock : List LaneMove :=
  [.offer first 10, .deliver 11, .takeBack first.secretHash 20, .deliver 21,
    .offer second 22, .lose, .takeBack second.secretHash 40, .lose]

theorem run_recoveryLaw_lostLock :
    ((ofLink Link.crossingLink).run lostLock).created + 1 < 2 ^ 64 ∧
    ((ofLink Link.crossingLink).run lostLock).sender.ours.pendingLocks = .empty ∧
    ((ofLink Link.crossingLink).run lostLock).receiver.partner.pendingLocks = .empty ∧
    ((ofLink Link.crossingLink).run lostLock).RecoveryLaw := by
  have hrun : ((ofLink Link.crossingLink).run lostLock).created + 1 < 2 ^ 64 ∧
      ((ofLink Link.crossingLink).run lostLock).sender.ours.pendingLocks = .empty ∧
      ((ofLink Link.crossingLink).run lostLock).receiver.partner.pendingLocks = .empty := by
    decide +kernel
  obtain ⟨hcount, hempty, hcleared⟩ := hrun
  exact ⟨hcount, hempty, hcleared, run_recoveryLaw (fun _ => by decide)
    (Link.opened_contractBalance (by decide) (by decide)) hcount⟩

end Lane

end PaymentNetwork

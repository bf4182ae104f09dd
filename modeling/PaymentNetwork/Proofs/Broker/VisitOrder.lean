import PaymentNetwork.Proofs.Broker.Expiry
import PaymentNetwork.Proofs.Broker.Facts

/-!
# Blocks in Any Order

A block is told to the transfers one after the other, and nothing says in which order.

The order can be seen in the balance proofs. Two locks that expire in one channel are taken
back by two messages, and the one that is sent first has the lower nonce and counts a lock
more. It can be seen nowhere else. On a block a transfer neither sends a lock nor unlocks
one, so all that it does to the view is to take locks back, and taking back two locks
comes to the same channel in either order: the locks are gone, and the last balance proof
is over what is left, two nonces later. Whether a lock is taken back at all depends on
that lock alone. So the effects of a block may be carried out in any order, and the
transfers themselves do not look at each other.

## Main definitions

* `Channel.Removable`, `Channel.removed`: A lock of ours can be taken back, and the channel
  without it.
* `NetworkView.Due`, `Broker.takeBack`: The same for the channels of a view.
* `Action.outline`: An action without the balance proof of a lock that is taken back.
* `Broker.Outcome.Alike`: Outcomes that differ in these balance proofs and in order at
  most.
* `Broker.performAll`: Effects carried out one after the other.
* `Broker.blockEffects`: What a block makes some transfers ask for.
* `Broker.SameBlock`: Two answers to a block are the same.

## Theorems

* `Channel.removed_comm`: Two locks are taken back in either order.
* `Broker.takeBack_comm`: The same for the locks of a view.
* `Broker.performAll_perm`: What neither sends nor unlocks is carried out in any order.
* `Broker.feedAll_block_outcome`, `Broker.get?_feedAll_block`: Telling a block carries out
  what the transfers ask for, and makes one step of each.
* `Broker.run_advanceInOrder_sameBlock`: A block does the same in any order.
-/

namespace PaymentNetwork

/-! ### Two locks of one channel -/

namespace Channel

/-- The channel takes back a lock of ours on a hash. -/
structure Removable (now : Height) (secretHash : SecretHash) (c : Channel) : Prop where
  isOpen : c.isOpen = true
  expired : ∃ l, c.ours.pendingLocks.get? secretHash = some l ∧ l.expiration ≤ now

/-- The balance proof of ours without the lock on a hash. -/
def removalProof (c : Channel) (secretHash : SecretHash) : BalanceProof :=
  c.nextProof c.ours.transferredAmount (c.ours.pendingLocks.erase secretHash)

/-- The channel without our lock on a hash. -/
def removed (c : Channel) (secretHash : SecretHash) : Channel :=
  (c.applyAt .ours (.removeLock secretHash)).applyAt .ours (.proof (c.removalProof secretHash))

section Removed

variable {c : Channel} {now : Height} {secretHash other : SecretHash}

theorem sendRemoval_of_removable (h : c.Removable now secretHash) :
    c.sendRemoval secretHash now
      = .ok (⟨secretHash, c.removalProof secretHash⟩, c.removed secretHash) := by
  obtain ⟨l, hl, hexpired⟩ := h.expired
  unfold sendRemoval
  simp only [h.isOpen, hl, if_neg (Word.not_lt.mpr hexpired)]
  rfl

theorem removable_of_sendRemoval {r : LockRemoval × Channel}
    (h : c.sendRemoval secretHash now = .ok r) : c.Removable now secretHash := by
  obtain ⟨m, c'⟩ := r
  obtain ⟨hopen, hexpired, -⟩ := sendRemoval_expired h
  exact ⟨hopen, hexpired⟩

@[simp] theorem removed_pendingLocks (c : Channel) (secretHash : SecretHash) :
    (c.removed secretHash).ours.pendingLocks = c.ours.pendingLocks.erase secretHash := rfl

/-- Both ways the same locks are left, and the last balance proof is over them. -/
theorem removed_comm (c : Channel) (secretHash other : SecretHash) :
    (c.removed secretHash).removed other = (c.removed other).removed secretHash := by
  have hlocks := c.ours.pendingLocks.erase_comm secretHash other
  have hproof : (c.removed secretHash).removalProof other
      = (c.removed other).removalProof secretHash := by
    unfold removalProof
    rw [removed_pendingLocks, removed_pendingLocks, hlocks]
    rfl
  rw [removed, hproof, removed.eq_def (c.removed other)]
  simp only [applyAt, ChannelEnd.apply, removed_pendingLocks, hlocks]
  rfl

/-- What can be taken back later could be taken back before. -/
theorem Removable.of_removed (h : (c.removed other).Removable now secretHash) :
    c.Removable now secretHash := by
  obtain ⟨l, hl, hexpired⟩ := h.expired
  exact ⟨h.isOpen, l, SortedMap.get?_of_get?_erase hl, hexpired⟩

/-- A lock can be taken back whatever became of another. -/
theorem Removable.removed (h : c.Removable now secretHash) (hne : secretHash ≠ other) :
    (c.removed other).Removable now secretHash := by
  obtain ⟨l, hl, hexpired⟩ := h.expired
  exact ⟨h.isOpen, l, (SortedMap.get?_erase_of_ne hne).trans hl, hexpired⟩

end Removed

end Channel

/-! ### Two locks of a view -/

namespace NetworkView

theorem putChannel_self (v : NetworkView) (tokenNetwork : Address) (id : ChannelId)
    (c c' : Channel) :
    (v.putChannel tokenNetwork id c).putChannel tokenNetwork id c'
      = v.putChannel tokenNetwork id c' := by
  rw [putChannel, putChannel, network_setNetwork_self, putChannel]
  simp only [setNetwork, SortedMap.insert_insert_self]

theorem putChannel_comm (v : NetworkView) (tokenNetwork other : Address) {id id' : ChannelId}
    (c c' : Channel) (h : id ≠ id') :
    (v.putChannel tokenNetwork id c).putChannel other id' c'
      = (v.putChannel other id' c').putChannel tokenNetwork id c := by
  by_cases ht : tokenNetwork = other
  · subst ht
    simp only [putChannel, network_setNetwork_self, SortedMap.insert_comm c c' h]
    simp only [setNetwork, SortedMap.insert_insert_self]
  · -- The channels are in two networks, which are stored apart.
    simp only [putChannel, network_setNetwork_of_ne ht, network_setNetwork_of_ne (Ne.symm ht)]
    simp only [setNetwork, SortedMap.insert_comm _ _ ht]

/-- A lock of ours can be taken back from the channel that is found for it. -/
structure Due (now : Height) (v : NetworkView) (l : SentLock) (tokenNetwork : Address)
    (c : Channel) : Prop where
  found : v.find? l.channelId = some (tokenNetwork, c)
  partner : c.partner.address = l.partner
  removable : c.Removable now l.secretHash

/-- The view without a lock of ours. -/
def withoutLock (v : NetworkView) (l : SentLock) (tokenNetwork : Address) (c : Channel) :
    NetworkView :=
  v.putChannel tokenNetwork l.channelId (c.removed l.secretHash)

section Due

variable {now : Height} {v : NetworkView} {l l' : SentLock} {tokenNetwork tokenNetwork' : Address}
  {c c' : Channel}

/-- What can be taken back later could be taken back before. -/
theorem Due.of_withoutLock (h' : v.Due now l' tokenNetwork' c')
    (h : (v.withoutLock l' tokenNetwork' c').Due now l tokenNetwork c) :
    ∃ d, v.Due now l tokenNetwork d := by
  have hfound := h.found
  by_cases hid : l.channelId = l'.channelId
  · rw [withoutLock, hid, find?_putChannel_self h'.found, Option.some.injEq,
      Prod.mk.injEq] at hfound
    obtain ⟨rfl, rfl⟩ := hfound
    exact ⟨c', hid ▸ h'.found, h.partner, h.removable.of_removed⟩
  · rw [withoutLock, find?_putChannel_of_ne hid] at hfound
    exact ⟨c, hfound, h.partner, h.removable⟩

/-- Two locks can be taken back one after the other, in either order. -/
theorem Due.withoutLock_comm (h : v.Due now l tokenNetwork c)
    (h' : v.Due now l' tokenNetwork' c') (hne : l ≠ l') :
    ∃ d d', d.id = c.id ∧ d'.id = c'.id ∧
      (v.withoutLock l tokenNetwork c).Due now l' tokenNetwork' d' ∧
      (v.withoutLock l' tokenNetwork' c').Due now l tokenNetwork d ∧
      (v.withoutLock l tokenNetwork c).withoutLock l' tokenNetwork' d'
        = (v.withoutLock l' tokenNetwork' c').withoutLock l tokenNetwork d := by
  by_cases hid : l.channelId = l'.channelId
  · -- The locks are in one channel, so they are on two hashes.
    have hfound := h'.found
    rw [← hid, h.found, Option.some.injEq, Prod.mk.injEq] at hfound
    obtain ⟨rfl, rfl⟩ := hfound
    have hhash : l.secretHash ≠ l'.secretHash := by
      intro hhash
      have hpartner := h.partner.symm.trans h'.partner
      cases l with
      | mk id partner secretHash =>
          cases l'
          simp only at hid hhash hpartner
          exact hne (by rw [hid, hhash, hpartner])
    refine ⟨c.removed l'.secretHash, c.removed l.secretHash, rfl, rfl,
      ⟨?_, h'.partner, h'.removable.removed (Ne.symm hhash)⟩,
      ⟨?_, h.partner, h.removable.removed hhash⟩, ?_⟩
    · rw [withoutLock, ← hid, find?_putChannel_self h.found]
    · rw [withoutLock, hid, find?_putChannel_self h'.found]
    · rw [withoutLock, withoutLock, withoutLock, withoutLock, hid, putChannel_self,
        putChannel_self, c.removed_comm]
  · refine ⟨c, c', rfl, rfl, ⟨?_, h'.partner, h'.removable⟩, ⟨?_, h.partner, h.removable⟩,
      putChannel_comm v _ _ _ _ hid⟩
    · rw [withoutLock, find?_putChannel_of_ne (Ne.symm hid)]
      exact h'.found
    · rw [withoutLock, find?_putChannel_of_ne hid]
      exact h.found

end Due

end NetworkView

/-! ### What is told apart -/

/-- A balance proof that says no more than its channel. -/
def BalanceProof.ofChannel (channelId : ChannelId) : BalanceProof where
  tokenNetwork := default
  channelId := channelId
  nonce := 0
  transferredAmount := 0
  lockedAmount := 0
  locksroot := default

namespace Action

/-- The action, and of the balance proof of a lock that is taken back only the channel. -/
def outline : Action → Action
  | .send recipient (.lockRemoval m) =>
      .send recipient (.lockRemoval ⟨m.secretHash, .ofChannel m.balanceProof.channelId⟩)
  | a => a

/-- The call of the ledger that the action is, if it is one. -/
def call? : Action → Option ChainCall
  | .call c => some c
  | _ => none

/-- The report that the action is, if it is one. -/
def report? : Action → Option Report
  | .report r => some r
  | _ => none

/-- The peer that is told that a lock is taken back, with the channel and the hash. -/
def removed? : Action → Option (Address × ChannelId × SecretHash)
  | .send recipient (.lockRemoval m) =>
      some (recipient, m.balanceProof.channelId, m.secretHash)
  | _ => none

/-- The message with its recipient, unless it takes a lock back. -/
def message? : Action → Option (Address × Message)
  | .send _ (.lockRemoval _) => none
  | .send recipient m => some (recipient, m)
  | _ => none

theorem call?_outline (a : Action) : a.outline.call? = a.call? := by
  cases a with
  | send recipient m => cases m <;> rfl
  | _ => rfl

theorem report?_outline (a : Action) : a.outline.report? = a.report? := by
  cases a with
  | send recipient m => cases m <;> rfl
  | _ => rfl

theorem removed?_outline (a : Action) : a.outline.removed? = a.removed? := by
  cases a with
  | send recipient m => cases m <;> rfl
  | _ => rfl

theorem message?_outline (a : Action) : a.outline.message? = a.message? := by
  cases a with
  | send recipient m => cases m <;> rfl
  | _ => rfl

/-- What the outline of an action still shows is the same for actions with the same
    outlines. -/
theorem filterMap_perm_of_outline {α : Type} {show? : Action → Option α}
    (h : ∀ a, show? (outline a) = show? a) {actions actions' : List Action}
    (hperm : (actions'.map outline).Perm (actions.map outline)) :
    (actions'.filterMap show?).Perm (actions.filterMap show?) := by
  have hshow : ∀ xs : List Action, xs.filterMap show? = (xs.map outline).filterMap show? := by
    intro xs
    rw [List.filterMap_map]
    exact congrFun (congrArg List.filterMap (funext fun a => (h a).symm)) xs
  rw [hshow actions', hshow actions]
  exact hperm.filterMap show?

end Action

namespace Broker

/-- The outcomes have the same view, and their actions differ in order and in the balance
    proofs of locks that are taken back at most. -/
structure Outcome.Alike (o o' : Outcome) : Prop where
  view : o'.view = o.view
  actions : (o'.actions.map Action.outline).Perm (o.actions.map Action.outline)

section Alike

variable {o o' o'' : Outcome}

theorem Outcome.Alike.refl (o : Outcome) : o.Alike o := ⟨rfl, .refl _⟩

theorem Outcome.Alike.symm (h : o.Alike o') : o'.Alike o := ⟨h.view.symm, h.actions.symm⟩

theorem Outcome.Alike.trans (h : o.Alike o') (h' : o'.Alike o'') : o.Alike o'' :=
  ⟨h'.view.trans h.view, h'.actions.trans h.actions⟩

end Alike

/-- One outcome and what comes of its view afterwards. -/
def Outcome.andThen (o : Outcome) (next : NetworkView → Outcome) : Outcome :=
  ⟨(next o.view).view, o.actions ++ (next o.view).actions⟩

theorem Outcome.Alike.andThen {o o' : Outcome} (h : o.Alike o') (next : NetworkView → Outcome) :
    (o.andThen next).Alike (o'.andThen next) := by
  refine ⟨congrArg (fun v => (next v).view) h.view, ?_⟩
  rw [Outcome.andThen, Outcome.andThen, h.view, List.map_append, List.map_append]
  exact h.actions.append_right _

theorem Outcome.Alike.andThen_left (o : Outcome) {next next' : NetworkView → Outcome}
    (h : (next o.view).Alike (next' o.view)) : (o.andThen next).Alike (o.andThen next') := by
  refine ⟨h.view, ?_⟩
  rw [Outcome.andThen, Outcome.andThen, List.map_append, List.map_append]
  exact h.actions.append_left _

theorem Outcome.andThen_assoc (o : Outcome) (next later : NetworkView → Outcome) :
    (o.andThen next).andThen later = o.andThen (fun v => (next v).andThen later) := by
  rw [Outcome.andThen, Outcome.andThen, Outcome.andThen, Outcome.andThen, List.append_assoc]

/-! ### Taking locks back -/

/-- Take back a lock of ours, if its channel does it. -/
def takeBack (now : Height) (l : NetworkView.SentLock) (v : NetworkView) : Outcome :=
  build v l.channelId l.partner (·.sendRemoval l.secretHash now) .lockRemoval fun _ => []

section TakeBack

variable {now : Height} {v : NetworkView} {l l' : NetworkView.SentLock} {tokenNetwork : Address}
  {c : Channel}

theorem takeBack_of_due (h : v.Due now l tokenNetwork c) :
    takeBack now l v = ⟨v.withoutLock l tokenNetwork c,
      [.send l.partner (.lockRemoval ⟨l.secretHash, c.removalProof l.secretHash⟩)]⟩ := by
  have hop : v.withPartnerChannel l.channelId l.partner (·.sendRemoval l.secretHash now)
      = .ok (⟨l.secretHash, c.removalProof l.secretHash⟩, v.withoutLock l tokenNetwork c) :=
    NetworkView.withPartnerChannel_eq_ok_iff.mpr ⟨tokenNetwork, c, _, h.found, h.partner,
      Channel.sendRemoval_of_removable h.removable, rfl⟩
  rw [takeBack, build, hop]

theorem takeBack_of_not_due (h : ∀ tokenNetwork c, ¬ v.Due now l tokenNetwork c) :
    takeBack now l v = ⟨v, []⟩ := by
  unfold takeBack build
  split
  · rename_i m v' hop
    obtain ⟨tokenNetwork, c, c', hfind, hpartner, hsend, -⟩ :=
      NetworkView.withPartnerChannel_eq_ok_iff.mp hop
    exact absurd ⟨hfind, hpartner, Channel.removable_of_sendRemoval hsend⟩ (h tokenNetwork c)
  · rfl

/-- A lock that cannot be taken back makes no difference, before another one or after. -/
theorem takeBack_comm_of_not_due (h : ∀ tokenNetwork c, ¬ v.Due now l tokenNetwork c) :
    ((takeBack now l v).andThen (takeBack now l')).Alike
      ((takeBack now l' v).andThen (takeBack now l)) := by
  -- Taking back the other lock first does not help.
  have hafter : takeBack now l (takeBack now l' v).view = ⟨(takeBack now l' v).view, []⟩ := by
    refine takeBack_of_not_due (fun tokenNetwork c hdue => ?_)
    by_cases hdue' : ∃ tokenNetwork' c', v.Due now l' tokenNetwork' c'
    · obtain ⟨tokenNetwork', c', hdue'⟩ := hdue'
      rw [takeBack_of_due hdue'] at hdue
      obtain ⟨d, hbefore⟩ := hdue'.of_withoutLock hdue
      exact h tokenNetwork d hbefore
    · rw [takeBack_of_not_due (fun _ _ hd => hdue' ⟨_, _, hd⟩)] at hdue
      exact h tokenNetwork c hdue
  refine ⟨?_, ?_⟩
  · rw [Outcome.andThen, Outcome.andThen, hafter, takeBack_of_not_due h]
  · rw [Outcome.andThen, Outcome.andThen, hafter, takeBack_of_not_due h, List.append_nil,
      List.nil_append]

/-- Two locks are taken back in either order. -/
theorem takeBack_comm (now : Height) (v : NetworkView) (l l' : NetworkView.SentLock) :
    ((takeBack now l v).andThen (takeBack now l')).Alike
      ((takeBack now l' v).andThen (takeBack now l)) := by
  by_cases hdue : ∃ tokenNetwork c, v.Due now l tokenNetwork c
  · by_cases hdue' : ∃ tokenNetwork c, v.Due now l' tokenNetwork c
    · obtain ⟨tokenNetwork, c, hdue⟩ := hdue
      obtain ⟨tokenNetwork', c', hdue'⟩ := hdue'
      by_cases hne : l = l'
      · rw [hne]
        exact .refl _
      · obtain ⟨d, d', hid, hid', hlater', hlater, hview⟩ := hdue.withoutLock_comm hdue' hne
        refine ⟨?_, ?_⟩
        · rw [Outcome.andThen, Outcome.andThen, takeBack_of_due hdue, takeBack_of_due hdue',
            takeBack_of_due hlater, takeBack_of_due hlater', hview]
        · rw [Outcome.andThen, Outcome.andThen, takeBack_of_due hdue, takeBack_of_due hdue',
            takeBack_of_due hlater, takeBack_of_due hlater']
          -- The messages name their channels, and the channels keep their names.
          simp only [List.cons_append, List.nil_append, List.map_cons, List.map_nil,
            Action.outline, Channel.removalProof, Channel.nextProof, hid, hid']
          exact List.Perm.swap _ _ _
    · exact (takeBack_comm_of_not_due (fun _ _ hd => hdue' ⟨_, _, hd⟩)).symm
  · exact takeBack_comm_of_not_due (fun _ _ hd => hdue ⟨_, _, hd⟩)

end TakeBack

/-! ### Effects in any order -/

/-- Carry out effects, one after the other. -/
def performAll (now : Height) : List Effect → NetworkView → Outcome
  | [], v => ⟨v, []⟩
  | e :: rest, v => (perform v now e).andThen (performAll now rest)

theorem performAll_append (now : Height) (effects later : List Effect) (v : NetworkView) :
    performAll now (effects ++ later) v
      = (performAll now effects v).andThen (performAll now later) := by
  induction effects generalizing v with
  | nil => rfl
  | cons e rest ih =>
      rw [List.cons_append, performAll, performAll, Outcome.andThen_assoc]
      exact congrArg (perform v now e).andThen (funext ih)

/-- What leaves the channels alone does the same over every view. -/
theorem perform_of_quiet (now : Height) {e : Effect} (h : e.isQuiet = true) :
    ∃ actions, ∀ v, perform v now e = ⟨v, actions⟩ := by
  cases e with
  | sendLockedTransfer => cases h
  | sendUnlock => cases h
  | sendLockRemoval => cases h
  | _ => exact ⟨_, fun v => rfl⟩

theorem perform_of_takesBackOnly (now : Height) {e : Effect} (h : e.takesBackOnly = true) :
    (∃ actions, ∀ v, perform v now e = ⟨v, actions⟩) ∨
    ∃ l, ∀ v, perform v now e = takeBack now l v := by
  cases e with
  | sendLockedTransfer => cases h
  | sendUnlock => cases h
  | sendLockRemoval recipient channelId secretHash =>
      exact Or.inr ⟨⟨channelId, recipient, secretHash⟩, fun v => rfl⟩
  | _ => exact Or.inl (perform_of_quiet now rfl)

/-- Two effects that neither send nor unlock are carried out in either order. -/
theorem perform_comm (now : Height) (v : NetworkView) {e e' : Effect}
    (h : e.takesBackOnly = true) (h' : e'.takesBackOnly = true) :
    ((perform v now e).andThen (perform · now e')).Alike
      ((perform v now e').andThen (perform · now e)) := by
  -- An effect that does the same over every view changes places with any other.
  have hquiet : ∀ (e e' : Effect) actions, (∀ v, perform v now e = ⟨v, actions⟩) →
      ((perform v now e).andThen (perform · now e')).Alike
        ((perform v now e').andThen (perform · now e)) := by
    intro e e' actions hsame
    refine ⟨?_, ?_⟩
    · rw [Outcome.andThen, Outcome.andThen, hsame, hsame]
    · rw [Outcome.andThen, Outcome.andThen, hsame, hsame, List.map_append, List.map_append]
      exact List.perm_append_comm
  rcases perform_of_takesBackOnly now h with ⟨actions, hsame⟩ | ⟨l, hl⟩
  · exact hquiet e e' actions hsame
  · rcases perform_of_takesBackOnly now h' with ⟨actions, hsame⟩ | ⟨l', hl'⟩
    · exact (hquiet e' e actions hsame).symm
    · rw [funext hl, funext hl', hl, hl']
      exact takeBack_comm now v l l'

/-- Effects that neither send nor unlock are carried out in any order. -/
theorem performAll_perm (now : Height) {effects effects' : List Effect}
    (hperm : effects.Perm effects') (h : effects.all Effect.takesBackOnly = true)
    (v : NetworkView) : (performAll now effects v).Alike (performAll now effects' v) := by
  induction hperm generalizing v with
  | nil => exact .refl _
  | cons e hperm ih =>
      rw [List.all_cons, Bool.and_eq_true] at h
      exact Outcome.Alike.andThen_left _ (ih h.2 _)
  | swap e e' rest =>
      rw [List.all_cons, List.all_cons, Bool.and_eq_true, Bool.and_eq_true] at h
      have hboth := (perform_comm now v h.1 h.2.1).andThen (performAll now rest)
      rw [Outcome.andThen_assoc, Outcome.andThen_assoc] at hboth
      exact hboth
  | trans hfirst hsecond ih ih' =>
      have hmiddle : ∀ xs : List Effect, xs.all Effect.takesBackOnly = true ↔
          ∀ e ∈ xs, e.takesBackOnly = true := fun xs => List.all_eq_true
      refine (ih h v).trans (ih' ((hmiddle _).mpr fun e he => ?_) v)
      exact (hmiddle _).mp h e (hfirst.mem_iff.mpr he)

/-! ### A block -/

/-- A transfer that neither sends nor unlocks has its effects carried out as they stand. -/
theorem drain_of_takesBackOnly (v : NetworkView) (now : Height) (t : Transfer)
    {effects : List Effect} (h : effects.all Effect.takesBackOnly = true) :
    drain v now t effects = (t, performAll now effects v) := by
  fun_induction drain v now t effects with
  | case1 v t => rfl
  | case2 v t recipient channelId terms rest m v' hsend t' o hdrain ih => cases h
  | case3 v t recipient channelId terms rest e hsend refusal ih => cases h
  | case4 v t effect rest hne done t' o hdrain ih =>
      rw [List.all_cons, Bool.and_eq_true] at h
      have hrest := ih h.2
      rw [hdrain] at hrest
      cases hrest
      rfl

/-- What a block makes the transfers of some keys ask for. -/
def blockEffects (b : Broker) (number : Height) (keys : List TransferKey) : List Effect :=
  keys.flatMap fun key =>
    match b.transfers.get? key with
    | none => []
    | some t => (t.step (.block number)).2

theorem blockEffects_takesBackOnly (b : Broker) (number : Height) (keys : List TransferKey) :
    (b.blockEffects number keys).all Effect.takesBackOnly = true := by
  refine List.all_eq_true.mpr (fun e he => ?_)
  obtain ⟨key, -, hkey⟩ := List.mem_flatMap.mp he
  cases ht : b.transfers.get? key with
  | none =>
      rw [ht] at hkey
      cases hkey
  | some t =>
      rw [ht] at hkey
      exact List.all_eq_true.mp (t.step_block_takesBackOnly number) e hkey

section Block

variable {b : Broker} {keys : List TransferKey}

/-- Telling a block to one transfer carries out what it asks for. -/
theorem feed_block_outcome (b : Broker) (number : Height) (key : TransferKey) :
    (⟨(b.feed (.block number) key).1.view, (b.feed (.block number) key).2⟩ : Outcome)
      = performAll b.block (b.blockEffects number [key]) b.view := by
  rw [blockEffects, List.flatMap_cons, List.flatMap_nil, List.append_nil]
  cases ht : b.transfers.get? key with
  | none =>
      rw [feed, ht]
      rfl
  | some t =>
      rw [feed_of_some ht, settle, drain_of_takesBackOnly _ _ _ (t.step_block_takesBackOnly number),
        keep_view]

/-- Telling a block to some transfers carries out what they ask for, one after the other. -/
theorem feedAll_block_outcome (hf : b.Filed) (hnodup : keys.Nodup) (number : Height) :
    (⟨(b.feedAll (.block number) keys).1.view, (b.feedAll (.block number) keys).2⟩ : Outcome)
      = performAll b.block (b.blockEffects number keys) b.view := by
  induction keys generalizing b with
  | nil => rfl
  | cons key rest ih =>
      obtain ⟨hnew, hrest⟩ := List.nodup_cons.mp hnodup
      have hfirst := feed_block_outcome b number key
      have hlater := ih (feed_filed hf (.block number) key) hrest
      -- The others are not changed by the turn of the first.
      have hsame : (b.feed (.block number) key).1.blockEffects number rest
          = b.blockEffects number rest := by
        rw [blockEffects, blockEffects, List.flatMap_def, List.flatMap_def]
        refine congrArg List.flatten (List.map_congr_left (fun other hother => ?_))
        have hne : other ≠ key := fun heq => hnew (heq ▸ hother)
        rw [get?_feed_of_ne hf hne]
      have hsplit : b.blockEffects number (key :: rest)
          = b.blockEffects number [key] ++ b.blockEffects number rest := by
        rw [blockEffects, blockEffects, blockEffects, ← List.flatMap_append]
        rfl
      rw [hsame, feed_block] at hlater
      rw [hsplit, performAll_append, ← hfirst, Outcome.andThen, ← hlater]
      rfl

/-- A block makes one step of every transfer that is visited, whoever else is. -/
theorem get?_feedAll_block (hf : b.Filed) (hnodup : keys.Nodup) (number : Height)
    (k : TransferKey) :
    (b.feedAll (.block number) keys).1.transfers.get? k
      = if k ∈ keys then (b.transfers.get? k).bind fun t => kept (t.step (.block number)).1
        else b.transfers.get? k := by
  induction keys generalizing b with
  | nil => rfl
  | cons key rest ih =>
      obtain ⟨hnew, hrest⟩ := List.nodup_cons.mp hnodup
      have hafter := ih (feed_filed hf (.block number) key) hrest
      change ((b.feed (.block number) key).1.feedAll (.block number) rest).1.transfers.get? k = _
      by_cases hk : k = key
      · subst hk
        rw [hafter, if_neg hnew, if_pos List.mem_cons_self]
        cases ht : b.transfers.get? k with
        | none => rw [feed_of_none ht, ht, Option.bind_none]
        | some t =>
            have hkey : (t.step (.block number)).1.key = k :=
              (t.step_key _).trans (hf k t ht).1
            have hget := get?_settle_self b (t.step (.block number)).1 (t.step (.block number)).2
            rw [hkey, drain_of_takesBackOnly _ _ _ (t.step_block_takesBackOnly number)] at hget
            rw [feed_of_some ht, hget, Option.bind_some, kept]
      · rw [hafter, get?_feed_of_ne hf hk]
        by_cases hmem : k ∈ rest
        · rw [if_pos hmem, if_pos (List.mem_cons_of_mem _ hmem)]
        · rw [if_neg hmem, if_neg (fun h => (List.mem_cons.mp h).elim hk hmem)]

end Block

/-! ### In any order -/

/-- Two answers to a block are the same: they leave the same broker behind, and they ask
    for the same but for the balance proofs of locks that are taken back. -/
structure SameBlock (r r' : Broker × List Action) : Prop where
  /-- The view, the clock and the transfers with their states are the same. -/
  broker : r'.1 = r.1
  /-- The same calls are made, each as often. -/
  calls : (r'.2.filterMap Action.call?).Perm (r.2.filterMap Action.call?)
  /-- The same is reported, each report as often. -/
  reports : (r'.2.filterMap Action.report?).Perm (r.2.filterMap Action.report?)
  /-- The same peers are told that the same locks of the same channels are taken back. -/
  removals : (r'.2.filterMap Action.removed?).Perm (r.2.filterMap Action.removed?)
  /-- All other messages are the same. -/
  messages : (r'.2.filterMap Action.message?).Perm (r.2.filterMap Action.message?)

/-- Telling a block to the same transfers in another order leaves the same broker behind, and
    it does the same. -/
theorem feedAll_block_perm {b : Broker} (hf : b.Filed) (number : Height)
    {order order' : List TransferKey} (hperm : order.Perm order') (hnodup : order.Nodup) :
    (b.feedAll (.block number) order').1 = (b.feedAll (.block number) order).1 ∧
    ((b.feedAll (.block number) order').2.map Action.outline).Perm
      ((b.feedAll (.block number) order).2.map Action.outline) := by
  have hnodup' := hperm.nodup_iff.mp hnodup
  have halike := performAll_perm b.block (hperm.flatMap_right _)
    (b.blockEffects_takesBackOnly number order) b.view
  rw [← blockEffects, ← blockEffects, ← feedAll_block_outcome hf hnodup,
    ← feedAll_block_outcome hf hnodup'] at halike
  refine ⟨?_, halike.actions⟩
  generalize hr : b.feedAll (.block number) order = r at halike
  generalize hr' : b.feedAll (.block number) order' = r' at halike
  have hview : r'.1.view = r.1.view := halike.view
  have hblock : r'.1.block = r.1.block := by rw [← hr, ← hr', feedAll_block, feedAll_block]
  have htransfers : r'.1.transfers = r.1.transfers := by
    refine SortedMap.ext_get? (fun k => ?_)
    rw [← hr, ← hr', get?_feedAll_block hf hnodup', get?_feedAll_block hf hnodup]
    simp only [hperm.mem_iff]
  calc r'.1 = ⟨r'.1.view, r'.1.block, r'.1.transfers⟩ := rfl
    _ = ⟨r.1.view, r.1.block, r.1.transfers⟩ := by rw [hview, hblock, htransfers]
    _ = r.1 := rfl

/-- The answers leave the same broker behind and have the same outlines. -/
theorem sameBlock_of_outline {r r' : Broker × List Action} (hbroker : r'.1 = r.1)
    (h : (r'.2.map Action.outline).Perm (r.2.map Action.outline)) : SameBlock r r' where
  broker := hbroker
  calls := Action.filterMap_perm_of_outline Action.call?_outline h
  reports := Action.filterMap_perm_of_outline Action.report?_outline h
  removals := Action.filterMap_perm_of_outline Action.removed?_outline h
  messages := Action.filterMap_perm_of_outline Action.message?_outline h

theorem advanceInOrder_perm {b : Broker} (hf : b.Filed) (number : Height)
    {order order' : List TransferKey} (hperm : order.Perm order') (hnodup : order.Nodup) :
    SameBlock (b.advanceInOrder number order) (b.advanceInOrder number order') := by
  unfold advanceInOrder
  by_cases hold : number ≤ b.block
  · rw [if_pos hold, if_pos hold]
    exact sameBlock_of_outline rfl (.refl _)
  · rw [if_neg hold, if_neg hold]
    have hfiled : Filed { b with block := number } := hf
    obtain ⟨hbroker, hactions⟩ := feedAll_block_perm hfiled number hperm hnodup
    -- The locks that are left to the node are looked for in the same view.
    dsimp only
    rw [hbroker]
    refine sameBlock_of_outline rfl ?_
    rw [List.map_append, List.map_append]
    exact hactions.append_right _

/-- After any inputs, a block does the same in whatever order the transfers in progress are
    told. -/
theorem run_advanceInOrder_sameBlock (ourAddress : Address) (revealTimeout block : Height)
    (inputs : List BrokerInput) (number : Height) (order order' : List TransferKey)
    (horder : order.Perm
      ((fresh (.fresh ourAddress revealTimeout) block).run inputs).transfers.keys)
    (horder' : order'.Perm
      ((fresh (.fresh ourAddress revealTimeout) block).run inputs).transfers.keys) :
    SameBlock
      (((fresh (.fresh ourAddress revealTimeout) block).run inputs).advanceInOrder number order)
      (((fresh (.fresh ourAddress revealTimeout) block).run inputs).advanceInOrder number
        order') :=
  advanceInOrder_perm ((filed_fresh _ block).run inputs) number (horder.trans horder'.symm)
    (horder.nodup_iff.mpr (SortedMap.nodup_keys _))

end Broker

/-! ### Two offers in progress -/

namespace ParallelOffers

open Broker DoubleOffer

/-- Another offer of the payer, on a secret of its own. -/
def other : Leg := { small with secret := FixedBytes.replicate 32 8 }

/-- The payer offers two locks, and both wait for their secrets. -/
def inputs : List BrokerInput :=
  openings ++ [.message payer (.lockedTransfer large.message),
    .message payer (.lockedTransfer other.message)]

theorem secrets_ne : hashSecret other.secret ≠ hashSecret large.secret := by decide +kernel

/-- Both transfers are in progress. -/
theorem get?_inputs :
    ((fresh (NetworkView.fresh payee 5) 10).run inputs).transfers.get?
        ⟨.target, hashSecret large.secret⟩ = some (.target large.target) ∧
    ((fresh (NetworkView.fresh payee 5) 10).run inputs).transfers.get?
        ⟨.target, hashSecret other.secret⟩ = some (.target other.target) := by
  have hfind : ((fresh (NetworkView.fresh payee 5) 10).run openings).view.find? large.channelId
      = some (large.tokenNetwork, large.funded) := by decide +kernel
  have hfind' : ((fresh (NetworkView.fresh payee 5) 10).run openings).view.find? other.channelId
      = some (other.tokenNetwork, other.funded) := by decide +kernel
  have hrun : (fresh (NetworkView.fresh payee 5) 10).run inputs
      = (fresh ((fresh (NetworkView.fresh payee 5) 10).run openings).view 10).run
        [.message payer (.lockedTransfer large.message),
          .message payer (.lockedTransfer other.message)] := List.foldl_append
  have hus : ((fresh (NetworkView.fresh payee 5) 10).run openings).view.ourAddress = payee := rfl
  generalize ((fresh (NetworkView.fresh payee 5) 10).run openings).view = view
    at hfind hfind' hrun hus
  have hfirst : (fresh view 10).after (.message payer (.lockedTransfer large.message))
      = begun view large := after_message hus rfl hfind (by decide)
  have hview : (begun view large).view
      = view.putChannel large.tokenNetwork large.channelId large.filed := keep_view _ _
  have hget : ∀ k, (begun view large).transfers.get? k
      = if k = ⟨.target, hashSecret large.secret⟩ then some (.target large.target) else none :=
    fun k => get?_keep_of_not_isTerminal rfl k
  have hfound : (begun view large).view.find? other.channelId
      = some (other.tokenNetwork, other.funded) := by
    rw [hview, NetworkView.find?_putChannel_of_ne (by decide), hfind']
  -- The second offer is on another hash, so it begins a transfer too.
  have hkeys : (⟨.target, hashSecret other.secret⟩ : TransferKey)
      ≠ ⟨.target, hashSecret large.secret⟩ :=
    fun h => secrets_ne (congrArg TransferKey.secretHash h)
  have hnew :
      ¬ (begun view large).transfers.contains ⟨.target, hashSecret other.secret⟩ = true := by
    rw [SortedMap.contains, hget, if_neg hkeys]
    decide
  have hsecond := after_message (hview.symm ▸ hus) (keep_block _ _) hfound (by decide)
  rw [if_neg hnew] at hsecond
  rw [hrun, run_cons, run_cons, run_nil, hfirst, hsecond]
  constructor
  · rw [get?_keep_of_not_isTerminal rfl]
    exact (if_neg (Ne.symm hkeys)).trans ((hget _).trans (if_pos rfl))
  · exact (get?_keep_of_not_isTerminal rfl _).trans (if_pos rfl)

/-- Both locks expire, and the transfers are visited in key order and the other way
    around. -/
theorem run_advanceInOrder_sameBlock_reversed :
    let b := (fresh (NetworkView.fresh payee 5) 10).run inputs
    b.transfers.get? ⟨.target, hashSecret large.secret⟩ = some (.target large.target) ∧
    b.transfers.get? ⟨.target, hashSecret other.secret⟩ = some (.target other.target) ∧
    b.transfers.keys.Perm b.transfers.keys ∧ b.transfers.keys.reverse.Perm b.transfers.keys ∧
    SameBlock (b.advanceInOrder 100 b.transfers.keys)
      (b.advanceInOrder 100 b.transfers.keys.reverse) :=
  ⟨get?_inputs.1, get?_inputs.2, .refl _, List.reverse_perm _,
    run_advanceInOrder_sameBlock payee 5 10 inputs 100 _ _ (.refl _) (List.reverse_perm _)⟩

end ParallelOffers

end PaymentNetwork

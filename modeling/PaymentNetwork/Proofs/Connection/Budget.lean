import Mathlib.Data.List.Perm.Subperm
import PaymentNetwork.Proofs.Connection.Run
import PaymentNetwork.Proofs.Connection.Share

/-!
# How Much Is Deposited

The deposits of a node that joined a token network once, against the funds that it joined
with.

There are two ways to a deposit, and each keeps to the funds by a count of its own. Who joins
a channel of a partner looks at the deposits in view, and puts in at most what these leave of
the funds. Who opens channels puts an equal share into each of them, and opens no more than
are missing from the number of channels that the funds were divided for. The first count is
off by the deposits that were made but are not in view, the second by the deposits that do
not belong to a channel that is counted. Both are written into books here, next to what was
spent. The law is that the funds are exceeded by the larger of the two at most; that two
operations look at the same time is excluded, since only one of them uses the policy.

## Main definitions

* `Entry`, `Books`: What is written down, and what it adds up to.
* `Membership.entries`: What the end of a wait puts into the books.
* `Desk.Undisturbed`: A run in which the policy and our channels stay.
* `Desk.BudgetLaw`: What such a run keeps to.

## Theorems

* `Policy.perPartner_mul_le`: All shares together are not more than the funds.
* `NetworkView.openIds_apply`: Our channels stay open if no event ends one of them.
* `Balanced.deposit`: The deposit of who looked, or of who opens channels.
* `Phase.Fits.resume`: What one operation does while it uses the policy.
* `Desk.run_budgetLaw`: The law for every such run.
-/

namespace PaymentNetwork

/-! ### Channels that stay open -/

namespace ChainEvent

/-- Is a channel not open any more after the event? -/
def ends : ChainEvent → Bool
  | channelClosed .. => true
  | channelSettled .. => true
  | channelCooperativeSettled .. => true
  | _ => false

end ChainEvent

theorem Channel.status_applyEvent {c : Channel} {e : ChainEvent} (h : e.ends = false) :
    (c.applyEvent e).status = c.status := by
  have hfor : ∀ participant change, (c.applyFor participant change).status = c.status := by
    intro participant change
    unfold applyFor
    split
    · rename_i side _
      cases side <;> rfl
    · rfl
  unfold applyEvent
  split
  · cases e with
    | channelClosed => cases h
    | channelSettled => cases h
    | channelCooperativeSettled => cases h
    | channelNewDeposit => exact hfor _ _
    | channelWithdrawn => exact hfor _ _
    | channelUnlocked => exact hfor _ _
    | _ => rfl
  · rfl

namespace NetworkView

/-- The identifiers of our open channels in a token network. -/
def openIds (v : NetworkView) (tokenNetwork : Address) : List ChannelId :=
  (v.openChannels tokenNetwork).map Channel.id

theorem mem_openIds_iff {v : NetworkView} {tokenNetwork : Address} {id : ChannelId} :
    id ∈ v.openIds tokenNetwork ↔
      ∃ k c, (v.network tokenNetwork).channels.get? k = some c ∧ c.isOpen = true ∧ c.id = id := by
  simp only [openIds, openChannels, channels, List.mem_map, List.mem_filter, SortedMap.values]
  constructor
  · rintro ⟨c, ⟨⟨⟨k, c'⟩, hmem, rfl⟩, hopen⟩, rfl⟩
    exact ⟨k, c', SortedMap.get?_eq_some_iff.mpr hmem, hopen, rfl⟩
  · rintro ⟨k, c, hget, hopen, rfl⟩
    exact ⟨c, ⟨⟨(k, c), SortedMap.get?_eq_some_iff.mp hget, rfl⟩, hopen⟩, rfl⟩

/-- Our channels stay open, unless an event ends one of them. -/
theorem openIds_apply {v : NetworkView} {e : ChainEvent} (tokenNetwork : Address)
    (h : e.ends = true → ∀ id, e.channelId? = some id → v.find? id = none) :
    v.openIds tokenNetwork ⊆ (v.apply e).openIds tokenNetwork := by
  intro id hid
  obtain ⟨k, c, hget, hopen, rfl⟩ := mem_openIds_iff.mp hid
  refine mem_openIds_iff.mpr ?_
  rcases (v.network_apply_cases e tokenNetwork).2 with
    hsame | ⟨id, c', hfind, hid', hchanged⟩ | ⟨id, c', hnew, hadded⟩
  · rw [hsame]
    exact ⟨k, c, hget, hopen, rfl⟩
  · rw [hchanged]
    by_cases hk : k = id
    · subst hk
      rw [(find?_eq_some_iff.mp hfind).2] at hget
      cases hget
      -- An event that ends a channel finds none, so this one does not end it.
      have hends : e.ends = false := by
        rw [Bool.eq_false_iff]
        intro hends
        rw [h hends k hid'] at hfind
        cases hfind
      refine ⟨k, c.applyEvent e, SortedMap.get?_insert_self .., ?_, Channel.applyEvent_id c e⟩
      rwa [Channel.isOpen, Channel.status_applyEvent hends]
    · exact ⟨k, c, by rw [SortedMap.get?_insert_of_ne hk, hget], hopen, rfl⟩
  · rw [hadded]
    have hk : k ≠ id := by
      rintro rfl
      rw [hnew] at hget
      cases hget
    exact ⟨k, c, by rw [SortedMap.get?_insert_of_ne hk, hget], hopen, rfl⟩

theorem openIds_setBlocked (v : NetworkView) (tokenNetwork : Address) (blocked : Bool) :
    (v.setBlocked tokenNetwork blocked).openIds tokenNetwork = v.openIds tokenNetwork := by
  rw [openIds, openChannels, channels, setBlocked, network_setNetwork_self]
  rfl

end NetworkView

/-- All shares together are not more than the funds. -/
theorem Policy.perPartner_mul_le (p : Policy) :
    p.perPartner.val * p.channelTarget.val ≤ p.funds.val := by
  have hnone : ((none : Option Amount).getD 0).val * p.channelTarget.val ≤ p.funds.val := by
    rw [Option.getD_none, Word.val_zero, Nat.zero_mul]
    exact Nat.zero_le _
  unfold perPartner fractionShare
  split
  · exact hnone
  · rename_i keep hkeep
    split
    · exact hnone
    · rename_i hparts
      have hpos := Nat.pos_of_ne_zero hparts
      obtain ⟨share, hshare, hval⟩ := shareOf?_eq p.funds (millionths?_le hkeep) hpos
      rw [hshare, Option.getD_some, hval, Nat.mul_comm]
      exact Nat.le_trans (mul_shareOf_le p.funds.val keep hpos)
        (mul_div_million_le p.funds.val (millionths?_le hkeep))

/-! ### The books -/

/-- Something that is put into the books of a token network. -/
inductive Entry where
  /-- An operation that joins a channel saw this much in open channels. -/
  | looked (seen : Amount)
  /-- The ledger took a deposit into a channel, which was an open one in view or was not. -/
  | deposited (channelId : ChannelId) (amount : Amount) (inView : Bool)

/-- Is no deposit larger than a share? -/
def Entry.Within (p : Policy) : Entry → Prop
  | looked _ => True
  | deposited _ amount _ => amount ≤ p.perPartner

/-- What the entries add up to. -/
structure Books where
  /-- All deposits. -/
  spent : Nat
  /-- The most that a look missed of the deposits before it. -/
  lag : Nat
  /-- The deposits into channels that had one, or that were not open and in view. -/
  stray : Nat
  /-- The channels of all other deposits. -/
  funded : List ChannelId

namespace Books

/-- Nothing was spent. -/
def empty : Books := ⟨0, 0, 0, []⟩

/-- The books after an entry. -/
def enter (b : Books) : Entry → Books
  | .looked seen => { b with lag := max b.lag (b.spent - seen.val) }
  | .deposited channelId amount inView =>
    if inView && decide (channelId ∉ b.funded) then
      { b with spent := b.spent + amount.val, funded := channelId :: b.funded }
    else { b with spent := b.spent + amount.val, stray := b.stray + amount.val }

end Books

section Steps

variable (s : ConnectionSettings)

/-- What the end of a wait puts into the books. -/
def Membership.entries (m : Membership) (p : Phase) (w : Wake) : List Entry :=
  match p, w with
  | .queued (.joinChannel partner deposit), .granted =>
    match (m.granted s (.joinChannel partner deposit)).2 with
    | .joining .. => [.looked (s.sumDeposits m.view)]
    | _ => []
  | .funding channelId amount _, .answered (.ok _) =>
    [.deposited channelId amount (decide (channelId ∈ m.view.openIds s.tokenNetwork))]
  | .joining channelId amount, .answered (.ok _) =>
    [.deposited channelId amount (decide (channelId ∈ m.view.openIds s.tokenNetwork))]
  | _, _ => []

namespace Desk

/-- What a move puts into the books. -/
def entries (d : Desk) : Move → List Entry
  | .wake task w =>
    match d.ending? task w with
    | none => []
    | some p => d.membership.entries s p w
  | _ => []

/-- The books of a run. -/
def books (d : Desk) (moves : List Move) : Books :=
  (collect (after s) (entries s) d moves).foldl Books.enter .empty

end Desk

end Steps

/-! ### What an operation may do -/

/-- Is this an operation that neither changes the policy, once a node joined with it, nor
    closes channels, nor spends what it is told to? -/
def Operation.KeepsTo (p : Policy) : Operation → Prop
  | connect q => q = p
  | leave _ => False
  | openAndDeposit .. => False
  | _ => True

/-- An operation that opens channels has more to open at most than are missing. -/
def Errand.Fits (p : Policy) (b : Books) (amount : Amount) : Errand → Prop
  | single => False
  | batch rest =>
    amount = p.perPartner ∧ b.funded.length + rest.length < p.channelTarget.val

/-- Where an operation may stand, by the policy and the books. -/
def Phase.Fits (p : Policy) (b : Books) : Phase → Prop
  | queued op => op.KeepsTo p
  | bootstrapping => True
  | opening _ amount errand => errand.Fits p b amount
  | polling _ _ amount errand => errand.Fits p b amount
  | funding _ amount errand => errand.Fits p b amount
  | joining _ amount => amount ≤ p.perPartner ∧ b.spent + amount.val ≤ p.funds.val + b.lag
  | closing .. => False
  | settling _ => False
  | ended _ => True

/-- What the books keep to, by the channels in view. -/
structure Balanced (p : Policy) (openIds : List ChannelId) (b : Books) : Prop where
  nodup : b.funded.Nodup
  inView : b.funded ⊆ openIds
  shares : b.spent ≤ b.stray + b.funded.length * p.perPartner.val
  bound : b.spent ≤ p.funds.val + max b.lag b.stray

section Balanced

variable {p : Policy} {openIds : List ChannelId} {b : Books}

theorem balanced_empty : Balanced p openIds .empty where
  nodup := List.nodup_nil
  inView := List.nil_subset _
  shares := Nat.zero_le _
  bound := Nat.zero_le _

theorem Balanced.mono {openIds' : List ChannelId} (h : Balanced p openIds b)
    (hview : openIds ⊆ openIds') : Balanced p openIds' b :=
  { h with inView := fun _ hid => hview (h.inView hid) }

theorem Balanced.length_le (h : Balanced p openIds b) : b.funded.length ≤ openIds.length :=
  (h.nodup.subperm h.inView).length_le

theorem Balanced.looked (h : Balanced p openIds b) (seen : Amount) :
    Balanced p openIds (b.enter (.looked seen)) where
  nodup := h.nodup
  inView := h.inView
  shares := h.shares
  bound := by
    -- A look does not spend, so only the lag can grow.
    have hbound := h.bound
    change b.spent ≤ p.funds.val + max (max b.lag (b.spent - seen.val)) b.stray
    omega

/-- A deposit leaves the books in balance, if there is room for it by what was seen, or if a
    channel is missing. -/
theorem Balanced.deposit (h : Balanced p openIds b) {channelId : ChannelId} {amount : Amount}
    (hshare : amount ≤ p.perPartner)
    (hroom : b.spent + amount.val ≤ p.funds.val + b.lag ∨ b.funded.length < p.channelTarget.val) :
    Balanced p openIds
      (b.enter (.deposited channelId amount (decide (channelId ∈ openIds)))) := by
  have hshares := h.shares
  have hle : amount.val ≤ p.perPartner.val := hshare
  -- If a channel is missing, one share more than the counted ones is still within the funds.
  have hfunds : b.funded.length < p.channelTarget.val →
      b.funded.length * p.perPartner.val + p.perPartner.val ≤ p.funds.val := by
    intro hmissing
    rw [← Nat.succ_mul]
    refine Nat.le_trans (Nat.mul_le_mul_right _ hmissing) ?_
    rw [Nat.mul_comm]
    exact p.perPartner_mul_le
  unfold Books.enter
  dsimp only
  split
  · rename_i hnew
    obtain ⟨hopen, hfresh⟩ : channelId ∈ openIds ∧ channelId ∉ b.funded := by simpa using hnew
    refine ⟨List.nodup_cons.mpr ⟨hfresh, h.nodup⟩, List.cons_subset.mpr ⟨hopen, h.inView⟩, ?_, ?_⟩
    · dsimp only
      rw [List.length_cons, Nat.succ_mul]
      omega
    · dsimp only
      rcases hroom with hroom | hmissing
      · omega
      · have := hfunds hmissing
        omega
  · refine ⟨h.nodup, h.inView, ?_, ?_⟩
    · dsimp only
      omega
    · dsimp only
      rcases hroom with hroom | hmissing
      · omega
      · have := hfunds hmissing
        omega

end Balanced

section Fits

variable {s : ConnectionSettings} {m : Membership} {p : Policy} {b : Books}

/-- Who does not use the policy does not care about the books. -/
theorem Phase.Fits.of_not_usesPolicy {b' : Books} {phase : Phase} (h : phase.Fits p b)
    (hfree : phase.usesPolicy = false) : phase.Fits p b' := by
  cases phase with
  | queued op => exact h
  | ended result => trivial
  | opening partner amount errand => cases errand with
    | single => exact h
    | batch rest => cases hfree
  | polling channelId polls amount errand => cases errand with
    | single => exact h
    | batch rest => cases hfree
  | funding channelId amount errand => cases errand with
    | single => exact h
    | batch rest => cases hfree
  | settling closed => exact h
  | _ => cases hfree

theorem fits_openNext {partners : List Address}
    (h : b.funded.length + partners.length ≤ p.channelTarget.val) :
    (Membership.openNext p.perPartner partners).Fits p b := by
  cases partners with
  | nil => trivial
  | cons partner rest => exact ⟨rfl, h⟩

/-- What is left to be opened fits, also if a channel was funded meanwhile. -/
theorem Errand.Fits.finish {b' : Books} {amount : Amount} {errand : Errand}
    (h : errand.Fits p b amount) (hfunded : b'.funded.length ≤ b.funded.length + 1)
    (result : Except ConnectionError ChannelId) :
    (Membership.finishOpening errand amount result).Fits p b' := by
  cases errand with
  | single => exact absurd h id
  | batch rest =>
      obtain ⟨rfl, hrest⟩ := h
      exact fits_openNext (by omega)

theorem Errand.Fits.lookForChannel {amount : Amount} {errand : Errand}
    (h : errand.Fits p b amount) (channelId : ChannelId) (polls : Nat) :
    (m.lookForChannel s channelId polls amount errand).Fits p b := by
  unfold Membership.lookForChannel
  split
  · split
    · exact h.finish (Nat.le_succ _) _
    · exact h
  · split
    · exact h.finish (Nat.le_succ _) _
    · exact h

/-- As many channels are missing at most as are not counted. -/
theorem fits_addPartners (hpolicy : m.policy = p)
    (h : Balanced p (m.view.openIds s.tokenNetwork) b) : (m.addPartners s).Fits p b := by
  unfold Membership.addPartners
  rw [hpolicy]
  have hcount := h.length_le
  rw [NetworkView.openIds, List.length_map] at hcount
  -- No more partners are chosen than channels are missing, so the shares of all fit.
  by_cases hmissing : (m.view.openChannels s.tokenNetwork).length < p.channelTarget.val
  · refine fits_openNext ?_
    have htaken : (s.newPartners m.view (s.missing m.view p)).length ≤ s.missing m.view p :=
      List.length_take_le _ _
    unfold ConnectionSettings.missing at htaken ⊢
    omega
  · have hnone : s.missing m.view p = 0 := by
      unfold ConnectionSettings.missing
      omega
    rw [hnone, ConnectionSettings.newPartners, List.take_zero]
    trivial

theorem enter_funded_le (b : Books) (e : Entry) :
    (b.enter e).funded.length ≤ b.funded.length + 1 := by
  unfold Books.enter
  split
  · exact Nat.le_succ _
  · split
    · exact Nat.le_refl _
    · exact Nat.le_succ _

/-- What the end of a wait leaves: entries that are in order, books in balance, and an
    operation that stands where it may. -/
structure Tidy (s : ConnectionSettings) (p : Policy) (b : Books) (entries : List Entry)
    (m : Membership) (phase : Phase) : Prop where
  within : ∀ e ∈ entries, e.Within p
  balanced : Balanced p (m.view.openIds s.tokenNetwork) (entries.foldl Books.enter b)
  fits : phase.Fits p (entries.foldl Books.enter b)

theorem tidy_of_quiet {phase : Phase} (h : Balanced p (m.view.openIds s.tokenNetwork) b)
    (hfits : phase.Fits p b) : Tidy s p b [] m phase :=
  ⟨(fun _ he => nomatch he), h, hfits⟩

theorem tidy_of_deposit {phase : Phase} (h : Balanced p (m.view.openIds s.tokenNetwork) b)
    {channelId : ChannelId} {amount : Amount} (hshare : amount ≤ p.perPartner)
    (hroom : b.spent + amount.val ≤ p.funds.val + b.lag ∨ b.funded.length < p.channelTarget.val)
    (hfits : ∀ b' : Books, b'.funded.length ≤ b.funded.length + 1 → phase.Fits p b') :
    Tidy s p b [.deposited channelId amount
      (decide (channelId ∈ m.view.openIds s.tokenNetwork))] m phase where
  within := by
    intro e he
    rw [List.mem_singleton.mp he]
    exact hshare
  balanced := h.deposit hshare hroom
  fits := hfits (b.enter (.deposited channelId amount
    (decide (channelId ∈ m.view.openIds s.tokenNetwork)))) (enter_funded_le b _)

/-- An operation that uses the policy keeps to it. -/
theorem Phase.Fits.resume {phase : Phase} (hfits : phase.Fits p b)
    (huses : phase.usesPolicy = true) (hpolicy : m.policy = p)
    (h : Balanced p (m.view.openIds s.tokenNetwork) b) (w : Wake) :
    Tidy s p b (m.entries s phase w) m (m.resume s phase w).2 := by
  have hstay : Tidy s p b [] m phase := tidy_of_quiet h hfits
  cases phase with
  | queued op => cases huses
  | bootstrapping =>
      cases w with
      | answered answer =>
          cases answer with
          | error e => exact tidy_of_quiet h trivial
          | ok a => exact tidy_of_quiet h (fits_addPartners hpolicy h)
      | _ => exact hstay
  | opening partner amount errand =>
      have hsame := Errand.Fits.finish hfits (Nat.le_succ b.funded.length)
      cases w with
      | answered answer =>
          cases answer with
          | error e => exact tidy_of_quiet h (hsame (.error (.ledger e)))
          | ok a =>
              cases a with
              | opened channelId => exact tidy_of_quiet h (Errand.Fits.lookForChannel hfits _ _)
              | _ => exact tidy_of_quiet h (hsame (.error .channelNotVisible))
      | _ => exact hstay
  | polling channelId polls amount errand =>
      cases w with
      | ticked ok =>
          cases ok with
          | true => exact tidy_of_quiet h (Errand.Fits.lookForChannel hfits _ _)
          | false =>
              have hsame := Errand.Fits.finish hfits (Nat.le_succ b.funded.length)
              exact tidy_of_quiet h (hsame (.error .clockStopped))
      | _ => exact hstay
  | funding channelId amount errand =>
      cases w with
      | answered answer =>
          cases answer with
          | error e =>
              have hsame := Errand.Fits.finish hfits (Nat.le_succ b.funded.length)
              exact tidy_of_quiet h (hsame (.error (.ledger e)))
          | ok a =>
              have herrand : errand.Fits p b amount := hfits
              cases errand with
              | single => exact absurd hfits id
              | batch rest =>
                  -- The channel that is funded is one of those that are missing.
                  have hshare := herrand.1
                  have hrest := herrand.2
                  refine tidy_of_deposit h (Nat.le_of_eq (congrArg _ hshare)) (Or.inr (by omega)) ?_
                  exact fun b' hfunded => herrand.finish hfunded (.ok channelId)
      | _ => exact hstay
  | joining channelId amount =>
      cases w with
      | answered answer =>
          cases answer with
          | error e => exact tidy_of_quiet h trivial
          | ok a => exact tidy_of_deposit h hfits.1 (Or.inl hfits.2) (fun _ _ => trivial)
      | _ => exact hstay
  | closing current rest closed => exact absurd hfits id
  | settling closed => cases huses
  | ended result => cases huses

/-- Nothing happens to an operation that neither uses the policy nor gets it. -/
theorem Phase.Fits.resume_idle {phase : Phase} {w : Wake} (hfits : phase.Fits p b)
    (hfree : phase.usesPolicy = false) (hw : ∀ op, phase = .queued op → w ≠ .granted) :
    m.entries s phase w = [] ∧ m.resume s phase w = (m, phase) := by
  cases phase with
  | queued op =>
      cases w with
      | granted => exact absurd rfl (hw op rfl)
      | _ => cases op <;> exact ⟨rfl, rfl⟩
  | ended result => exact ⟨rfl, by cases w <;> rfl⟩
  | opening partner amount errand => cases errand with
    | single => exact absurd hfits id
    | batch rest => cases hfree
  | polling channelId polls amount errand => cases errand with
    | single => exact absurd hfits id
    | batch rest => cases hfree
  | funding channelId amount errand => cases errand with
    | single => exact absurd hfits id
    | batch rest => cases hfree
  | settling closed => exact absurd hfits id
  | _ => cases hfree

theorem val_min (a b : Amount) : (a.min b).val = min a.val b.val := by
  unfold Word.min
  split
  · rename_i hle
    exact (Nat.min_eq_left hle).symm
  · rename_i hle
    exact (Nat.min_eq_right (Nat.le_of_not_le hle)).symm

/-- Who joins a channel puts in at most a share, and at most what is left by what it saw. -/
theorem joiningFunds_le (m : Membership) (deposit : Amount) :
    m.joiningFunds s deposit ≤ m.policy.perPartner ∧
      (m.joiningFunds s deposit).val ≤ m.policy.funds.val - (s.sumDeposits m.view).val := by
  have hval : (m.joiningFunds s deposit).val
      = min (min deposit.val (m.policy.funds.val - (s.sumDeposits m.view).val))
        m.policy.perPartner.val := by
    rw [Membership.joiningFunds, val_min, val_min]
    rfl
  rw [Word.le_iff, hval]
  omega

theorem granted_joinChannel_cases (m : Membership) (partner : Address) (deposit : Amount) :
    (∃ result, (m.granted s (.joinChannel partner deposit)).2 = .ended result) ∨
    (m.isIdle s = false ∧ m.joiningFunds s deposit ≠ 0 ∧ ∃ channelId,
      (m.granted s (.joinChannel partner deposit)).2
        = .joining channelId (m.joiningFunds s deposit)) := by
  unfold Membership.granted
  dsimp only
  split
  · exact Or.inl ⟨_, rfl⟩
  · rename_i hbusy
    obtain ⟨hidle, hsome⟩ := Bool.or_eq_false_iff.mp (Bool.eq_false_iff.mpr hbusy)
    split
    · exact Or.inl ⟨_, rfl⟩
    · exact Or.inr ⟨hidle, of_decide_eq_false hsome, _, rfl⟩

/-- An operation that looked may join the channel. -/
theorem tidy_looked (hpolicy : m.policy = p) {channelId : ChannelId} {deposit : Amount}
    (hsome : m.joiningFunds s deposit ≠ 0) (h : Balanced p (m.view.openIds s.tokenNetwork) b) :
    Tidy s p b [.looked (s.sumDeposits m.view)] m
      (.joining channelId (m.joiningFunds s deposit)) where
  within := by
    intro e he
    rw [List.mem_singleton.mp he]
    trivial
  balanced := h.looked _
  fits := by
    subst hpolicy
    obtain ⟨hshare, hleft⟩ := joiningFunds_le (s := s) m deposit
    have hpos : (m.joiningFunds s deposit).val ≠ 0 :=
      fun h => hsome (Word.ext (h.trans Word.val_zero.symm))
    refine ⟨hshare, ?_⟩
    change b.spent + _ ≤ m.policy.funds.val + max b.lag (b.spent - (s.sumDeposits m.view).val)
    omega

/-- An operation that gets the policy keeps to it, whether the node joined already or not. -/
theorem tidy_granted {op : Operation} (hop : op.KeepsTo p)
    (hpolicy : m.policy = p ∨ m.policy = .empty)
    (h : Balanced p (m.view.openIds s.tokenNetwork) b) :
    Tidy s p b (m.entries s (.queued op) .granted) (m.granted s op).1 (m.granted s op).2 ∧
      ((m.granted s op).1.policy = p ∨
        ((m.granted s op).1.policy = .empty ∧ (m.granted s op).2.usesPolicy = false)) := by
  -- A node that did not join has nothing to do.
  have hidle : m.policy = .empty → m.isIdle s = true := by
    intro hempty
    rw [Membership.isIdle, hempty]
    rfl
  cases op with
  | connect q =>
      cases hop
      refine ⟨?_, Or.inl rfl⟩
      change Tidy s p b [] { m with policy := p } _
      refine tidy_of_quiet h ?_
      change Phase.Fits p b (if _ then _ else _)
      split
      · trivial
      · exact fits_addPartners (m := { m with policy := p }) rfl h
  | retryConnect =>
      rcases hpolicy with hpolicy | hempty
      · refine ⟨?_, Or.inl hpolicy⟩
        change Tidy s p b [] m (if _ then _ else _)
        refine tidy_of_quiet h ?_
        split
        · trivial
        · exact fits_addPartners hpolicy h
      · have hended : (m.granted s .retryConnect).2 = .ended .done := by
          change (if (m.isIdle s || _) = true then _ else _) = _
          rw [hidle hempty, Bool.true_or, if_pos rfl]
        rw [hended]
        exact ⟨tidy_of_quiet h trivial, Or.inr ⟨hempty, rfl⟩⟩
  | joinChannel partner deposit =>
      have hpolicy' : m.policy = p ∨ (m.policy = .empty ∧
          (m.granted s (.joinChannel partner deposit)).2.usesPolicy = false) := by
        refine hpolicy.imp_right (fun hempty => ⟨hempty, ?_⟩)
        rcases granted_joinChannel_cases (s := s) m partner deposit with
          ⟨result, hended⟩ | ⟨hbusy, -⟩
        · rw [hended]
          rfl
        · rw [hidle hempty] at hbusy
          cases hbusy
      refine ⟨?_, hpolicy'⟩
      change Tidy s p b _ m _
      rcases granted_joinChannel_cases (s := s) m partner deposit with
        ⟨result, hended⟩ | ⟨hbusy, hsome, channelId, hjoining⟩
      · have hnone : m.entries s (.queued (.joinChannel partner deposit)) .granted = [] := by
          simp only [Membership.entries, hended]
        rw [hnone, hended]
        exact tidy_of_quiet h trivial
      · have hlooked : m.entries s (.queued (.joinChannel partner deposit)) .granted
            = [.looked (s.sumDeposits m.view)] := by
          simp only [Membership.entries, hjoining]
        have hjoined : m.policy = p :=
          hpolicy.resolve_right (fun hempty => by simp [hidle hempty] at hbusy)
        rw [hlooked, hjoining]
        exact tidy_looked hjoined hsome h
  | leave onlyReceiving => exact absurd hop id
  | openAndDeposit partner amount => exact absurd hop id
  | wantsMoreChannels => exact ⟨tidy_of_quiet h trivial, hpolicy.imp_right (⟨·, rfl⟩)⟩
  | fundsRemaining => exact ⟨tidy_of_quiet h trivial, hpolicy.imp_right (⟨·, rfl⟩)⟩
  | leaveState => exact ⟨tidy_of_quiet h trivial, hpolicy.imp_right (⟨·, rfl⟩)⟩

end Fits

/-! ### Runs -/

namespace Desk

/-- Does a move leave the policy and our channels as they are? -/
def Admits (p : Policy) (d : Desk) : Move → Prop
  | .start op => op.KeepsTo p
  | .wake .. => True
  | .event e => e.ends = true → ∀ id, e.channelId? = some id → d.membership.view.find? id = none

/-- A run in which the node joins with one policy, if it does, does not leave, and keeps its
    channels. -/
def Undisturbed (s : ConnectionSettings) (p : Policy) : Desk → List Move → Prop
  | _, [] => True
  | d, move :: rest => d.Admits p move ∧ Undisturbed s p (d.after s move) rest

/-- What the state and the books of such a run keep to. -/
structure InBudget (s : ConnectionSettings) (p : Policy) (d : Desk) (b : Books) : Prop where
  alone : d.Alone
  policy : d.membership.policy = p ∨ (d.membership.policy = .empty ∧ d.isTaken = false)
  fits : ∀ phase ∈ d.phases, phase.Fits p b
  balanced : Balanced p (d.membership.view.openIds s.tokenNetwork) b

section InBudget

variable {s : ConnectionSettings} {p : Policy} {d : Desk} {b : Books}

theorem begin_fits (m : Membership) {op : Operation} (hop : op.KeepsTo p) :
    (m.begin s op).2.Fits p b := by
  cases op with
  | connect q =>
      unfold Membership.begin
      dsimp only
      split
      · exact hop
      · trivial
  | leave onlyReceiving => exact absurd hop id
  | openAndDeposit partner amount => exact absurd hop id
  | _ => trivial

/-- An operation that starts changes the block at most. -/
theorem begin_shared (m : Membership) (op : Operation) :
    (m.begin s op).1.policy = m.policy ∧
      (m.begin s op).1.view.openIds s.tokenNetwork = m.view.openIds s.tokenNetwork := by
  cases op with
  | connect q =>
      unfold Membership.begin
      dsimp only
      split
      · exact ⟨rfl, NetworkView.openIds_setBlocked _ _ _⟩
      · exact ⟨rfl, rfl⟩
  | _ => exact ⟨rfl, rfl⟩

theorem InBudget.start (h : InBudget s p d b) {op : Operation} (hop : op.KeepsTo p) :
    InBudget s p (d.after s (.start op)) b := by
  have hfree : (d.membership.begin s op).2.usesPolicy = false := d.membership.begin_usesPolicy s op
  obtain ⟨hpolicy, hview⟩ := begin_shared (s := s) d.membership op
  refine ⟨h.alone.after _, ?_, ?_, ?_⟩
  · change (d.membership.begin s op).1.policy = p ∨ _
    rw [hpolicy]
    refine h.policy.imp_right (fun ⟨hempty, htaken⟩ => ⟨hpolicy.trans hempty, ?_⟩)
    change (d.phases ++ [_]).any _ = false
    rw [List.any_append, List.any_cons, hfree]
    simpa [isTaken] using htaken
  · intro phase hphase
    rcases List.mem_append.mp hphase with hphase | hphase
    · exact h.fits phase hphase
    · rw [List.mem_singleton.mp hphase]
      exact begin_fits d.membership hop
  · change Balanced p ((d.membership.begin s op).1.view.openIds s.tokenNetwork) b
    rw [hview]
    exact h.balanced

theorem InBudget.event (h : InBudget s p d b) {e : ChainEvent}
    (he : e.ends = true → ∀ id, e.channelId? = some id → d.membership.view.find? id = none) :
    InBudget s p (d.after s (.event e)) b where
  alone := h.alone.after _
  policy := h.policy
  fits := h.fits
  balanced := h.balanced.mono (NetworkView.openIds_apply s.tokenNetwork he)

/-- One operation goes on while the others do not use the policy. -/
theorem InBudget.goesOn (h : InBudget s p d b) {before later : List Phase} {phase : Phase}
    {m : Membership} {phase' : Phase} {entries : List Entry}
    (hsplit : d.phases = before ++ phase :: later)
    (hothers : ∀ q ∈ before ++ later, q.usesPolicy = false)
    (htidy : Tidy s p b entries m phase')
    (hpolicy : m.policy = p ∨ (m.policy = .empty ∧ phase'.usesPolicy = false)) :
    InBudget s p ⟨m, before ++ phase' :: later⟩ (entries.foldl Books.enter b) where
  alone := alone_of_others phase' hothers
  policy := by
    refine hpolicy.imp_right (fun ⟨hempty, hfree⟩ => ⟨hempty, isTaken_eq_false_iff.mpr ?_⟩)
    intro q hq
    rcases List.mem_append.mp hq with hq | hq
    · exact hothers q (List.mem_append_left _ hq)
    · rcases List.mem_cons.mp hq with rfl | hq
      · exact hfree
      · exact hothers q (List.mem_append_right _ hq)
  fits := by
    have hstay : ∀ q ∈ before ++ later, q.Fits p (entries.foldl Books.enter b) := by
      intro q hq
      refine Phase.Fits.of_not_usesPolicy (h.fits q ?_) (hothers q hq)
      rw [hsplit]
      rcases List.mem_append.mp hq with hq | hq
      · exact List.mem_append_left _ hq
      · exact List.mem_append_right _ (List.mem_cons_of_mem _ hq)
    intro q hq
    rcases List.mem_append.mp hq with hq | hq
    · exact hstay q (List.mem_append_left _ hq)
    · rcases List.mem_cons.mp hq with rfl | hq
      · exact htidy.fits
      · exact hstay q (List.mem_append_right _ hq)
  balanced := htidy.balanced

theorem InBudget.wake (h : InBudget s p d b) (task : Nat) (w : Wake) :
    InBudget s p (d.after s (.wake task w)) ((d.entries s (.wake task w)).foldl Books.enter b) ∧
      ∀ e ∈ d.entries s (.wake task w), e.Within p := by
  rcases d.wake_cases (s := s) task w with
    ⟨hnone, heq⟩ | ⟨before, phase, later, hsome, hsplit, hfree, heq⟩
  · have hentries : d.entries s (.wake task w) = [] := by
      unfold entries
      simp only [hnone]
    rw [heq, hentries]
    exact ⟨h, fun _ he => nomatch he⟩
  · have hentries : d.entries s (.wake task w) = d.membership.entries s phase w := by
      unfold entries
      simp only [hsome]
    rw [heq, hentries]
    have hfits : phase.Fits p b := h.fits phase (by rw [hsplit]; simp)
    cases huses : phase.usesPolicy with
    | true =>
        -- It goes on by the books that it left itself, since nobody else wrote into them.
        have hothers := h.alone.others hsplit huses
        have hpolicy : d.membership.policy = p := by
          refine h.policy.resolve_right (fun ⟨_, htaken⟩ => ?_)
          rw [isTaken_eq_false_iff.mp htaken phase (by rw [hsplit]; simp)] at huses
          cases huses
        have htidy := hfits.resume huses hpolicy h.balanced w
        have hm : (d.membership.resume s phase w).1 = d.membership := by
          rcases d.membership.resume_cases s phase w with ⟨op, rfl, -, -⟩ | hm
          · cases huses
          · exact hm
        rw [hm]
        exact ⟨h.goesOn hsplit hothers htidy (Or.inl hpolicy), htidy.within⟩
    | false =>
        by_cases hgranted : ∃ op, phase = .queued op ∧ w = .granted
        · obtain ⟨op, rfl, rfl⟩ := hgranted
          obtain ⟨htidy, hpolicy⟩ :=
            tidy_granted hfits (h.policy.imp_right And.left) h.balanced
          exact ⟨h.goesOn hsplit (others_of_free hsplit (hfree rfl)) htidy hpolicy, htidy.within⟩
        · obtain ⟨hnone, hsame⟩ := hfits.resume_idle (s := s) (m := d.membership) huses
            (fun op hop hw => hgranted ⟨op, hop, hw⟩)
          rw [hnone, hsame, ← hsplit]
          exact ⟨h, fun _ he => nomatch he⟩

theorem InBudget.after (h : InBudget s p d b) {move : Move} (hmove : d.Admits p move) :
    InBudget s p (d.after s move) ((d.entries s move).foldl Books.enter b) ∧
      ∀ e ∈ d.entries s move, e.Within p := by
  cases move with
  | start op => exact ⟨h.start hmove, fun _ he => nomatch he⟩
  | wake task w => exact h.wake task w
  | event e => exact ⟨h.event hmove, fun _ he => nomatch he⟩

theorem InBudget.run {moves : List Move} (h : InBudget s p d b)
    (hmoves : Undisturbed s p d moves) :
    InBudget s p (d.run s moves)
        ((collect (Desk.after s) (Desk.entries s) d moves).foldl Books.enter b) ∧
      ∀ e ∈ collect (Desk.after s) (Desk.entries s) d moves, e.Within p := by
  induction moves generalizing d b with
  | nil => exact ⟨h, fun _ he => nomatch he⟩
  | cons move rest ih =>
      obtain ⟨hmove, hrest⟩ := hmoves
      obtain ⟨hnext, hwithin⟩ := h.after hmove
      obtain ⟨hlast, hlater⟩ := ih hnext hrest
      rw [← List.foldl_append] at hlast
      refine ⟨hlast, fun e he => ?_⟩
      rcases List.mem_append.mp he with he | he
      · exact hwithin e he
      · exact hlater e he

theorem inBudget_fresh (view : NetworkView) : InBudget s p (fresh ⟨view, .empty⟩) .empty where
  alone := Nat.zero_le 1
  policy := Or.inr ⟨rfl, rfl⟩
  fits := fun _ hphase => nomatch hphase
  balanced := balanced_empty

end InBudget

/-- What the deposits keep to, if a node joins with one policy, does not leave and keeps its
    channels. -/
structure BudgetLaw (s : ConnectionSettings) (p : Policy) (view : NetworkView)
    (moves : List Move) : Prop where
  /-- At most one operation uses the policy. -/
  alone : ((fresh ⟨view, .empty⟩).run s moves).Alone
  /-- No deposit is larger than a share. -/
  within : ∀ e ∈ collect (after s) (entries s) (fresh ⟨view, .empty⟩) moves, e.Within p
  /-- The funds are exceeded at most by the deposits that were not in view when an operation
      looked, or by those into channels that had one or were not open and in view, whichever
      are more. -/
  bound : ((fresh ⟨view, .empty⟩).books s moves).spent
    ≤ p.funds.val + max ((fresh ⟨view, .empty⟩).books s moves).lag
      ((fresh ⟨view, .empty⟩).books s moves).stray

/-- Every such run keeps to the law. -/
theorem run_budgetLaw {s : ConnectionSettings} {p : Policy} {view : NetworkView}
    {moves : List Move} (h : Undisturbed s p (fresh ⟨view, .empty⟩) moves) :
    BudgetLaw s p view moves := by
  obtain ⟨hlast, hwithin⟩ := (inBudget_fresh (s := s) (p := p) view).run h
  exact ⟨hlast.alone, hwithin, hlast.balanced.bound⟩

namespace Overspending

def us : Address := .replicate 20 1

def settings : ConnectionSettings := ⟨.replicate 20 170, us, .replicate 20 2, 100, 1, 1, 3⟩

/-- Two nodes that are not us, and a channel with each of them. -/
def node (n : UInt8) : Address := .replicate 20 n

def channelWith (n : UInt8) : ChannelId := .replicate 32 n

def opened (n : UInt8) : Move :=
  .event (.channelOpened settings.tokenNetwork (channelWith n) us (node n) 100 10)

/-- The ledger takes a deposit. -/
def taken (task : Nat) : Move := .wake task (.answered (.ok .done))

/-- We know of one node. -/
def view : NetworkView := (NetworkView.fresh us 5).addParticipant settings.tokenNetwork (node 17)

/-- A node that joined puts its funds into a channel, and before it hears of this puts them
    into another one. -/
def unseen : List Move :=
  [.start (.connect ⟨100, 1, 0.0⟩), .wake 0 .granted,
    .wake 0 (.answered (.ok (.opened (channelWith 17)))), opened 17, .wake 0 (.ticked true),
    taken 0, opened 18, .start (.joinChannel (node 18) 100), .wake 1 .granted, taken 1]

theorem undisturbed_unseen : Undisturbed settings ⟨100, 1, 0.0⟩ (fresh ⟨view, .empty⟩) unseen :=
  ⟨rfl, trivial, trivial, nofun, trivial, trivial, nofun, trivial, trivial, trivial, trivial⟩

/-- It deposits twice as much as it has. -/
theorem unseen_overspends : Undisturbed settings ⟨100, 1, 0.0⟩ (fresh ⟨view, .empty⟩) unseen ∧
    (Policy.mk 100 1 0.0).isValid = true ∧ settings.sumDeposits view = 0 ∧
    ((fresh ⟨view, .empty⟩).books settings unseen).spent = 200 :=
  ⟨undisturbed_unseen, by decide +kernel, by decide +kernel, by decide +kernel⟩

/-- Our deposit into a channel comes into view. -/
def seen (n : UInt8) (total : Amount) : Move :=
  .event (.channelNewDeposit settings.tokenNetwork (channelWith n) us total 11)

/-- A node puts two deposits into one channel, both of which it hears of, and with one unit
    left opens another channel, which gets a whole share. -/
def stray : List Move :=
  [opened 18, .start (.connect ⟨100, 2, 0.0⟩), .wake 0 .granted,
    .start (.joinChannel (node 18) 50), .wake 1 .granted, taken 1, seen 18 50,
    .start (.joinChannel (node 18) 49), .wake 2 .granted, taken 2, seen 18 99,
    .event (.channelOpened settings.tokenNetwork (channelWith 19) (node 17) (node 19) 100 12),
    .start .retryConnect, .wake 3 .granted,
    .wake 3 (.answered (.ok (.opened (channelWith 17)))), opened 17, .wake 3 (.ticked true),
    taken 3]

theorem undisturbed_stray :
    Undisturbed settings ⟨100, 2, 0.0⟩ (fresh ⟨NetworkView.fresh us 5, .empty⟩) stray :=
  ⟨nofun, rfl, trivial, trivial, trivial, trivial, nofun, trivial, trivial, trivial, nofun, nofun,
    trivial, trivial, trivial, nofun, trivial, trivial, trivial⟩

/-- It exceeds its funds by exactly as much as the law allows. -/
theorem run_budgetLaw_stray :
    Undisturbed settings ⟨100, 2, 0.0⟩ (fresh ⟨NetworkView.fresh us 5, .empty⟩) stray ∧
    BudgetLaw settings ⟨100, 2, 0.0⟩ (NetworkView.fresh us 5) stray ∧
    ((fresh ⟨NetworkView.fresh us 5, .empty⟩).books settings stray).spent = 149 ∧
    ((fresh ⟨NetworkView.fresh us 5, .empty⟩).books settings stray).lag = 0 ∧
    ((fresh ⟨NetworkView.fresh us 5, .empty⟩).books settings stray).stray = 49 :=
  ⟨undisturbed_stray, run_budgetLaw undisturbed_stray, by decide +kernel, by decide +kernel,
    by decide +kernel⟩

end Overspending

end Desk

end PaymentNetwork

import PaymentNetwork.Proofs.Broker.Carriage
import PaymentNetwork.Proofs.Broker.Queue
import PaymentNetwork.Proofs.Broker.Timeliness

/-!
# Transfers and Their Locks

Transfers and channels agree on the locks that a node sent.

A transfer that pays somebody and its channel each remember the lock, and they do so on
their own. The invariant couples the two: the pledges of all transfers in progress are
carried by the view, and no two of them are about the same place. While the effects of one
transfer are carried out, the coupling is looser for that transfer only. What it does with
its pledge is said by its conduct, and the others do not notice.

After that it is a matter of who may touch a lock. The ledger may, if it claims one of a
channel that it closed. The node itself takes back what expired, but whoever is in progress
after a block has a lock that did not expire.

## Main definitions

* `Queue.Guarded`, `Queue.Safe`: What is true while effects are carried out.
* `Broker.Pledges`, `Broker.Custody`: The pledges of a broker, and that its view carries
  them.
* `Broker.Truthful`, `BrokerInput.opened?`: What the ledger has to keep to.
* `Broker.CustodyLaw`: What a run keeps to.

## Theorems

* `Queue.Safe.step`: One effect leaves the coupling as it is.
* `Broker.Custody.settle`, `Broker.Custody.feedAll`: So do all effects of a transfer, and
  of all that are told a fact.
* `Broker.Custody.after`: So does an input.
* `Broker.run_custodyLaw`: The law for every run.
-/

namespace PaymentNetwork

/-! ### While effects are carried out -/

namespace Queue

open Broker

/-- The pledges of others and the one of a transfer are carried, and are not about the same
    place. -/
structure Guarded (foreign : Pledge → Prop) (view : NetworkView) (own? : Option Pledge) :
    Prop where
  others : ∀ q, foreign q → view.Carries q
  own : ∀ p, own? = some p → view.Carries p
  apart : ∀ p, own? = some p → ∀ q, foreign q → ¬ p.Clashes q

/-- What is left to do is the conduct of a transfer, whose pledge is guarded so far. -/
def Safe (foreign : Pledge → Prop) (block : Height) (q : Queue) : Prop :=
  ∃ own?, Guarded foreign q.view own? ∧ Transfer.Conduct own? block (q.transfer, q.effects)

section Safe

variable {foreign : Pledge → Prop} {block : Height} {q q' : Queue}

/-- A new lock is guarded if it was sent. -/
theorem Guarded.sent {view view' : NetworkView} {own? : Option Pledge}
    (h : Guarded foreign view own?) {recipient : Address} {channelId : ChannelId}
    {terms : TransferTerms} {m : LockedTransfer}
    (hsend : view.withPartnerChannel channelId recipient (·.sendTransfer terms block)
      = .ok (m, view')) :
    Guarded foreign view' (some ⟨recipient, channelId, terms.lock⟩) := by
  obtain ⟨hcarried, hothers⟩ := NetworkView.carries_of_sendTransfer hsend
  refine ⟨fun q hq => (hothers q (h.others q hq)).1, fun p hp => ?_, fun p hp q hq => ?_⟩
  · cases hp
    exact hcarried
  · cases hp
    exact (hothers q (h.others q hq)).2

/-- A pledge that is given up leaves the others guarded. -/
theorem Guarded.spent {view : NetworkView} {p : Pledge} (h : Guarded foreign view (some p))
    {e : Effect} (hspends : e.Spends p block) :
    Guarded foreign (perform view block e).view none :=
  ⟨fun q hq => (h.others q hq).perform hspends (h.apart p rfl q hq), (fun _ hp => nomatch hp),
    (fun _ hp => nomatch hp)⟩

/-- Carrying out one effect is safe. -/
theorem Safe.step (h : q.Safe foreign block) (hstep : Step block q q') : q'.Safe foreign block := by
  obtain ⟨own?, hguard, hconduct⟩ := h
  cases hstep with
  | @sent view view' t recipient channelId terms rest m hsend =>
      -- A locked transfer is neither quiet nor gives a lock up: the transfer is searching.
      rcases hconduct.first_cases rfl with ⟨hquiet, -⟩ | ⟨p, -, hspends, -⟩ |
        ⟨_, _, _, heq, hrest, hpledge, -⟩
      · cases hquiet
      · exact hspends.elim
      · cases heq
        cases hrest
        refine ⟨t.pledge?, ?_, .keeps (Or.inl rfl) rfl⟩
        rw [hpledge]
        exact hguard.sent hsend
  | @refused view t recipient channelId terms rest e refusal hsend hrefusal =>
      rcases hconduct.first_cases rfl with ⟨hquiet, -⟩ | ⟨p, -, hspends, -⟩ |
        ⟨_, _, _, heq, hrest, -, hseeks⟩
      · cases hquiet
      · exact hspends.elim
      · -- The search goes on where it is.
        cases heq
        cases hrest
        cases hrefusal
        exact ⟨own?, hguard, .seeks (hseeks e.describe)⟩
  | @performed view t effect rest hother =>
      rcases hconduct.first_cases rfl with ⟨hquiet, hlater⟩ | ⟨p, rfl, hspends, hlater⟩ |
        ⟨_, _, _, heq, -⟩
      · refine ⟨own?, ?_, hlater⟩
        rw [perform_view_of_quiet view block hquiet]
        exact hguard
      · exact ⟨none, hguard.spent hspends, hlater⟩
      · cases heq
        cases hother

/-- An effect that gives up a lock gets its turn while the lock is carried. -/
theorem Safe.sure (h : q.Safe foreign block) {view : NetworkView} {e : Effect}
    (hattempts : q.Attempts block view e) : view.Sure block e := by
  obtain ⟨t, rest, hreaches⟩ := hattempts
  obtain ⟨own?, hguard, hconduct⟩ := hreaches.invariant (fun _ _ => Safe.step) h
  rcases hconduct.first_cases rfl with ⟨hquiet, -⟩ | ⟨p, hp, hspends, -⟩ | ⟨_, _, _, rfl, -⟩
  · exact NetworkView.sure_of_isQuiet hquiet
  · exact (hguard.own p hp).sure hspends
  · trivial

/-- When all is done, the transfer that is left and the others are guarded. -/
theorem Safe.drain {view : NetworkView} {t : Transfer} {effects : List Effect}
    (h : Safe foreign block ⟨view, t, effects⟩) :
    Guarded foreign (drain view block t effects).2.view
      (Broker.drain view block t effects).1.pledge? := by
  obtain ⟨own?, hguard, hconduct⟩ :=
    (drain_reaches view block t effects).invariant (fun _ _ => Safe.step) h
  rcases hconduct.pledge?_of_nil rfl with heq | hnone
  · exact heq ▸ hguard
  · refine ⟨hguard.others, fun p hp => ?_, fun p hp => ?_⟩
    · cases hnone.symm.trans hp
    · cases hnone.symm.trans hp

end Safe

end Queue

namespace Broker

/-! ### The pledges of a broker -/

/-- The transfer in progress under a key stands for a pledge. -/
def Pledges (b : Broker) (k : TransferKey) (p : Pledge) : Prop :=
  ∃ t, b.transfers.get? k = some t ∧ t.pledge? = some p

/-- The view carries the pledges of the transfers in progress, no two of which are about
    the same place. -/
structure Custody (b : Broker) : Prop where
  engaged : ∀ k t, b.transfers.get? k = some t → t.Engaged
  clock : ∀ k t, b.transfers.get? k = some t → t.blockNumber ≤ b.block
  carried : ∀ k p, b.Pledges k p → b.view.Carries p
  apart : ∀ k k' p p', b.Pledges k p → b.Pledges k' p' → p.Clashes p' → k = k'

section Custody

variable {b b' : Broker} {t : Transfer} {effects : List Effect} {old? : Option Pledge}
  {fact : Input}

/-- The pledges of the transfers of other keys. -/
def OthersOf (b : Broker) (key : TransferKey) (q : Pledge) : Prop :=
  ∃ k, k ≠ key ∧ b.Pledges k q

/-- The conduct of a transfer is safe, if it is about the pledge of its key. -/
theorem Custody.safe (h : b.Custody) (hold : ∀ p, old? = some p → b.Pledges t.key p)
    (hconduct : Transfer.Conduct old? b.block (t, effects)) :
    Queue.Safe (b.OthersOf t.key) b.block ⟨b.view, t, effects⟩ := by
  refine ⟨old?, ⟨?_, ?_, ?_⟩, hconduct⟩
  · rintro q ⟨k, -, hq⟩
    exact h.carried k q hq
  · exact fun p hp => h.carried _ p (hold p hp)
  · rintro p hp q ⟨k, hk, hq⟩ hclash
    exact hk (h.apart _ _ p q (hold p hp) hq hclash).symm

/-- Whoever pledges something after a transfer is settled is the transfer as its effects
    left it, or another one that pledged it before. -/
theorem pledges_settle {k : TransferKey} {p : Pledge}
    (hp : (b.settle t effects).1.Pledges k p) :
    (k = t.key ∧ (drain b.view b.block t effects).1.pledge? = some p) ∨
    (k ≠ t.key ∧ b.Pledges k p) := by
  obtain ⟨t', ht', hpledge⟩ := hp
  by_cases hk : k = t.key
  · subst hk
    rw [get?_settle_self] at ht'
    split at ht'
    · cases ht'
    · cases ht'
      exact Or.inl ⟨rfl, hpledge⟩
  · rw [get?_settle_of_ne hk] at ht'
    exact Or.inr ⟨hk, t', ht', hpledge⟩

/-- Carrying out the reaction of a transfer leaves the view and the transfers coupled. -/
theorem Custody.settle (h : b.Custody) (hold : ∀ p, old? = some p → b.Pledges t.key p)
    (hreacts : Transfer.Reacts old? b.block (t, effects)) (hclock : t.blockNumber ≤ b.block) :
    (b.settle t effects).1.Custody := by
  have hguard := (h.safe hold hreacts.conduct).drain
  have hview : (b.settle t effects).1.view = (drain b.view b.block t effects).2.view := by
    rw [Broker.settle, keep_view]
  -- A refusal may change the transfer while its effects are carried out.
  have hsteady : Steady (fun t => t.Engaged ∧ t.blockNumber ≤ b.block) := by
    intro t refusal ht
    refine ⟨ht.1.refused refusal, Transfer.step_blockNumber_le ht.2 (fun number heq => ?_)⟩
    cases heq
  have hkept : ∀ k t', (b.settle t effects).1.transfers.get? k = some t' →
      t'.Engaged ∧ t'.blockNumber ≤ b.block := by
    intro k t' ht'
    rcases settle_keeps hsteady ⟨hreacts.engaged, hclock⟩ ht' with ⟨-, hnew⟩ | ⟨-, hbefore⟩
    · exact hnew
    · exact ⟨h.engaged k t' hbefore, h.clock k t' hbefore⟩
  refine ⟨fun k t' ht' => (hkept k t' ht').1, fun k t' ht' => ?_, fun k p hp => ?_,
    fun k k' p p' hp hp' hclash => ?_⟩
  · rw [settle_block]
    exact (hkept k t' ht').2
  · rw [hview]
    rcases pledges_settle hp with ⟨-, hnew⟩ | ⟨hk, hbefore⟩
    · exact hguard.own p hnew
    · exact hguard.others p ⟨k, hk, hbefore⟩
  · -- Two pledges of others were apart before, and a new one is apart from all of them.
    rcases pledges_settle hp with ⟨hk, hnew⟩ | ⟨hk, hbefore⟩
    · rcases pledges_settle hp' with ⟨hk', -⟩ | ⟨hk', hbefore'⟩
      · exact hk.trans hk'.symm
      · exact absurd hclash (hguard.apart p hnew p' ⟨k', hk', hbefore'⟩)
    · rcases pledges_settle hp' with ⟨hk', hnew'⟩ | ⟨hk', hbefore'⟩
      · have hclash' : p'.Clashes p := ⟨hclash.1.symm, hclash.2.symm⟩
        exact absurd hclash' (hguard.apart p' hnew' p ⟨k, hk, hbefore⟩)
      · exact h.apart k k' p p' hbefore hbefore' hclash

/-! ### Telling a fact -/

/-- What a transfer in progress does when it is told a fact. -/
theorem Custody.reacts (h : b.Custody) (hhonest : fact.Honest)
    (hblock : ∀ number, fact = .block number → number = b.block) {key : TransferKey}
    (ht : b.transfers.get? key = some t) : Transfer.Reacts t.pledge? b.block (t.step fact) := by
  refine Transfer.step_reacts (h.engaged key t ht) hhonest (fun number heq => ?_)
  rw [hblock number heq]
  exact ⟨h.clock key t ht, Nat.le_refl _⟩

theorem pledges_of_step (hf : b.Filed) {key : TransferKey} (ht : b.transfers.get? key = some t)
    (fact : Input) (p : Pledge) (hp : t.pledge? = some p) :
    b.Pledges (t.step fact).1.key p := by
  rw [t.step_key, (hf key t ht).1]
  exact ⟨t, ht, hp⟩

theorem Custody.feed (h : b.Custody) (hf : b.Filed) (hhonest : fact.Honest)
    (hblock : ∀ number, fact = .block number → number = b.block) (key : TransferKey) :
    (b.feed fact key).1.Custody := by
  cases ht : b.transfers.get? key with
  | none =>
      rw [feed_of_none ht]
      exact h
  | some t =>
      rw [feed_of_some ht]
      -- The transfer keeps its key, so the pledge that it had is filed where the new one is.
      refine h.settle (pledges_of_step hf ht fact) (h.reacts hhonest hblock ht) ?_
      refine Transfer.step_blockNumber_le (h.clock key t ht) (fun number heq => ?_)
      exact Nat.le_of_eq (congrArg Word.val (hblock number heq))

theorem feed_block (b : Broker) (i : Input) (key : TransferKey) :
    (b.feed i key).1.block = b.block :=
  feedAll_block b i [key]

/-- Telling a fact leaves the view and the transfers coupled. -/
theorem Custody.feedAll (h : b.Custody) (hf : b.Filed) (hhonest : fact.Honest)
    (hblock : ∀ number, fact = .block number → number = b.block) (keys : List TransferKey) :
    (b.feedAll fact keys).1.Custody := by
  induction keys generalizing b with
  | nil => exact h
  | cons key rest ih =>
      refine ih (h.feed hf hhonest hblock key) (feed_filed hf fact key) (fun number heq => ?_)
      exact (hblock number heq).trans (feed_block b fact key).symm

/-- No transfer that is told a fact gives up a lock in vain. -/
theorem Custody.tell_sure (h : b.Custody) (hf : b.Filed) (hhonest : fact.Honest)
    (hblock : ∀ number, fact = .block number → number = b.block) {keys : List TransferKey}
    {view : NetworkView} {e : Effect} (hattempts : TellAttempts fact view e b keys) :
    view.Sure b.block e := by
  induction keys generalizing b with
  | nil => exact hattempts.elim
  | cons key rest ih =>
      rcases hattempts with ⟨t, ht, hnow⟩ | hlater
      · exact (h.safe (pledges_of_step hf ht fact) (h.reacts hhonest hblock ht).conduct).sure hnow
      · have hsure := ih (h.feed hf hhonest hblock key) (feed_filed hf fact key)
          (fun number heq => (hblock number heq).trans (feed_block b fact key).symm) hlater
        rwa [feed_block] at hsure

/-- Taking back what expired takes nothing from a transfer that is current. -/
theorem Custody.tidy (h : b.Custody) (hscheduled : (b.tidy fact).Scheduled)
    (hblock : ∀ number, fact = .block number → number = b.block) : (b.tidy fact).Custody := by
  have htransfers := tidy_transfers b fact
  have hcarries : ∀ k p, b.Pledges k p → (b.tidy fact).view.Carries p := by
    rintro k p ⟨t, ht, hp⟩
    have hcarried := h.carried k p ⟨t, ht, hp⟩
    cases fact with
    | block number =>
        cases hblock number rfl
        -- Whoever is in progress saw this block, so its lock did not expire with it.
        have hcurrent : t.Current b.block := hscheduled k t ht
        exact hcarried.removeLocks (Transfer.lt_of_pledge? (h.engaged k t ht) hcurrent hp) _
    | _ => exact hcarried
  refine ⟨fun k t ht => h.engaged k t (htransfers ▸ ht), fun k t ht => ?_, fun k p hp => ?_,
    fun k k' p p' hp hp' => ?_⟩
  · rw [tidy_block]
    exact h.clock k t (htransfers ▸ ht)
  · obtain ⟨t, ht, hpledge⟩ := hp
    exact hcarries k p ⟨t, htransfers ▸ ht, hpledge⟩
  · obtain ⟨t, ht, hpledge⟩ := hp
    obtain ⟨t', ht', hpledge'⟩ := hp'
    exact h.apart k k' p p' ⟨t, htransfers ▸ ht, hpledge⟩ ⟨t', htransfers ▸ ht', hpledge'⟩

end Custody

end Broker

/-! ### What reaches a broker -/

namespace BrokerInput

/-- The channel that the ledger tells to be opened. -/
def opened? : BrokerInput → Option ChannelId
  | chain (.channelOpened _ channelId _ _ _ _) => some channelId
  | _ => none

section Opened

variable {ids : List ChannelId} {i : BrokerInput} {rest : List BrokerInput}

/-- An opening moves its identifier from the inputs to come to those that are known. -/
theorem append_filterMap_opened? (ids : List ChannelId) (i : BrokerInput)
    (rest : List BrokerInput) : ids ++ (i :: rest).filterMap opened?
      = (ids ++ i.opened?.toList) ++ rest.filterMap opened? := by
  rw [List.append_assoc]
  cases hid : i.opened? with
  | none => rw [List.filterMap_cons_none hid, Option.toList_none, List.nil_append]
  | some id => rw [List.filterMap_cons_some hid, Option.toList_some, List.singleton_append]

/-- A channel that is opened next was not opened before. -/
theorem opened?_not_mem (h : (ids ++ (i :: rest).filterMap opened?).Nodup) {id : ChannelId}
    (hid : i.opened? = some id) : id ∉ ids := by
  intro hmem
  rw [List.filterMap_cons_some hid] at h
  exact (List.nodup_append.mp h).2.2 id hmem id List.mem_cons_self rfl

end Opened

end BrokerInput

namespace Broker

/-- The ledger claims locks of channels only that are not open any more, and registers
    every secret under its hash. -/
def Truthful (b : Broker) : BrokerInput → Prop
  | .chain (.channelUnlocked _ channelId _ _ _ _) =>
    ∀ c, b.view.channel? channelId = some c → c.isOpen = false
  | .chain (.secretRegistered secret secretHash _) => hashSecret secret = secretHash
  | _ => True

/-- The ledger does so with every input of a run. -/
def TruthfulAll : Broker → List BrokerInput → Prop
  | _, [] => True
  | b, i :: rest => b.Truthful i ∧ (b.after i).TruthfulAll rest

/-- No channel has another identifier than these. -/
def Known (ids : List ChannelId) (b : Broker) : Prop :=
  Holds (fun id _ => id ∈ ids) (fun _ => True) b

section Inputs

variable {revealTimeout : Height} {b b' : Broker} {i : BrokerInput} {fact : Input}
  {keys : List TransferKey} {t : Transfer} {effects : List Effect} {ids : List ChannelId}

theorem closed_known (ids : List ChannelId) :
    Closed (fun id _ => id ∈ ids) (fun _ => True) :=
  ⟨fun _ _ _ _ _ hid _ => hid, fun _ _ _ => trivial⟩

/-- Only an opening brings a new identifier. -/
theorem Known.after (h : Known ids b) (i : BrokerInput) :
    Known (ids ++ i.opened?.toList) (b.after i) := by
  have hmono : Known (ids ++ i.opened?.toList) b :=
    h.mono (fun _ _ hid => List.mem_append_left _ hid) (fun _ _ => trivial)
  refine hmono.after_of_base (closed_known _) ?_ (fun _ _ _ _ => trivial)
  rcases base_view_cases b i with heq | ⟨e, rfl, heq⟩ | ⟨m, tokenNetwork, c, c', haccepts, heq⟩
  · rw [heq]
    exact hmono.channels
  · rw [heq]
    refine hmono.channels.apply_of_opened (fun _ id _ _ _ _ _ he => ?_) (fun _ _ hid => hid)
    subst he
    exact List.mem_append_right _ (List.mem_singleton.mpr rfl)
  · rw [heq]
    exact hmono.channels.putChannel haccepts.found
      (hmono.channels _ c (NetworkView.channel?_of_find? haccepts.found))

/-- What comes before the transfers are concerned leaves a pledge carried. -/
theorem carries_base (hregular : Regular revealTimeout b) (hknown : Known ids b)
    (htruthful : b.Truthful i) (hnew : ∀ id, i.opened? = some id → id ∉ ids) {p : Pledge}
    (hp : b.view.Carries p) : (b.reaction i).base.view.Carries p := by
  rcases base_view_cases b i with heq | ⟨e, rfl, heq⟩ | ⟨m, tokenNetwork, c, c', haccepts, heq⟩
  · rw [heq]
    exact hp
  · rw [heq]
    refine hp.apply ?_ ?_
    · rintro tokenNetwork participant1 participant2 settleTimeout block rfl
      -- The channel of the pledge was opened before.
      obtain ⟨c, hc, -⟩ := hp
      exact hnew _ rfl (hknown.channels _ c hc)
    · intro c hc hopen hid
      cases e with
      | channelUnlocked tokenNetwork channelId participant secretHash amount block =>
          cases hid
          cases (htruthful c hc).symm.trans hopen
      | _ => rfl
  · rw [heq]
    have hc := hregular.holds.channels _ c (NetworkView.channel?_of_find? haccepts.found)
    exact hp.accept haccepts.found (hc.sound .partner) haccepts.accepted

theorem Custody.base (h : b.Custody) (hregular : Regular revealTimeout b) (hknown : Known ids b)
    (htruthful : b.Truthful i) (hnew : ∀ id, i.opened? = some id → id ∉ ids) :
    (b.reaction i).base.Custody := by
  have htransfers := base_transfers b i
  have hpledges : ∀ k p, (b.reaction i).base.Pledges k p → b.Pledges k p := by
    rintro k p ⟨t, ht, hp⟩
    exact ⟨t, htransfers ▸ ht, hp⟩
  refine ⟨fun k t ht => h.engaged k t (htransfers ▸ ht), fun k t ht => ?_, fun k p hp => ?_,
    fun k k' p p' hp hp' => h.apart k k' p p' (hpledges k p hp) (hpledges k' p' hp')⟩
  · -- A block moves the clock before the transfers see it.
    have hbefore := h.clock k t (htransfers ▸ ht)
    rcases base_block b i with heq | ⟨number, keys, heq, -, hnews⟩
    · rw [heq]
      exact hbefore
    · rw [heq]
      exact Nat.le_of_lt (Nat.lt_of_le_of_lt hbefore hnews)
  · exact carries_base hregular hknown htruthful hnew (h.carried k p (hpledges k p hp))

/-- A fact tells of secrets under their hashes. -/
theorem Truthful.honest (h : b.Truthful i) (hfact : i.fact? = some fact) : fact.Honest := by
  cases i with
  | pay terms => cases hfact
  | message sender m =>
      cases m with
      | lockedTransfer m => cases hfact
      | secretReveal m =>
          cases hfact
          rfl
      | _ =>
          cases hfact
          trivial
  | block number order =>
      cases hfact
      trivial
  | chain e =>
      cases hfact
      cases e with
      | secretRegistered secret secretHash block => exact h
      | _ => trivial

theorem Told.block_eq (htold : b.Told i b' fact keys) (number : Height)
    (heq : fact = .block number) : number = b'.block := by
  rw [htold.block, heq]
  rfl

/-- What a transfer begins with. -/
theorem Started.reacts (hstart : b.Started i b' t effects) :
    Transfer.Reacts none b'.block (t, effects) := by
  rcases hstart.begins with ⟨terms, -, heq⟩ | ⟨sender, m, c, c', -, -, -, heq⟩
  · rw [heq]
    exact Transfer.initiator_start_reacts _ _ _
  · rw [heq]
    unfold beginOffered
    split
    · exact Transfer.target_start_reacts _ _ _
    · exact Transfer.mediator_start_reacts _ _ _

/-- A transfer begins with the clock of the node. -/
theorem Started.blockNumber (hstart : b.Started i b' t effects) : t.blockNumber = b.block := by
  rcases hstart.begins with ⟨terms, -, heq⟩ | ⟨sender, m, c, c', -, -, -, heq⟩
  · cases heq
    exact Initiator.start_blockNumber _ _
  · have ht : t = (beginOffered b'.view b.block c'.route m).1 := congrArg Prod.fst heq
    rw [ht]
    unfold beginOffered
    split
    · exact Target.start_blockNumber _ _
    · exact Mediator.tryNextRoute_blockNumber _

/-- An input leaves the view and the transfers coupled. -/
theorem Custody.after (h : b.Custody) (hdisciplined : Disciplined revealTimeout b)
    (hknown : Known ids b) (hvisits : b.Visits i) (htruthful : b.Truthful i)
    (hnew : ∀ id, i.opened? = some id → id ∉ ids) : (b.after i).Custody := by
  have hbase := h.base hdisciplined.regular hknown htruthful hnew
  have hscheduled := (hdisciplined.after hvisits).scheduled
  rw [after_eq] at hscheduled ⊢
  cases hreaction : b.reaction i with
  | tell b' fact keys =>
      have htold := tell_of_reaction hreaction
      rw [hreaction] at hbase hscheduled
      have hfiled : b'.Filed := (hdisciplined.filed.holds htold.transfers).toFiled
      have hfed := hbase.feedAll hfiled (htruthful.honest htold.tells) htold.block_eq keys
      exact hfed.tidy hscheduled (fun number heq =>
        (htold.block_eq number heq).trans (feedAll_block b' fact keys).symm)
  | start b' t effects =>
      have hstart := start_of_reaction hreaction
      rw [hreaction] at hbase
      have hnone : ∀ p, none = some p → b'.Pledges t.key p := fun _ hp => nomatch hp
      refine hbase.settle hnone hstart.reacts ?_
      exact Nat.le_of_eq (congrArg Word.val (hstart.blockNumber.trans hstart.block.symm))
  | rest b' =>
      rw [hreaction] at hbase
      exact hbase

/-- No transfer gives up a lock in vain because of an input. -/
theorem Custody.sure (h : b.Custody) (hdisciplined : Disciplined revealTimeout b)
    (hknown : Known ids b) (htruthful : b.Truthful i)
    (hnew : ∀ id, i.opened? = some id → id ∉ ids) {view : NetworkView} {e : Effect}
    (hattempts : b.Attempts i view e) : view.Sure (b.after i).block e := by
  have hbase := h.base hdisciplined.regular hknown htruthful hnew
  rw [block_of_reaction]
  unfold Attempts at hattempts
  cases hreaction : b.reaction i with
  | tell b' fact keys =>
      have htold := tell_of_reaction hreaction
      rw [hreaction] at hbase hattempts
      have hfiled : b'.Filed := (hdisciplined.filed.holds htold.transfers).toFiled
      exact hbase.tell_sure hfiled (htruthful.honest htold.tells) htold.block_eq hattempts
  | start b' t effects =>
      have hstart := start_of_reaction hreaction
      rw [hreaction] at hbase hattempts
      have hnone : ∀ p, none = some p → b'.Pledges t.key p := fun _ hp => nomatch hp
      exact (hbase.safe hnone hstart.reacts.conduct).sure hattempts
  | rest b' =>
      rw [hreaction] at hattempts
      exact hattempts.elim

end Inputs

/-! ### Any run -/

/-- What a run keeps to. For every payment in progress, and for every transfer that was
    passed on and whose lock was not taken back, there is the lock in the channel that it
    goes over, as long as that is open: with the same amount, expiration and hash, and for
    nobody else. So what gives up a lock in an open channel is not refused, whichever input
    it was because of and whatever was carried out before. -/
structure CustodyLaw (b₀ : Broker) (inputs : List BrokerInput) : Prop where
  initiators : ∀ k s, (b₀.run inputs).transfers.get? k = some (.initiator s) →
    ∃ r, s.route? = some r ∧
      (b₀.run inputs).view.Carries ⟨r.node, r.channelId, s.terms.lock⟩
  mediators : ∀ k s, (b₀.run inputs).transfers.get? k = some (.mediator s) →
    s.status = .forwardedToNextHop → s.downstreamLockRemoved = false →
    ∃ r t, s.payeeRoute? = some r ∧ s.offered? = some t ∧
      t.secretHash = s.received.secretHash ∧
      (b₀.run inputs).view.Carries ⟨r.node, r.channelId, t.lock⟩
  apart : ∀ k k' p p', (b₀.run inputs).Pledges k p → (b₀.run inputs).Pledges k' p' →
    p.Clashes p' → k = k'
  sure : ∀ before i later, inputs = before ++ i :: later → ∀ view e,
    (b₀.run before).Attempts i view e → view.Sure ((b₀.run before).after i).block e

/-- What the transfers and channels of a node have to be for them to agree. -/
structure Kept (revealTimeout : Height) (ids : List ChannelId) (b : Broker) : Prop where
  disciplined : Disciplined revealTimeout b
  known : Known ids b
  custody : b.Custody

section Run

variable {revealTimeout : Height} {ids : List ChannelId} {b : Broker}

theorem kept_fresh (ourAddress : Address) (revealTimeout block : Height) :
    Kept revealTimeout [] (fresh (NetworkView.fresh ourAddress revealTimeout) block) := by
  have hnone : ∀ k t, (fresh (NetworkView.fresh ourAddress revealTimeout)
      block).transfers.get? k ≠ some t := by
    intro k t ht
    rw [fresh, SortedMap.get?_empty] at ht
    cases ht
  refine ⟨disciplined_fresh ourAddress revealTimeout block,
    holds_fresh (NetworkView.holds_fresh ourAddress revealTimeout) block, ?_⟩
  refine ⟨fun k t ht => absurd ht (hnone k t), fun k t ht => absurd ht (hnone k t), ?_, ?_⟩
  · rintro k p ⟨t, ht, -⟩
    exact absurd ht (hnone k t)
  · rintro k k' p p' ⟨t, ht, -⟩
    exact absurd ht (hnone k t)

theorem Kept.after (h : Kept revealTimeout ids b) {i : BrokerInput} (hvisits : b.Visits i)
    (htruthful : b.Truthful i) (hnew : ∀ id, i.opened? = some id → id ∉ ids) :
    Kept revealTimeout (ids ++ i.opened?.toList) (b.after i) :=
  ⟨h.disciplined.after hvisits, h.known.after i,
    h.custody.after h.disciplined h.known hvisits htruthful hnew⟩

/-- A run keeps what one input keeps, and none of its inputs is in vain. -/
theorem Kept.run (h : Kept revealTimeout ids b) {inputs : List BrokerInput}
    (hvisits : b.VisitsAll inputs) (htruthful : b.TruthfulAll inputs)
    (hopened : (ids ++ inputs.filterMap BrokerInput.opened?).Nodup) :
    (∃ ids', Kept revealTimeout ids' (b.run inputs)) ∧
    ∀ before i later, inputs = before ++ i :: later → ∀ view e,
      (b.run before).Attempts i view e → view.Sure ((b.run before).after i).block e := by
  induction inputs generalizing b ids with
  | nil =>
      refine ⟨⟨ids, h⟩, fun before i later heq => ?_⟩
      exact absurd heq.symm (List.append_ne_nil_of_right_ne_nil _ (List.cons_ne_nil _ _))
  | cons i rest ih =>
      have hnew : ∀ id, i.opened? = some id → id ∉ ids := fun id =>
        BrokerInput.opened?_not_mem hopened
      rw [BrokerInput.append_filterMap_opened?] at hopened
      obtain ⟨hkept, hsure⟩ := ih (h.after hvisits.1 htruthful.1 hnew) hvisits.2 htruthful.2
        hopened
      refine ⟨hkept, fun before j later heq => ?_⟩
      cases before with
      | nil =>
          cases heq
          exact fun view e => h.custody.sure h.disciplined h.known htruthful.1 hnew
      | cons first before =>
          cases heq
          exact hsure before j later rfl

theorem Kept.initiator (h : Kept revealTimeout ids b) {k : TransferKey} {s : Initiator}
    (hs : b.transfers.get? k = some (.initiator s)) :
    ∃ r, s.route? = some r ∧ b.view.Carries ⟨r.node, r.channelId, s.terms.lock⟩ := by
  have hprogress : ¬ s.status.isTerminal = true :=
    Bool.eq_false_iff.mp (h.disciplined.filed k _ hs).2
  obtain ⟨r, hroute⟩ := h.custody.engaged k _ hs hprogress
  exact ⟨r, hroute, h.custody.carried k _ ⟨_, hs, Initiator.pledge?_eq hprogress hroute⟩⟩

theorem Kept.mediator (h : Kept revealTimeout ids b) {k : TransferKey} {s : Mediator}
    (hs : b.transfers.get? k = some (.mediator s)) (hforwarded : s.status = .forwardedToNextHop)
    (hopen : s.downstreamLockRemoved = false) :
    ∃ r t, s.payeeRoute? = some r ∧ s.offered? = some t ∧
      t.secretHash = s.received.secretHash ∧
      b.view.Carries ⟨r.node, r.channelId, t.lock⟩ := by
  obtain ⟨r, t, hoffered⟩ := h.custody.engaged k _ hs hforwarded
  exact ⟨r, t, hoffered.route, hoffered.offer, hoffered.secretHash,
    h.custody.carried k _ ⟨_, hs, hoffered.pledge?_eq hforwarded hopen⟩⟩

/-- In any run whose blocks visit all transfers in progress, and whose ledger opens no
    channel twice, claims no lock of an open channel and registers secrets under their
    hashes, the transfers and the channels agree on the locks that were sent. -/
theorem run_custodyLaw (ourAddress : Address) (revealTimeout block : Height)
    (inputs : List BrokerInput)
    (hvisits : (fresh (NetworkView.fresh ourAddress revealTimeout) block).VisitsAll inputs)
    (hopened : (inputs.filterMap BrokerInput.opened?).Nodup)
    (htruthful : (fresh (NetworkView.fresh ourAddress revealTimeout) block).TruthfulAll inputs) :
    CustodyLaw (fresh (NetworkView.fresh ourAddress revealTimeout) block) inputs := by
  obtain ⟨⟨ids, hkept⟩, hsure⟩ :=
    (kept_fresh ourAddress revealTimeout block).run hvisits htruthful hopened
  exact ⟨fun k s hs => hkept.initiator hs,
    fun k s hs hforwarded hopen => hkept.mediator hs hforwarded hopen, hkept.custody.apart, hsure⟩

end Run

end Broker

/-! ### A payment of ours -/

namespace OutgoingPayment

open Broker DoubleOffer

/-- The channel is opened, and we deposit. -/
def opening : List BrokerInput :=
  [.chain (.channelOpened large.tokenNetwork large.channelId payee payer 20 1),
    .chain (.channelNewDeposit large.tokenNetwork large.channelId payee 100 2)]

/-- The channel after that. -/
def funded : Channel :=
  { Channel.fresh large.channelId large.tokenNetwork payee payer 5 20 1 with
    ours := { ChannelEnd.fresh payee with contractBalance := 100 } }

/-- A payment of fifty to the partner. -/
def terms : TransferTerms :=
  ⟨1, large.tokenNetwork, 50, payee, payer, 100, hashSecret large.secret, some large.secret⟩

/-- The payment while it waits for the request of the secret. -/
def waiting : Initiator where
  ourAddress := payee
  terms := terms
  routes := ⟨[], [], []⟩
  route? := some funded.route
  blockNumber := 10
  status := .waitingSecretRequest
  counterpartOnChain := false
  secretRegistered := false

theorem find?_opening :
    ((fresh (NetworkView.fresh payee 5) 10).run opening).view.find? large.channelId
      = some (large.tokenNetwork, funded) := by decide +kernel

theorem routes_opening :
    ((fresh (NetworkView.fresh payee 5) 10).run opening).view.routes large.tokenNetwork
      = [funded.route] := by decide +kernel

theorem start_payment : Initiator.start ⟨payee, terms, [funded.route]⟩ 10
    = (waiting, [.sendLockedTransfer payer large.channelId { terms with secret? := none }]) := by
  have hmatches : Initiator.secretMatches terms = true := by
    change opens large.secret (hashSecret large.secret) = true
    rw [opens, decide_eq_true_eq]
  have hearly : ¬ terms.expiration ≤ (10 : Height) := by decide
  unfold Initiator.start
  simp only [hmatches, if_neg hearly]
  rfl

theorem sendTransfer_funded :
    ∃ r, funded.sendTransfer { terms with secret? := none } 10 = .ok r := by
  have hopen : ¬ (!funded.isOpen) = true := by decide
  have hnew : ¬ funded.ours.pendingLocks.contains (hashSecret large.secret) = true :=
    fun h => nomatch h
  have hearly : ¬ (100 : Height) ≤ 10 := by decide
  have hroom : ¬ funded.ourDistributable < 50 := by decide
  exact ⟨_, (if_neg hopen).trans ((if_neg hnew).trans ((if_neg hearly).trans (if_neg hroom)))⟩

/-- The payment begins. -/
def inputs : List BrokerInput := opening ++ [.pay terms]

/-- The channel takes the lock, so the payment is in progress. -/
theorem run_inputs : ∃ m c', funded.sendTransfer { terms with secret? := none } 10 = .ok (m, c') ∧
    ((fresh (NetworkView.fresh payee 5) 10).run inputs).view.find? large.channelId
      = some (large.tokenNetwork, c') ∧
    ((fresh (NetworkView.fresh payee 5) 10).run inputs).transfers.get?
      ⟨.initiator, hashSecret large.secret⟩ = some (.initiator waiting) := by
  have hrun : (fresh (NetworkView.fresh payee 5) 10).run inputs
      = ((fresh (NetworkView.fresh payee 5) 10).run opening).after (.pay terms) :=
    List.foldl_append
  rw [hrun]
  -- Of the opened network only what follows matters, not how it came about.
  generalize hb : (fresh (NetworkView.fresh payee 5) 10).run opening = b
  have hus : b.view.ourAddress = payee := by
    rw [← hb]
    decide +kernel
  have hblock : b.block = 10 := by
    rw [← hb]
    decide +kernel
  have hnew : ¬ b.transfers.contains ⟨.initiator, hashSecret large.secret⟩ = true := by
    rw [← hb]
    exact fun h => nomatch h
  have hroutes : b.view.routes terms.tokenNetwork = [funded.route] := hb ▸ routes_opening
  have hfind : b.view.find? large.channelId = some (large.tokenNetwork, funded) :=
    hb ▸ find?_opening
  have hreaction := reaction_pay b terms
  rw [hus, hblock, hroutes, start_payment] at hreaction
  obtain ⟨⟨m, c'⟩, hsend⟩ := sendTransfer_funded
  have hsent : b.view.withPartnerChannel large.channelId payer
      (·.sendTransfer { terms with secret? := none } 10)
      = .ok (m, b.view.putChannel large.tokenNetwork large.channelId c') :=
    NetworkView.withPartnerChannel_eq_ok_iff.mpr ⟨_, funded, c', hfind, rfl, hsend, rfl⟩
  have hdrain : drain b.view b.block (.initiator waiting)
      [.sendLockedTransfer payer large.channelId { terms with secret? := none }]
      = (.initiator waiting, ⟨b.view.putChannel large.tokenNetwork large.channelId c',
        [.send payer (.lockedTransfer m)]⟩) := by
    rw [hblock, drain, hsent]
    dsimp only
    rw [drain]
  have hself := get?_settle_self b (.initiator waiting)
    [.sendLockedTransfer payer large.channelId { terms with secret? := none }]
  rw [hdrain] at hself
  rw [after_eq, hreaction.trans (if_neg hnew)]
  refine ⟨m, c', hsend, ?_, hself⟩
  change ((b.settle (.initiator waiting)
    [.sendLockedTransfer payer large.channelId { terms with secret? := none }]).1.view).find?
      large.channelId = _
  rw [settle, keep_view, hdrain]
  exact NetworkView.find?_putChannel_self hfind

theorem get?_inputs : ((fresh (NetworkView.fresh payee 5) 10).run inputs).transfers.get?
    ⟨.initiator, hashSecret large.secret⟩ = some (.initiator waiting) := by
  obtain ⟨-, -, -, -, hwaiting⟩ := run_inputs
  exact hwaiting

/-- A block visits whoever is in progress, and the ledger shows the secret. -/
def continued : List BrokerInput :=
  inputs ++ [.block 11 ((fresh (NetworkView.fresh payee 5) 10).run inputs).transfers.keys,
    .chain (.secretRegistered large.secret (hashSecret large.secret) 11)]

theorem visitsAll_continued : (fresh (NetworkView.fresh payee 5) 10).VisitsAll continued := by
  rw [continued, visitsAll_append]
  exact ⟨⟨trivial, trivial, trivial, trivial⟩, visits_keys _ 11, trivial, trivial⟩

theorem nodup_continued : (continued.filterMap BrokerInput.opened?).Nodup :=
  List.pairwise_singleton _ large.channelId

theorem truthfulAll_continued : (fresh (NetworkView.fresh payee 5) 10).TruthfulAll continued :=
  ⟨trivial, trivial, trivial, trivial, rfl, trivial⟩

theorem run_custodyLaw_continued :
    ((fresh (NetworkView.fresh payee 5) 10).run inputs).transfers.get?
        ⟨.initiator, hashSecret large.secret⟩ = some (.initiator waiting) ∧
    (fresh (NetworkView.fresh payee 5) 10).VisitsAll continued ∧
    (continued.filterMap BrokerInput.opened?).Nodup ∧
    (fresh (NetworkView.fresh payee 5) 10).TruthfulAll continued ∧
    CustodyLaw (fresh (NetworkView.fresh payee 5) 10) continued :=
  ⟨get?_inputs, visitsAll_continued, nodup_continued, truthfulAll_continued,
    run_custodyLaw payee 5 10 continued visitsAll_continued nodup_continued
      truthfulAll_continued⟩

end OutgoingPayment

end PaymentNetwork

import PaymentNetwork.Proofs.Broker.Facts
import PaymentNetwork.Proofs.Broker.Receipt
import PaymentNetwork.Proofs.Broker.Timeliness
import PaymentNetwork.Proofs.Transfer.Payer

/-!
# The End of a Dispute

Until when a node waits for a payer whose channel was closed.

A channel that was closed can be settled when its settle timeout is over, and what was not
claimed until then is lost. A node that waits for its payer to unlock a lock goes to the
ledger a reveal timeout before the lock expires. It notes when the channel was closed, but
this does not change when it goes. So whether it comes in time is decided by the lock that
the payer chose: it does if the lock expires early enough, and if the lock lasts longer
than the dispute, then the node still waits when the dispute is over.

Both follow from what ends the wait of a transfer. A transfer in progress runs as a machine
on the facts that reach it, and of these only an unlock of the payer and a block at the
deadline or after it end the wait. What the transfer knows of the channel is what was
reported since it began, as a channel that takes an offer is open.

## Main definitions

* `BrokerInput.lastClosing?`: The block at which a channel was closed, as it was reported.
* `Payer.WindowOver`: The dispute about the channel with the payer is over.
* `Broker.Waiting`: A transfer in progress waits for its payer.
* `Broker.WindowLaw`: What a run keeps to.

## Theorems

* `Broker.payer_after`, `Broker.payer_since`: What transfers know of their payers.
* `Broker.Waiting.after`: What does not end the wait.
* `Broker.Waiting.due`: What ends it with a claim.
* `Broker.run_windowLaw`: The law for every run.
-/

namespace PaymentNetwork

namespace BrokerInput

/-- The block at which the channel was closed, if the input reports that. -/
def closing? (id : ChannelId) (i : BrokerInput) : Option Height :=
  i.fact?.bind (·.closing? id)

/-- The block at which the channel was closed, as some inputs reported it last. -/
def lastClosing? (id : ChannelId) (inputs : List BrokerInput) : Option Height :=
  inputs.foldl (fun closed? i => (i.closing? id).or closed?) none

theorem lastClosing?_concat (id : ChannelId) (inputs : List BrokerInput) (i : BrokerInput) :
    lastClosing? id (inputs ++ [i]) = (i.closing? id).or (lastClosing? id inputs) :=
  List.foldl_append

end BrokerInput

namespace Payer

/-- What is known of the channel after an input. -/
def heard (p : Payer) (i : BrokerInput) : Payer := p.noted (i.closing? p.route.channelId)

/-- Is the dispute window of the channel over at a block? -/
def WindowOver (p : Payer) (now : Height) : Prop :=
  ∃ closed, p.route.closedBlock? = some closed ∧
    closed.val + p.route.settleTimeout.val ≤ now.val

theorem heard_of_fact? {p : Payer} {i : BrokerInput} {fact : Input} (h : i.fact? = some fact) :
    p.heard i = p.told fact := by
  rw [heard, BrokerInput.closing?, h]
  rfl

end Payer

namespace Broker

/-! ### What one input tells a transfer -/

section Input

variable {log : List Offer} {b : Broker} {i : BrokerInput} {fact : Input} {k : TransferKey}
  {t t' : Transfer} {p : Payer} {b' : Broker} {keys : List TransferKey}

/-- A transfer that is called is told the fact first. -/
theorem feedFacts_of_mem (hf : b.Filed) (ht : b.transfers.get? k = some t) (hmem : k ∈ keys) :
    ∃ rest, b.feedFacts fact k keys = fact :: rest := by
  induction keys generalizing b with
  | nil => cases hmem
  | cons key rest ih =>
      rw [feedFacts]
      by_cases hkey : key = k
      · subst hkey
        rw [turnFacts_self ht]
        exact ⟨_, rfl⟩
      · rw [turnFacts_of_ne hkey, List.nil_append]
        refine ih (feed_filed hf fact key) ?_ ((List.mem_cons.mp hmem).resolve_left (Ne.symm hkey))
        rw [get?_feed_of_ne hf (Ne.symm hkey), ht]

/-- What a transfer that is called does to collect is done. -/
theorem deeds_subset_feedAll (hf : b.Filed) (ht : b.transfers.get? k = some t) (hmem : k ∈ keys) :
    Effect.deeds (t.step fact).2 ⊆ deeds (b.feedAll fact keys).2 := by
  induction keys generalizing b with
  | nil => cases hmem
  | cons key rest ih =>
      rw [feedAll_deeds_cons]
      by_cases hkey : key = k
      · subst hkey
        rw [feed_deeds ht]
        exact List.subset_append_left _ _
      · refine List.Subset.trans (ih (feed_filed hf fact key) ?_
          ((List.mem_cons.mp hmem).resolve_left (Ne.symm hkey))) (List.subset_append_right _ _)
        rw [get?_feed_of_ne hf (Ne.symm hkey), ht]

theorem facts_of_told (hf : b.Filed) (ht : b.transfers.get? k = some t)
    (hreaction : b.reaction i = .tell b' fact keys) (hmem : k ∈ keys) :
    ∃ rest, b.facts k i = fact :: rest := by
  have htold := tell_of_reaction hreaction
  rw [facts, hreaction]
  exact feedFacts_of_mem (fun k t ht => hf k t (htold.transfers ▸ ht)) (htold.transfers ▸ ht) hmem

/-- Everybody is told of a closing. -/
theorem facts_of_closing (hf : b.Filed) (ht : b.transfers.get? k = some t) {id : ChannelId}
    (hclosing : i.closing? id ≠ none) :
    ∃ fact rest, i.fact? = some fact ∧ b.facts k i = fact :: rest := by
  have hprogress : b.transfers.get? k ≠ none := ht ▸ Option.some_ne_none t
  have hkeys : k ∈ b.transfers.keys := visits_keys b 0 k hprogress
  cases i with
  | chain e =>
      cases e with
      | channelClosed tokenNetwork channelId closer closed =>
          have hreaction : b.reaction
            (.chain (.channelClosed tokenNetwork channelId closer closed)) = .tell _ _ _ := rfl
          obtain ⟨rest, hrest⟩ := facts_of_told hf ht hreaction hkeys
          exact ⟨_, rest, rfl, hrest⟩
      | _ => exact absurd rfl hclosing
  | message sender m =>
      cases m with
      | _ => exact absurd rfl hclosing
  | _ => exact absurd rfl hclosing

/-- What a transfer in progress knows of the channel with its payer after an input. -/
theorem payer_after (hf : b.Filed) (ht : b.transfers.get? k = some t)
    (ht' : (b.after i).transfers.get? k = some t') : t'.payer? = t.payer?.map (·.heard i) := by
  have hrun := (react_tracks (i := i) hf ht).transfer
  rw [ht', kept] at hrun
  split at hrun
  · cases hrun
  rename_i hprogress
  rw [Option.some.inj hrun]
  cases hpayer : t.payer? with
  | none => exact Transfer.run_payer?_of_none hpayer _
  | some p =>
      rw [Option.map_some]
      have hknown : ∀ f ∈ b.facts k i, (p.heard i).told f = p.heard i := by
        intro f hf
        rcases mem_facts hf with hfact | ⟨refusal, rfl⟩
        · rw [Payer.heard_of_fact? hfact, p.told_told]
        · exact Payer.told_refusal _ refusal
      by_cases hclosing : i.closing? p.route.channelId = none
      · -- Nothing is reported about the channel.
        have hheard : p.heard i = p := by
          rw [Payer.heard, hclosing, p.noted_none]
        rw [hheard] at hknown ⊢
        exact Transfer.run_payer? hpayer hknown hprogress
      · obtain ⟨fact, rest, hfact, hfacts⟩ := facts_of_closing hf ht hclosing
        have hbefore : ¬ t.isTerminal = true := Bool.eq_false_iff.mp (hf k t ht).2
        rw [hfacts, Machine.run_cons] at hprogress
        rw [hfacts] at hknown ⊢
        -- The first fact reports it, and the others nothing else.
        have hfirst : (t.step fact).1.payer? = some (p.heard i) := by
          rw [Transfer.step_payer? hbefore, hpayer, Payer.heard_of_fact? hfact]
          rfl
        exact Transfer.run_payer? hfirst (fun f hmem => hknown f (List.mem_cons_of_mem fact hmem))
          hprogress

/-! ### How a transfer with a payer begins -/

theorem beginOffered_payer? (view : NetworkView) (block : Height) (payerRoute : Route)
    (m : LockedTransfer) :
    (beginOffered view block payerRoute m).1.payer? = some ⟨payerRoute, false⟩ := by
  unfold beginOffered
  split
  · unfold Target.start
    dsimp only
    split
    · rfl
    · rfl
  · obtain ⟨s, hstart, -, honChain, -, hroute⟩ := Mediator.start_eq_tryNextRoute
      ⟨view.ourAddress, payerRoute, m, view.routes m.balanceProof.tokenNetwork⟩ block
    change some (Mediator.start _ block).1.payer = _
    rw [hstart, Mediator.tryNextRoute_payer, Mediator.payer, hroute, honChain]

/-- A channel that takes an offer is open. -/
theorem closedBlock?_of_receiveTransfer {c c' : Channel} {m : LockedTransfer} {now : Height}
    (hs : c.partner.Sound) (h : c.receiveTransfer m now = .ok c') : c'.closedBlock? = none := by
  obtain ⟨hopen, -, -, -, rfl⟩ := (Channel.receiveTransfer_eq_ok_iff hs).mp h
  have hstatus : c.status = .opened := of_decide_eq_true hopen
  rw [Channel.closedBlock?]
  dsimp only
  rw [hstatus]

/-- When a transfer begins, the channel with its payer is open. -/
theorem payer_begun (h : b.Logged log) (hfree : b.transfers.get? k = none)
    (ht : (b.after i).transfers.get? k = some t) (hpayer : t.payer? = some p) :
    p.route.closedBlock? = none ∧ p.onChain = false ∧ ∀ id, i.closing? id = none := by
  by_cases hstarts : ∃ b' t₀ effects, b.reaction i = .start b' t₀ effects ∧ t₀.key = k
  · obtain ⟨b', t₀, effects, hreaction, rfl⟩ := hstarts
    have hstarted := start_of_reaction hreaction
    rw [after_eq, hreaction, Reaction.outcome, get?_settle_self, drain_refusals] at ht
    split at ht
    · cases ht
    rename_i hprogress
    cases ht
    rcases hstarted.begins with ⟨terms, -, heq⟩ | ⟨sender, m, c, c', rfl, hc, hop, heq⟩
    · obtain rfl : t₀ = _ := congrArg Prod.fst heq
      rw [Transfer.run_payer?_of_none rfl] at hpayer
      cases hpayer
    · -- Refusals tell nothing about the channel that filed the offer.
      have hroute : t₀.payer? = some ⟨c'.route, false⟩ := by
        obtain rfl : t₀ = _ := congrArg Prod.fst heq
        exact beginOffered_payer? _ _ _ _
      have hknown : ∀ f ∈ refusals b'.view b'.block t₀ effects,
          Payer.told ⟨c'.route, false⟩ f = ⟨c'.route, false⟩ := by
        intro f hf
        obtain ⟨refusal, rfl⟩ := exists_of_mem_refusals hf
        exact Payer.told_refusal _ refusal
      rw [Transfer.run_payer? hroute hknown hprogress] at hpayer
      cases hpayer
      exact ⟨closedBlock?_of_receiveTransfer ((h.channels _ c hc).sound .partner) hop, rfl,
        fun _ => rfl⟩
  · have hidle := react_idle (i := i) h.toFiled hfree
      (fun b' t₀ effects hreaction hkey => hstarts ⟨b', t₀, effects, hreaction, hkey⟩)
    cases hidle.1.symm.trans ht

/-- A transfer knows what was reported of the channel with its payer since it began. -/
theorem payer_since (h : b.Logged log) (hfree : b.transfers.get? k = none)
    {since : List BrokerInput} (hkeeps : b.KeepsInProgress k since)
    (ht : (b.run since).transfers.get? k = some t) (hpayer : t.payer? = some p) :
    p.route.closedBlock? = BrokerInput.lastClosing? p.route.channelId since ∧
      p.onChain = p.route.closedBlock?.isSome := by
  induction since using List.reverseRec generalizing t p with
  | nil =>
      rw [run_nil, hfree] at ht
      cases ht
  | append_singleton since i ih =>
      rw [run_append, run_cons, run_nil] at ht
      rw [BrokerInput.lastClosing?_concat]
      have hlogged := run_logged h since
      cases hbefore : (b.run since).transfers.get? k with
      | none =>
          -- It begins with this input, or there would have been one before.
          have hfirst : since = [] := by
            by_contra hne
            exact (keepsInProgress_concat.mp hkeeps).1 since List.prefix_rfl hne hbefore
          subst hfirst
          obtain ⟨hclosed, honChain, hsilent⟩ := payer_begun h hfree ht hpayer
          rw [hclosed, honChain, hsilent]
          exact ⟨rfl, rfl⟩
      | some t₀ =>
          have hheard := payer_after hlogged.toFiled hbefore ht
          rw [hpayer, eq_comm, Option.map_eq_some_iff] at hheard
          obtain ⟨p₀, hpayer₀, rfl⟩ := hheard
          obtain ⟨hclosed, honChain⟩ := ih (keepsInProgress_concat.mp hkeeps).1 hbefore hpayer₀
          refine ⟨congrArg (Option.or (i.closing? p₀.route.channelId)) hclosed, ?_⟩
          rw [Payer.heard, Payer.noted, honChain, Option.isSome_or]

end Input

/-! ### Waiting for the payer -/

/-- A transfer in progress knows the secret and waits for its payer to unlock. -/
structure Waiting (b : Broker) (k : TransferKey) (t : Transfer) (p : Payer) : Prop where
  inProgress : b.transfers.get? k = some t
  awaits : t.awaitsUnlock = true
  payer : t.payer? = some p

section Waiting

variable {b : Broker} {k : TransferKey} {t : Transfer} {p : Payer} {i : BrokerInput}

/-- A block is told by a block. -/
theorem exists_order_of_fact? {number : Height} (h : i.fact? = some (.block number)) :
    ∃ order, i = .block number order := by
  cases i with
  | block number' order =>
      cases h
      exact ⟨order, rfl⟩
  | message sender m =>
      cases m with
      | _ => cases h
  | _ => cases h

/-- An unlock is told by the message of whoever unlocked. -/
theorem exists_unlock_of_fact? {f : Input} (h : i.fact? = some f) {node : Address}
    {secretHash : SecretHash} (hunlock : f.isUnlockOf node secretHash = true) :
    ∃ u, i = .message node (.unlock u) ∧ hashSecret u.secret = secretHash := by
  cases i with
  | message sender m =>
      cases m with
      | unlock u =>
          cases h
          obtain ⟨rfl, hhash⟩ : sender = node ∧ hashSecret u.secret = secretHash :=
            of_decide_eq_true hunlock
          exact ⟨u, rfl, hhash⟩
      | lockedTransfer m => cases h
      | _ =>
          cases h
          cases hunlock
  | pay terms => cases h
  | _ =>
      cases h
      cases hunlock

/-- Neither a block before the deadline nor anything else but the payer's unlock ends the
    wait, and a closing of the channel is noted. -/
theorem Waiting.after (h : b.Waiting k t p) (hf : b.Filed)
    (hearly : ∀ number order, i = .block number order → number < t.deadline)
    (hproof : ∀ u, i = .message p.route.node (.unlock u) → hashSecret u.secret ≠ t.secretHash) :
    ∃ t', (b.after i).Waiting k t' (p.heard i) ∧ t'.deadline = t.deadline := by
  have hrun := (react_tracks (i := i) hf h.inProgress).transfer
  -- Refusals are no blocks, and no unlocks.
  have hblocks : ∀ number, .block number ∈ b.facts k i → number < t.deadline := by
    intro number hmem
    rcases mem_facts hmem with hfact | ⟨refusal, heq⟩
    · obtain ⟨order, rfl⟩ := exists_order_of_fact? hfact
      exact hearly number order rfl
    · cases heq
  have hproofs : ∀ f ∈ b.facts k i, f.isUnlockOf p.route.node t.secretHash = false := by
    intro f hmem
    rw [← Bool.not_eq_true]
    intro hunlock
    rcases mem_facts hmem with hfact | ⟨refusal, rfl⟩
    · obtain ⟨u, rfl, hhash⟩ := exists_unlock_of_fact? hfact hunlock
      exact hproof u rfl hhash
    · cases hunlock
  obtain ⟨hwaits, hdeadline⟩ := Transfer.run_waiting h.awaits h.payer hblocks hproofs
  rw [kept, if_neg (Transfer.not_isTerminal_of_awaitsUnlock hwaits)] at hrun
  refine ⟨_, ⟨hrun, hwaits, ?_⟩, hdeadline⟩
  rw [payer_after hf h.inProgress hrun, h.payer]
  rfl

/-- A block at the deadline or after it ends the wait with a claim of the lock. -/
theorem Waiting.due (h : b.Waiting k t p) (hf : b.Filed) (hprepared : t.Prepared)
    {number : Height} {order : List TransferKey} (hmem : k ∈ order) (hnews : b.block < number)
    (hdue : t.deadline ≤ number) :
    (b.after (.block number order)).transfers.get? k = none ∧
    ∃ o secret, t.offer? = some o ∧
      t.claimDeeds o secret p.onChain (t.expiration.satSub 1)
        ((t.expiration.satSub 1).satAdd p.route.settleTimeout)
        ⊆ deeds (b.react (.block number order)).2 := by
  have hreaction : b.reaction (.block number order)
      = .tell { b with block := number } (.block number) order := by
    rw [reaction_block, if_neg (Word.not_le.mpr hnews)]
  have hf' : Filed { b with block := number } := hf
  obtain ⟨hterminal, o, secret, ho, hclaim⟩ := Transfer.step_due h.awaits h.payer hprepared hdue
  obtain ⟨rest, hfacts⟩ := facts_of_told hf h.inProgress hreaction hmem
  refine ⟨?_, o, secret, ho, ?_⟩
  · rw [(react_tracks hf h.inProgress).transfer, hfacts, Machine.run_cons,
      Transfer.run_of_isTerminal hterminal, kept_of_isTerminal hterminal]
  · rw [← hclaim, react_deeds, hreaction]
    exact deeds_subset_feedAll hf' h.inProgress hmem

end Waiting

/-! ### Any run -/

/-- What a run keeps to. The transfers know what was reported of the channels with their
    payers. If the deadline of a transfer that waits for its payer is not after the end of
    the dispute about the channel, then the dispute is not over. The deadline is when the
    wait is over: until then no input ends it but an unlock of the payer, and the first
    block that comes then makes the node go to the ledger. -/
structure WindowLaw (b₀ : Broker) (inputs : List BrokerInput) : Prop where
  reported : ∀ k t p, (b₀.run inputs).transfers.get? k = some t → t.payer? = some p →
    ∃ before since, inputs = before ++ since ∧ (b₀.run before).transfers.get? k = none ∧
      (b₀.run before).KeepsInProgress k since ∧
      p.route.closedBlock? = BrokerInput.lastClosing? p.route.channelId since ∧
      p.onChain = p.route.closedBlock?.isSome
  inTime : ∀ k t p, (b₀.run inputs).Waiting k t p →
    (∀ closed, p.route.closedBlock? = some closed →
      t.deadline.val ≤ closed.val + p.route.settleTimeout.val) →
    ¬ p.WindowOver (b₀.run inputs).block
  waits : ∀ k t p, (b₀.run inputs).Waiting k t p → ∀ i,
    (∀ number order, i = .block number order → number < t.deadline) →
    (∀ u, i = .message p.route.node (.unlock u) → hashSecret u.secret ≠ t.secretHash) →
    ∃ t', ((b₀.run inputs).after i).Waiting k t' (p.heard i) ∧ t'.deadline = t.deadline
  claims : ∀ k t p, (b₀.run inputs).Waiting k t p → ∀ number order,
    (b₀.run inputs).Visits (.block number order) → (b₀.run inputs).block < number →
    t.deadline ≤ number →
    ((b₀.run inputs).after (.block number order)).transfers.get? k = none ∧
    ∃ o secret, t.offer? = some o ∧
      t.claimDeeds o secret p.onChain (t.expiration.satSub 1)
        ((t.expiration.satSub 1).satAdd p.route.settleTimeout)
        ⊆ deeds ((b₀.run inputs).react (.block number order)).2

/-- In any run whose blocks visit all transfers in progress, a claim comes before the
    dispute about the payer's channel is over, if the deadline of the transfer does. -/
theorem run_windowLaw (ourAddress : Address) (revealTimeout block : Height)
    (inputs : List BrokerInput)
    (hvisits : (fresh (NetworkView.fresh ourAddress revealTimeout) block).VisitsAll inputs) :
    WindowLaw (fresh (NetworkView.fresh ourAddress revealTimeout) block) inputs := by
  have hgrounded := grounded_fresh ourAddress revealTimeout block
  have hrun := run_disciplined (disciplined_fresh ourAddress revealTimeout block) hvisits
  constructor
  case reported =>
    intro k t p ht hpayer
    have hprogress : ((fresh (NetworkView.fresh ourAddress revealTimeout) block).run
        inputs).transfers.get? k ≠ none := ht ▸ Option.some_ne_none t
    obtain ⟨before, since, rfl, hfree, hkeeps⟩ :=
      exists_beginning (SortedMap.get?_empty k) inputs hprogress
    rw [run_append] at ht
    have hlogged := (run_grounded hgrounded before).logged
    exact ⟨before, since, rfl, hfree, hkeeps, payer_since hlogged hfree hkeeps ht hpayer⟩
  case inTime =>
    rintro k t p h hbound ⟨closed, hclosed, hover⟩
    have hearly := (hrun.timely h.inProgress).onTime
    have hdeadline := hbound closed hclosed
    rw [Word.lt_iff] at hearly
    omega
  case waits =>
    intro k t p h i hearly hproof
    exact h.after hrun.filed hearly hproof
  case claims =>
    intro k t p h number order hvisits hnews hdue
    have hprogress : ((fresh (NetworkView.fresh ourAddress revealTimeout) block).run
        inputs).transfers.get? k ≠ none := h.inProgress ▸ Option.some_ne_none t
    exact h.due hrun.filed (hrun.scheduled k t h.inProgress).prepared (hvisits k hprogress) hnews
      hdue

end Broker

/-! ### A payer that closes the channel -/

namespace ClosedWindow

open Broker DoubleOffer

/-- The payer offers a lock that lasts for ninety blocks, and its secret becomes known. -/
def revealed : List BrokerInput :=
  EarlyUnlock.inputs ++ [.message payer (.secretReveal ⟨large.secret⟩)]

/-- The payer closes the channel, which can be settled twenty blocks later. -/
def closing : BrokerInput := .chain (.channelClosed large.tokenNetwork large.channelId payer 11)

/-- A block that visits whoever is in progress after some inputs. -/
def visit (number : Height) (before : List BrokerInput) : BrokerInput :=
  .block number ((fresh (NetworkView.fresh payee 5) 10).run before).transfers.keys

/-- The last block of the dispute comes. -/
def disputed : List BrokerInput := revealed ++ [closing] ++ [visit 30 (revealed ++ [closing])]

/-- The dispute is over. -/
def inputs : List BrokerInput := disputed ++ [visit 31 disputed]

theorem visitsAll_concat {before : List BrokerInput} {number : Height}
    (h : (fresh (NetworkView.fresh payee 5) 10).VisitsAll before) :
    (fresh (NetworkView.fresh payee 5) 10).VisitsAll (before ++ [visit number before]) :=
  visitsAll_append.mpr ⟨h, visits_keys _ number, trivial⟩

theorem visitsAll_inputs : (fresh (NetworkView.fresh payee 5) 10).VisitsAll inputs :=
  visitsAll_concat (visitsAll_concat ⟨trivial, trivial, trivial, trivial, trivial, trivial⟩)

theorem waiting_revealed : ((fresh (NetworkView.fresh payee 5) 10).run revealed).Waiting
    ⟨.target, hashSecret large.secret⟩ (.target large.waiting) ⟨large.filed.route, false⟩ := by
  have hrun : (fresh (NetworkView.fresh payee 5) 10).run revealed
      = ((fresh (NetworkView.fresh payee 5) 10).run EarlyUnlock.inputs).after
        (.message payer (.secretReveal ⟨large.secret⟩)) := List.foldl_append
  have hget : ∀ k, ((fresh (NetworkView.fresh payee 5) 10).run EarlyUnlock.inputs).transfers.get? k
      = if k = ⟨.target, hashSecret large.secret⟩ then some (.target large.target) else none := by
    intro k
    rw [EarlyUnlock.run_inputs]
    exact get?_keep_of_not_isTerminal rfl k
  have hreveal := after_reveal (g := large)
    ((hget ⟨.initiator, hashSecret large.secret⟩).trans (if_neg (by simp)))
    ((hget ⟨.mediator, hashSecret large.secret⟩).trans (if_neg (by simp)))
    ((hget ⟨.target, hashSecret large.secret⟩).trans (if_pos rfl))
  rw [hrun, hreveal]
  exact ⟨(get?_keep_of_not_isTerminal rfl _).trans (if_pos rfl), rfl, rfl⟩

/-- The channel with the payer after the closing. -/
def closed : Payer := ⟨{ large.filed.route with closedBlock? := some 11 }, true⟩

theorem windowOver_closed {now : Height} (h : 31 ≤ now) : closed.WindowOver now :=
  ⟨11, rfl, Word.le_iff.mp h⟩

/-- The transfer waits, with the closing in mind, until five blocks before the expiration. -/
def WaitsOn (b : Broker) : Prop :=
  ∃ t, b.Waiting ⟨.target, hashSecret large.secret⟩ t closed ∧ t.deadline = 95

theorem waitsOn_closing {b : Broker} (hf : b.Filed)
    (h : b.Waiting ⟨.target, hashSecret large.secret⟩ (.target large.waiting)
      ⟨large.filed.route, false⟩) : WaitsOn (b.after closing) := by
  obtain ⟨t, hnoted, hdeadline⟩ := h.after (i := closing) hf (fun number order heq => nomatch heq)
    (fun u heq => nomatch heq)
  have hclosing : closing.closing? large.filed.route.channelId = some 11 := by decide
  have hclosed : Payer.heard ⟨large.filed.route, false⟩ closing = closed := by
    rw [Payer.heard, hclosing]
    rfl
  have hninetyFive : Word.satSub 100 5 = (95 : Height) := by decide
  rw [hclosed] at hnoted
  exact ⟨t, hnoted, hdeadline.trans hninetyFive⟩

/-- A block before the deadline leaves the transfer waiting. -/
theorem WaitsOn.block {b : Broker} (hf : b.Filed) (h : WaitsOn b) {number : Height}
    (hearly : number < 95) (order : List TransferKey) :
    WaitsOn (b.after (.block number order)) := by
  obtain ⟨t, hwaits, hdeadline⟩ := h
  have hbefore : ∀ number' order', BrokerInput.block number order = .block number' order' →
      number' < t.deadline := by
    rintro number' order' heq
    cases heq
    rw [hdeadline]
    exact hearly
  obtain ⟨t', hwaits', hsame⟩ := hwaits.after hf hbefore (fun u heq => nomatch heq)
  exact ⟨t', hwaits', hsame.trans hdeadline⟩

theorem filed (before : List BrokerInput) :
    ((fresh (NetworkView.fresh payee 5) 10).run before).Filed :=
  (run_fresh_grounded payee 5 10 before).logged.toFiled

theorem run_concat (before : List BrokerInput) (i : BrokerInput) :
    (fresh (NetworkView.fresh payee 5) 10).run (before ++ [i])
      = ((fresh (NetworkView.fresh payee 5) 10).run before).after i :=
  List.foldl_append

theorem waitsOn_inputs : WaitsOn ((fresh (NetworkView.fresh payee 5) 10).run disputed) ∧
    WaitsOn ((fresh (NetworkView.fresh payee 5) 10).run inputs) := by
  have hclosing := waitsOn_closing (filed revealed) waiting_revealed
  rw [← run_concat] at hclosing
  have hdisputed : WaitsOn ((fresh (NetworkView.fresh payee 5) 10).run disputed) := by
    rw [disputed, run_concat]
    exact hclosing.block (filed _) (by decide) _
  refine ⟨hdisputed, ?_⟩
  rw [inputs, run_concat]
  exact hdisputed.block (filed _) (by decide) _

/-- The transfer still waits for the payer when the dispute about the channel is over. -/
theorem waits_past_window :
    (fresh (NetworkView.fresh payee 5) 10).VisitsAll inputs ∧ closing ∈ inputs ∧
    ∃ t p, ((fresh (NetworkView.fresh payee 5) 10).run inputs).Waiting
        ⟨.target, hashSecret large.secret⟩ t p ∧
      p.route.channelId = large.channelId ∧ p.route.closedBlock? = some 11 ∧
      p.WindowOver ((fresh (NetworkView.fresh payee 5) 10).run inputs).block := by
  obtain ⟨-, t, hwaits, -⟩ := waitsOn_inputs
  have hclosing : closing ∈ inputs := by
    simp only [inputs, disputed, List.mem_append, List.mem_singleton, true_or, or_true]
  have hover : (31 : Height) ≤ ((fresh (NetworkView.fresh payee 5) 10).run inputs).block := by
    rw [inputs, run_concat, visit]
    exact le_block_after _ 31 _
  exact ⟨visitsAll_inputs, hclosing, t, closed, hwaits, rfl, rfl, windowOver_closed hover⟩

theorem run_windowLaw_closed :
    WaitsOn ((fresh (NetworkView.fresh payee 5) 10).run inputs) ∧
    (fresh (NetworkView.fresh payee 5) 10).VisitsAll inputs ∧
    WindowLaw (fresh (NetworkView.fresh payee 5) 10) inputs :=
  ⟨waitsOn_inputs.2, visitsAll_inputs, run_windowLaw payee 5 10 inputs visitsAll_inputs⟩

end ClosedWindow

end PaymentNetwork

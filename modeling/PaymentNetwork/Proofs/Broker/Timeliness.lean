import PaymentNetwork.Proofs.Broker.Clock
import PaymentNetwork.Proofs.Broker.Reaction
import PaymentNetwork.Proofs.Transfer.Timeliness

/-!
# A Node Is in Time

Every transfer in progress saw the last block, and its deadline is still to come.

The map of transfers and the clock of the node are changed by the same inputs, but not
at the same moment: a block first moves the clock, and then the transfers are told one
after the other. In between, some have seen it and some have not. When all have been
visited, those that are left have seen it, and it was early enough for them. Everything
else happens while the clock stands still, and a transfer that begins starts with the
clock of the node and with a lock that did not expire.

So a secret is never registered too late, if the node is told of the blocks often
enough. A transfer that knows the secret was a reveal timeout or more before the end of
its lock when it was told of the block before. All channels of a node have its own
reveal timeout, so one bound on the blocks that are skipped is enough for all transfers.

## Main definitions

* `Broker.Uniform`, `Broker.PaidWithin`, `Broker.Regular`: All reveal timeouts are those
  of the node.
* `Broker.Scheduled`: The transfers in progress are current.
* `Broker.Visited`: What is true of the transfers while a fact is told.
* `Broker.Paced`: A block comes at most so many blocks after the one before.
* `Broker.Timely`: What is true of a transfer in progress.
* `Broker.TimelinessLaw`: What a run keeps to.

## Theorems

* `Broker.after_revealTimeout`: The reveal timeout of a node does not change.
* `Broker.Regular.after`: Neither do those of its channels.
* `Broker.Scheduled.after`: An input leaves the transfers in progress current.
* `Broker.run_timelinessLaw`: The law for every run.
-/

namespace PaymentNetwork

/-- No event of the ledger changes the reveal timeout of a channel. -/
theorem Channel.applyEvent_revealTimeout (c : Channel) (e : ChainEvent) :
    (c.applyEvent e).revealTimeout = c.revealTimeout := by
  rcases Channel.applyEvent_cases c e with heq | ⟨status, heq⟩ | ⟨s, change, -, -, heq⟩
  · rw [heq]
  · rw [heq]
  · rw [heq]
    cases s with
    | ours => rfl
    | partner => rfl

namespace Broker

/-! ### The reveal timeout of a node -/

/-- The reveal timeout of a node does not change. -/
theorem after_revealTimeout (b : Broker) (i : BrokerInput) :
    (b.after i).view.revealTimeout = b.view.revealTimeout := by
  have hlasting : Lasting (fun v => v.revealTimeout = b.view.revealTimeout) :=
    fun _ _ _ _ _ _ heq => heq
  exact hlasting.after rfl (fun e _ => b.view.revealTimeout_apply e)

/-! ### The reveal timeouts of its channels -/

/-- The channel has this reveal timeout. -/
structure Uniform (revealTimeout : Height) (c : Channel) : Prop where
  sound : c.Sound
  revealTimeout_eq : c.revealTimeout = revealTimeout

/-- If the transfer has a payer, the channel with it has this reveal timeout. -/
def PaidWithin (revealTimeout : Height) (t : Transfer) : Prop :=
  ∀ payerTimeout, t.payerTimeout? = some payerTimeout → payerTimeout = revealTimeout

/-- The node, its channels and the payers of its transfers have this reveal timeout. -/
structure Regular (revealTimeout : Height) (b : Broker) : Prop where
  view : b.view.revealTimeout = revealTimeout
  holds : Holds (fun _ => Uniform revealTimeout) (PaidWithin revealTimeout) b

section Regular

variable {revealTimeout : Height} {b : Broker}

theorem uniform_accept {c c' : Channel} (h : Uniform revealTimeout c) {m : ChannelMessage}
    {now : Height} (hop : c.accept m now = .ok c') : Uniform revealTimeout c' := by
  have hs := h.sound.accept hop
  obtain ⟨-, -, -, change, -, -, rfl⟩ :=
    (Channel.accept_eq_ok_iff (h.sound .partner)).mp hop
  exact ⟨hs, h.revealTimeout_eq⟩

theorem uniform_applyEvent {c : Channel} (h : Uniform revealTimeout c) (e : ChainEvent) :
    Uniform revealTimeout (c.applyEvent e) :=
  ⟨Channel.after_sound h.sound (.event e),
    (Channel.applyEvent_revealTimeout c e).trans h.revealTimeout_eq⟩

theorem closed_regular :
    Closed (fun _ => Uniform revealTimeout) (PaidWithin revealTimeout) where
  create _ c r m c' h hop := by
    have hs := h.sound.create hop
    obtain ⟨-, -, change, -, -, -, rfl⟩ := Channel.create_spec (h.sound .ours) hop
    exact ⟨hs, h.revealTimeout_eq⟩
  step t i h payerTimeout hpayer := by
    rw [Transfer.step_payerTimeout?] at hpayer
    exact h payerTimeout hpayer

theorem beginOffered_payerTimeout? (view : NetworkView) (block : Height) (payerRoute : Route)
    (m : LockedTransfer) :
    (beginOffered view block payerRoute m).1.payerTimeout? = some payerRoute.revealTimeout := by
  unfold beginOffered
  split
  · unfold Target.start
    dsimp only
    split
    · rfl
    · rfl
  · have hdeal := Mediator.start_ofDeal
      ⟨view.ourAddress, payerRoute, m, view.routes m.balanceProof.tokenNetwork⟩ block
    change some (Mediator.start _ block).1.payerRoute.revealTimeout = _
    rw [hdeal.payerRoute]

/-- The channel that filed an offer has the reveal timeout of the node, and so has the
    payer of the transfer that the offer begins. -/
theorem Regular.started (h : Regular revealTimeout b) {i : BrokerInput} {b' : Broker}
    {t : Transfer} {effects : List Effect} (hstart : b.Started i b' t effects) :
    PaidWithin revealTimeout t := by
  rcases hstart.begins with ⟨terms, -, heq⟩ | ⟨sender, m, c, c', -, hc, hop, heq⟩
  · cases heq
    exact fun payerTimeout hpayer => nomatch hpayer
  · -- The payer's route is read off the channel after it filed the offer.
    have huniform : Uniform revealTimeout c' :=
      uniform_accept (m := .transfer m) (h.holds.channels _ c hc) hop
    have ht : t = (beginOffered b'.view b.block c'.route m).1 := congrArg Prod.fst heq
    intro payerTimeout hpayer
    rw [ht, beginOffered_payerTimeout?] at hpayer
    cases hpayer
    exact huniform.revealTimeout_eq

/-- No input changes a reveal timeout. -/
theorem Regular.after (h : Regular revealTimeout b) (i : BrokerInput) :
    Regular revealTimeout (b.after i) := by
  refine ⟨(after_revealTimeout b i).trans h.view, ?_⟩
  refine h.holds.after_of_base closed_regular ?_
    (fun b' t effects hreaction => h.started (start_of_reaction hreaction))
  rcases base_view_cases b i with heq | ⟨e, -, heq⟩ | ⟨m, tokenNetwork, c, c', haccepts, heq⟩
  · rw [heq]
    exact h.holds.channels
  · rw [heq]
    refine h.holds.channels.apply_of_opened (fun _ _ _ _ _ _ _ _ => ?_)
      (fun _ _ huniform => uniform_applyEvent huniform e)
    exact ⟨fun s => Channel.sound_fresh _ _ _ _ _ _ _ s, h.view⟩
  · rw [heq]
    have hc := h.holds.channels _ c (NetworkView.channel?_of_find? haccepts.found)
    exact h.holds.channels.putChannel haccepts.found (uniform_accept hc haccepts.accepted)

end Regular

/-! ### The clock and the transfers -/

/-- The transfers in progress saw the last block, and have time left. -/
def Scheduled (b : Broker) : Prop := ∀ k t, b.transfers.get? k = some t → t.Current b.block

theorem steady_current (now : Height) : Steady (Transfer.Current now) :=
  fun _ refusal h => h.step (.routeRefused refusal)

/-- While a fact is told, some transfers know of it and the others do not yet. -/
def Visited (before now : Height) (t : Transfer) : Prop := t.Current before ∨ t.Current now

theorem steady_visited (before now : Height) : Steady (Visited before now) := by
  intro t refusal h
  rcases h with hbefore | hnow
  · exact Or.inl (hbefore.step (.routeRefused refusal))
  · exact Or.inr (hnow.step (.routeRefused refusal))

section Scheduled

variable {revealTimeout : Height} {b b' : Broker} {i : BrokerInput} {fact : Input}
  {keys : List TransferKey} {t : Transfer} {effects : List Effect}

/-- Whoever is told a fact knows what time it is. -/
theorem Visited.step (h : Visited b.block (fact.clock b.block) t) :
    (t.step fact).1.Current (fact.clock b.block) := by
  rcases h with hbefore | hnow
  · exact hbefore.step fact
  · have hstep := hnow.step fact
    rwa [Input.clock_clock] at hstep

/-- A fact that moves the clock is told to all transfers in progress. -/
theorem Scheduled.told (h : b.Scheduled) (hfiled : b.Filed) (hvisits : b.Visits i)
    (htold : b.Told i b' fact keys) :
    ((b'.feedAll fact keys).1.tidy fact).Scheduled := by
  have hfiled' : b'.Filed := (hfiled.holds htold.transfers).toFiled
  intro k t ht
  rw [tidy_transfers] at ht
  rw [tidy_block, feedAll_block, htold.block]
  -- Each transfer saw the block before, or was told this one already.
  refine (feedAll_visits (R := Visited b.block (fact.clock b.block)) (steady_current _)
    (fun _ hvisited => hvisited.step) (fun _ hnow => Or.inr hnow) hfiled'
    (fun k t ht => Or.inl (h k t (htold.transfers ▸ ht))) ht).2 ?_
  by_cases hblock : ∃ number, fact = .block number
  · -- Whoever is in progress was so before, and a block visits all of them.
    obtain ⟨number, hnumber⟩ := hblock
    obtain ⟨rfl, -⟩ := htold.news number hnumber
    refine Or.inl (hvisits k (fun hnone => ?_))
    rw [← htold.transfers] at hnone
    rw [get?_feedAll_of_none hfiled' hnone] at ht
    cases ht
  · refine Or.inr (fun t₀ ht₀ => ?_)
    rw [Input.clock_of_ne (fun number heq => hblock ⟨number, heq⟩) b.block]
    exact h k t₀ (htold.transfers ▸ ht₀)

/-- A transfer that begins has time left. An offer was filed before its lock expired. -/
theorem Regular.started_current (h : Regular revealTimeout b)
    (hstart : b.Started i b' t effects) : t.Current b.block := by
  rcases hstart.begins with ⟨terms, -, heq⟩ | ⟨sender, m, c, c', -, hc, hop, heq⟩
  · cases heq
    exact Transfer.current_initiator_start _ b.block
  · have ht : t = (beginOffered b'.view b.block c'.route m).1 := congrArg Prod.fst heq
    have hsound := (h.holds.channels _ c hc).sound
    obtain ⟨-, htimely, -⟩ :=
      (Channel.accept_eq_ok_iff (m := .transfer m) (hsound .partner)).mp hop
    rw [ht]
    unfold beginOffered
    split
    · exact Transfer.current_target_start htimely
    · exact Transfer.current_mediator_start htimely

theorem Scheduled.started (h : b.Scheduled) (hregular : Regular revealTimeout b)
    (hstart : b.Started i b' t effects) : (b'.settle t effects).1.Scheduled := by
  intro k t' ht'
  rw [settle_block, hstart.block]
  rcases settle_keeps (steady_current b.block) (hregular.started_current hstart) ht' with
    ⟨-, hnew⟩ | ⟨-, hold⟩
  · exact hnew
  · exact h k t' (hstart.transfers ▸ hold)

/-- An input leaves the transfers in progress current. -/
theorem Scheduled.after (h : b.Scheduled) (hfiled : b.Filed) (hregular : Regular revealTimeout b)
    (hvisits : b.Visits i) : (b.after i).Scheduled := by
  rw [after_eq]
  cases hreaction : b.reaction i with
  | tell b' fact keys => exact h.told hfiled hvisits (tell_of_reaction hreaction)
  | start b' t effects => exact h.started hregular (start_of_reaction hreaction)
  | rest b' =>
      obtain ⟨htransfers, hblock⟩ := rest_of_reaction hreaction
      intro k t ht
      rw [Reaction.outcome, htransfers] at ht
      rw [Reaction.outcome, hblock]
      exact h k t ht

end Scheduled

/-! ### Registering a secret -/

/-- A block comes at most so many blocks after the one before. -/
def Paced (limit : Height) (b : Broker) : BrokerInput → Prop
  | .block number _ => number.val ≤ b.block.val + limit.val
  | _ => True

section Registers

variable {revealTimeout : Height} {b b' : Broker} {i : BrokerInput} {fact : Input}
  {keys : List TransferKey} {secret : Secret} {last : Height}

/-- The clock moves no further than an input that is paced moves it. -/
theorem Paced.clock (h : b.Paced revealTimeout i) (htold : b.Told i b' fact keys) :
    (fact.clock b.block).val ≤ b.block.val + revealTimeout.val := by
  by_cases hblock : ∃ number, fact = .block number
  · obtain ⟨number, rfl⟩ := hblock
    obtain ⟨rfl, -⟩ := htold.news number rfl
    exact h
  · rw [Input.clock_of_ne (fun number heq => hblock ⟨number, heq⟩) b.block]
    exact Nat.le_add_right _ _

/-- What an input makes some transfer register is registered in time. -/
theorem Scheduled.registers_inTime (h : b.Scheduled) (hfiled : b.Filed)
    (hregular : Regular revealTimeout b) (hpaced : b.Paced revealTimeout i)
    (hmem : .call (.registerSecret secret last) ∈ (b.react i).2) : (b.after i).block ≤ last := by
  have hdeed : .call (.registerSecret secret last) ∈ (b.reaction i).deeds := by
    rw [← react_deeds]
    exact List.mem_filterMap.mpr ⟨_, hmem, rfl⟩
  rw [after_eq]
  cases hreaction : b.reaction i with
  | tell b' fact keys =>
      have htold := tell_of_reaction hreaction
      rw [hreaction] at hdeed
      have hfiled' : b'.Filed := (hfiled.holds htold.transfers).toFiled
      -- The transfer that asks may be told after others, which changes nothing for it.
      obtain ⟨t, ⟨hvisited, hpaid⟩, hstep⟩ := exists_step_of_mem_feedAll
        (R := fun t => Visited b.block (fact.clock b.block) t ∧ PaidWithin revealTimeout t)
        (fun t refusal ht => ⟨steady_visited _ _ t refusal ht.1, closed_regular.step t _ ht.2⟩)
        (fun t ht => ⟨Or.inr ht.1.step, closed_regular.step t _ ht.2⟩) hfiled'
        (fun k t ht => ⟨Or.inl (h k t (htold.transfers ▸ ht)),
          hregular.holds.transfers k t (htold.transfers ▸ ht)⟩) hdeed
      rw [Reaction.outcome, tidy_block, feedAll_block, htold.block]
      -- For whoever was told already, time stands still.
      rcases hvisited with hbefore | hnow
      · refine hbefore.registers_inTime (fun payerTimeout hpayer => ?_) hstep
        rw [hpaid payerTimeout hpayer]
        exact hpaced.clock htold
      · have hstands := hnow.registers_inTime (fun payerTimeout _ => ?_) hstep
        · rwa [Input.clock_clock] at hstands
        · rw [Input.clock_clock]
          exact Nat.le_add_right _ _
  | start b' t effects =>
      rw [hreaction] at hdeed
      cases hdeed
  | rest b' =>
      rw [hreaction] at hdeed
      cases hdeed

end Registers

/-! ### Any run -/

/-- What is true of a transfer in progress: it is not over, is filed under its own role
    and secret hash, saw the last block, and has time left. -/
structure Timely (b : Broker) (k : TransferKey) (t : Transfer) : Prop where
  inProgress : t.isTerminal = false
  filed : k = ⟨t.role, t.secretHash⟩
  clock : t.blockNumber = b.block
  onTime : b.block < t.deadline

/-- What a run keeps to. Its transfers are timely, and whatever comes next, a secret is
    registered no later than at the last block at which it may be, if that is not a block
    which comes more than the reveal timeout after the one before. -/
structure TimelinessLaw (revealTimeout : Height) (b₀ : Broker) (inputs : List BrokerInput) :
    Prop where
  timely : ∀ k t, (b₀.run inputs).transfers.get? k = some t → (b₀.run inputs).Timely k t
  registers : ∀ i secret deadline, (b₀.run inputs).Paced revealTimeout i →
    .call (.registerSecret secret deadline) ∈ ((b₀.run inputs).react i).2 →
    ((b₀.run inputs).after i).block ≤ deadline

/-- What the transfers and channels of a node have to be for it to be in time. -/
structure Disciplined (revealTimeout : Height) (b : Broker) : Prop where
  filed : b.Filed
  regular : Regular revealTimeout b
  scheduled : b.Scheduled

section Run

variable {revealTimeout : Height} {b : Broker}

theorem disciplined_fresh (ourAddress : Address) (revealTimeout block : Height) :
    Disciplined revealTimeout (fresh (NetworkView.fresh ourAddress revealTimeout) block) := by
  have hholds : Holds (fun _ => Uniform revealTimeout) (PaidWithin revealTimeout)
      (fresh (NetworkView.fresh ourAddress revealTimeout) block) :=
    holds_fresh (NetworkView.holds_fresh ourAddress revealTimeout) block
  refine ⟨hholds.toFiled, ⟨rfl, hholds⟩, fun k t ht => ?_⟩
  rw [fresh, SortedMap.get?_empty] at ht
  cases ht

theorem Disciplined.after (h : Disciplined revealTimeout b) {i : BrokerInput}
    (hvisits : b.Visits i) : Disciplined revealTimeout (b.after i) :=
  ⟨h.filed.after i, h.regular.after i, h.scheduled.after h.filed h.regular hvisits⟩

theorem run_disciplined (h : Disciplined revealTimeout b) {inputs : List BrokerInput}
    (hvisits : b.VisitsAll inputs) : Disciplined revealTimeout (b.run inputs) := by
  induction inputs generalizing b with
  | nil => exact h
  | cons i rest ih => exact ih (h.after hvisits.1) hvisits.2

theorem Disciplined.timely (h : Disciplined revealTimeout b) {k : TransferKey} {t : Transfer}
    (ht : b.transfers.get? k = some t) : b.Timely k t := by
  obtain ⟨hkey, hprogress⟩ := h.filed k t ht
  have hcurrent := h.scheduled k t ht
  have hnot : ¬ t.isTerminal = true := Bool.eq_false_iff.mp hprogress
  exact ⟨hprogress, hkey.symm, hcurrent.clock hnot, hcurrent.onTime hnot⟩

/-- In any run whose blocks visit all transfers in progress, these are timely, and
    secrets are registered in time. -/
theorem run_timelinessLaw (ourAddress : Address) (revealTimeout block : Height)
    (inputs : List BrokerInput)
    (hvisits : (fresh (NetworkView.fresh ourAddress revealTimeout) block).VisitsAll inputs) :
    TimelinessLaw revealTimeout (fresh (NetworkView.fresh ourAddress revealTimeout) block)
      inputs := by
  have hrun := run_disciplined (disciplined_fresh ourAddress revealTimeout block) hvisits
  exact ⟨fun k t ht => hrun.timely ht, fun i secret deadline hpaced hmem =>
    hrun.scheduled.registers_inTime hrun.filed hrun.regular hpaced hmem⟩

end Run

end Broker

namespace DoubleOffer

open Broker

/-- Two offers, the first of which waits for its unlock, and a block that visits whoever
    is in progress. -/
def oneBlockLater : List BrokerInput :=
  inputs ++ [.block 12 ((fresh (NetworkView.fresh payee 5) 10).run inputs).transfers.keys]

theorem visitsAll_oneBlockLater :
    (fresh (NetworkView.fresh payee 5) 10).VisitsAll oneBlockLater := by
  rw [oneBlockLater, visitsAll_append]
  refine ⟨?_, visits_keys _ 12, trivial⟩
  exact ⟨trivial, trivial, trivial, trivial, trivial, trivial, trivial, trivial⟩

theorem run_timelinessLaw_oneBlockLater :
    ((fresh (NetworkView.fresh payee 5) 10).run inputs).transfers.get?
        ⟨.target, hashSecret large.secret⟩ = some (.target large.waiting) ∧
    (fresh (NetworkView.fresh payee 5) 10).VisitsAll oneBlockLater ∧
    TimelinessLaw 5 (fresh (NetworkView.fresh payee 5) 10) oneBlockLater :=
  ⟨run_inputs.1, visitsAll_oneBlockLater,
    run_timelinessLaw payee 5 10 oneBlockLater visitsAll_oneBlockLater⟩

end DoubleOffer

end PaymentNetwork

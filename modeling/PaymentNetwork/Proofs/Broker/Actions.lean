import PaymentNetwork.Proofs.Broker.Reaction

/-!
# From Effects to Actions

Everything that a broker does, and which transfer asked for it.

What is done because of an input is the work of a reaction. There are two things that
no transfer asks for: a peer is told off or a lock that comes twice goes back, and after
a block the expired locks that nobody took back are taken back. All the rest was asked
for by the step of a transfer that is told a fact, by a transfer that begins, or by a
transfer whose lock was refused by a channel.

Refusals are the facts that no input tells. `Broker.refusals` lists those that a
transfer meets while its effects are carried out, and with them the work of `drain` is
the run of a machine: the transfer comes out as the refusals left it, and what is done
is what was asked for, in order, where a channel may have refused.

## Main definitions

* `Broker.refusals`: The refusals that the effects of a transfer meet.
* `Broker.Performs`: Some actions are what some effects ask for.
* `Broker.asked`: Everything that a transfer asks for while its effects are carried out.
* `Action.isAside`: What no transfer asks for.
* `Broker.Reaction.actions`: What is done in a reaction.

## Theorems

* `Broker.drain_refusals`: The transfer comes out as the refusals left it.
* `Broker.drain_performs`: What is done is what was asked for.
* `Broker.react_actions`: What an input does is the work of its reaction, and asides.
* `Broker.exists_told_of_mem_feedAll`: Whatever is done was asked for by a step.
-/

namespace PaymentNetwork

namespace BrokerInput

variable {i : BrokerInput}

/-- Only a message tells that the secret was asked for. -/
theorem eq_secretRequest_of_fact? {r : SecretRequested}
    (h : i.fact? = some (.secretRequested r)) :
    i = .message r.sender (.secretRequest ⟨r.paymentId, r.secretHash, r.amount⟩) := by
  cases i with
  | message sender m =>
      cases m with
      | secretRequest m =>
          cases h
          rfl
      | _ => cases h
  | _ => cases h

/-- Only a message tells that a peer showed a secret. -/
theorem eq_secretReveal_of_fact? {r : SecretRevealed} (h : i.fact? = some (.secretRevealed r)) :
    i = .message r.sender (.secretReveal ⟨r.secret⟩) ∧ r.secretHash = hashSecret r.secret := by
  cases i with
  | message sender m =>
      cases m with
      | secretReveal m =>
          cases h
          exact ⟨rfl, rfl⟩
      | _ => cases h
  | _ => cases h

/-- Events are told as they are. -/
theorem eq_chain_of_fact? {e : ChainEvent} (h : i.fact? = some (.chain e)) : i = .chain e := by
  cases i with
  | message sender m =>
      cases m with
      | _ => cases h
  | chain e' =>
      cases h
      rfl
  | _ => cases h

end BrokerInput

namespace Broker

/-! ### What effects bring about -/

/-- The refusals that a transfer meets while its effects are carried out. -/
def refusals (view : NetworkView) (block : Height) (t : Transfer) (effects : List Effect) :
    List Input :=
  match effects with
  | [] => []
  | .sendLockedTransfer recipient channelId terms :: rest =>
    match view.withPartnerChannel channelId recipient (·.sendTransfer terms block) with
    | .ok (_, view') => refusals view' block t rest
    | .error e =>
      let refusal : RouteRefusal := ⟨terms.secretHash, channelId, e.describe⟩
      .routeRefused refusal :: refusals view block (t.step (.routeRefused refusal)).1
        (rest ++ (t.step (.routeRefused refusal)).2)
  | effect :: rest => refusals (perform view block effect).view block t rest
termination_by (t.routesLeft + Effect.lockedTransfers effects, effects.length)
decreasing_by
  -- The measure is that of `drain`.
  · exact Prod.Lex.left _ _ (by simp [Effect.lockedTransfers_cons, Effect.isLockedTransfer])
  · have h := t.step_routeRefused_cost ⟨terms.secretHash, channelId, e.describe⟩
    refine Prod.Lex.left _ _ ?_
    rw [Effect.lockedTransfers_append, Effect.lockedTransfers_cons]
    simp only [Effect.isLockedTransfer, if_true]
    omega
  · by_cases h : effect.isLockedTransfer
    · exact Prod.Lex.left _ _ (by simp [Effect.lockedTransfers_cons, h])
    · rw [Effect.lockedTransfers_cons, if_neg h]
      exact Prod.Lex.right _ (Nat.lt_succ_self _)

/-- Everything that a transfer asks for while its effects are carried out. What follows
    from refusals goes to the end of the queue. -/
def asked (view : NetworkView) (block : Height) (t : Transfer) (effects : List Effect) :
    List Effect :=
  effects ++ Machine.effects Transfer.step t (refusals view block t effects)

/-- Some actions are what some effects ask for, in order. A locked transfer is sent or
    refused. -/
inductive Performs (block : Height) : List Effect → List Action → Prop where
  | nil : Performs block [] []
  | sent {recipient : Address} {channelId : ChannelId} {terms : TransferTerms}
      {m : LockedTransfer} {effects : List Effect} {actions : List Action}
      (later : Performs block effects actions) :
      Performs block (.sendLockedTransfer recipient channelId terms :: effects)
        (.send recipient (.lockedTransfer m) :: actions)
  | refused {recipient : Address} {channelId : ChannelId} {terms : TransferTerms}
      {effects : List Effect} {actions : List Action} (later : Performs block effects actions) :
      Performs block (.sendLockedTransfer recipient channelId terms :: effects) actions
  | performed {view : NetworkView} {e : Effect} {effects : List Effect} {actions : List Action}
      (hother : e.isLockedTransfer = false) (later : Performs block effects actions) :
      Performs block (e :: effects) ((perform view block e).actions ++ actions)

/-- The refusals of a queue are facts of one kind. -/
theorem exists_of_mem_refusals {view : NetworkView} {block : Height} {t : Transfer}
    {effects : List Effect} {i : Input} (h : i ∈ refusals view block t effects) :
    ∃ refusal, i = .routeRefused refusal := by
  fun_induction refusals view block t effects with
  | case1 => cases h
  | case2 view t recipient channelId terms rest m view' hsend ih => exact ih h
  | case3 view t recipient channelId terms rest e hsend refusal ih =>
      rcases List.mem_cons.mp h with rfl | hmem
      · exact ⟨refusal, rfl⟩
      · exact ih hmem
  | case4 view t effect rest hne ih => exact ih h

/-- What is asked for on the way was asked for at some fact. -/
theorem exists_step_of_mem_effects {t : Transfer} {inputs : List Input} {e : Effect}
    (h : e ∈ Machine.effects Transfer.step t inputs) :
    ∃ t' : Transfer, ∃ i ∈ inputs, e ∈ (t'.step i).2 := by
  induction inputs generalizing t with
  | nil => cases h
  | cons i rest ih =>
      rcases List.mem_append.mp h with h | h
      · exact ⟨t, i, List.mem_cons_self, h⟩
      · obtain ⟨t', j, hj, he⟩ := ih h
        exact ⟨t', j, List.mem_cons_of_mem i hj, he⟩

/-- A transfer asks for some effects to begin with, and for more at every refusal. -/
theorem mem_asked {view : NetworkView} {block : Height} {t : Transfer} {effects : List Effect}
    {e : Effect} (h : e ∈ asked view block t effects) :
    e ∈ effects ∨ ∃ (t' : Transfer) (refusal : RouteRefusal),
      e ∈ (t'.step (.routeRefused refusal)).2 := by
  rcases List.mem_append.mp h with h | h
  · exact Or.inl h
  · obtain ⟨t', i, hi, he⟩ := exists_step_of_mem_effects h
    obtain ⟨refusal, rfl⟩ := exists_of_mem_refusals hi
    exact Or.inr ⟨t', refusal, he⟩

/-- The transfer comes out as the refusals left it. -/
theorem drain_refusals (view : NetworkView) (block : Height) (t : Transfer)
    (effects : List Effect) :
    (drain view block t effects).1
      = Machine.run Transfer.step t (refusals view block t effects) := by
  fun_induction drain view block t effects with
  | case1 view t =>
      rw [refusals]
      rfl
  | case2 view t recipient channelId terms rest m view' hsend t' o hdrain ih =>
      rw [refusals, hsend]
      rwa [hdrain] at ih
  | case3 view t recipient channelId terms rest e hsend refusal ih =>
      rw [refusals, hsend]
      exact ih
  | case4 view t effect rest hne done t' o hdrain ih =>
      rw [refusals]
      · rwa [hdrain] at ih
      · exact hne

/-- What is done is what was asked for, by the effects and by the refusals of them. -/
theorem drain_performs (view : NetworkView) (block : Height) (t : Transfer)
    (effects : List Effect) :
    Performs block (asked view block t effects) (drain view block t effects).2.actions := by
  unfold asked
  fun_induction drain view block t effects with
  | case1 view t =>
      rw [refusals]
      exact .nil
  | case2 view t recipient channelId terms rest m view' hsend t' o hdrain ih =>
      rw [refusals, hsend]
      rw [hdrain] at ih
      exact .sent ih
  | case3 view t recipient channelId terms rest e hsend refusal ih =>
      rw [refusals, hsend]
      -- What the refusal asks for waits behind the rest.
      rw [List.append_assoc] at ih
      exact .refused ih
  | case4 view t effect rest hne done t' o hdrain ih =>
      rw [refusals]
      · rw [hdrain] at ih
        refine .performed ?_ ih
        cases effect with
        | sendLockedTransfer recipient channelId terms => exact absurd rfl (hne _ _ _)
        | _ => rfl
      · exact hne

/-- Every action was asked for by one of the effects, or is a locked transfer. -/
theorem Performs.exists_of_mem {block : Height} {effects : List Effect} {actions : List Action}
    (h : Performs block effects actions) {a : Action} (ha : a ∈ actions) :
    (∃ recipient m, a = .send recipient (.lockedTransfer m)) ∨
    ∃ view, ∃ e ∈ effects, a ∈ (perform view block e).actions := by
  induction h with
  | nil => cases ha
  | sent later ih =>
      rcases List.mem_cons.mp ha with rfl | ha
      · exact Or.inl ⟨_, _, rfl⟩
      · rcases ih ha with hlocked | ⟨view, e, he, hmem⟩
        · exact Or.inl hlocked
        · exact Or.inr ⟨view, e, List.mem_cons_of_mem _ he, hmem⟩
  | refused later ih =>
      rcases ih ha with hlocked | ⟨view, e, he, hmem⟩
      · exact Or.inl hlocked
      · exact Or.inr ⟨view, e, List.mem_cons_of_mem _ he, hmem⟩
  | performed hother later ih =>
      rcases List.mem_append.mp ha with ha | ha
      · exact Or.inr ⟨_, _, List.mem_cons_self, ha⟩
      · rcases ih ha with hlocked | ⟨view, e, he, hmem⟩
        · exact Or.inl hlocked
        · exact Or.inr ⟨view, e, List.mem_cons_of_mem _ he, hmem⟩

/-! ### What no transfer asks for -/

end Broker

namespace Action

/-- A notice, or a lock that goes back to its payer. Of these alone a broker may do some
    that no transfer asks for, besides taking back expired locks after a block. -/
def isAside : Action → Bool
  | send _ (.disposal _) => true
  | report (.notice _) => true
  | _ => false

end Action

namespace Broker

/-- What is done after a fact was told: expired locks that nobody took back are taken
    back, if the fact is a block. -/
def swept (b : Broker) : Input → List Action
  | .block number => (removeLocks b.view number (b.view.expiredLocks number)).actions
  | _ => []

/-- What is done in a reaction. -/
def Reaction.actions : Reaction → List Action
  | tell b fact keys => (b.feedAll fact keys).2 ++ (b.feedAll fact keys).1.swept fact
  | start b t effects => (b.settle t effects).2
  | rest _ => []

/-- What is done is the work of a reaction, with asides before. -/
def Follows (actions : List Action) (reaction : Reaction) : Prop :=
  ∃ asides, actions = asides ++ reaction.actions ∧ ∀ a ∈ asides, a.isAside = true

/-- Nothing but the work of the reaction is done. -/
theorem follows_of_eq {actions : List Action} {reaction : Reaction}
    (h : actions = reaction.actions) : Follows actions reaction :=
  ⟨[], h, fun _ ha => nomatch ha⟩

/-- Nothing but asides is done. -/
theorem follows_rest {actions : List Action} {b : Broker}
    (h : ∀ a ∈ actions, a.isAside = true) : Follows actions (.rest b) :=
  ⟨actions, (List.append_nil actions).symm, h⟩

theorem receiveTransfer_actions (b : Broker) (sender : Address) (m : LockedTransfer) :
    Follows (b.receiveTransfer sender m).2 (b.reactionToOffer sender m) := by
  unfold receiveTransfer reactionToOffer
  by_cases hparties : m.sender ≠ sender ∨ m.recipient ≠ b.view.ourAddress
  · rw [if_pos hparties, if_pos hparties]
    exact follows_rest (by simp [reject, notice, Action.isAside])
  · rw [if_neg hparties, if_neg hparties]
    cases haccept : b.view.withPartnerChannel m.balanceProof.channelId sender
      (fun c => (c.receiveTransfer m b.block).map fun c' => (c'.route, c')) with
    | error e =>
        simp only [haccept]
        exact follows_rest (by simp [reject, notice, Action.isAside])
    | ok accepted =>
        obtain ⟨payerRoute, view⟩ := accepted
        simp only [haccept, begin?]
        by_cases hprogress :
            b.transfers.contains (beginOffered view b.block payerRoute m).1.key = true
        · have hprogress' : b.transfers.contains ⟨(beginOffered view b.block payerRoute m).1.role,
              (beginOffered view b.block payerRoute m).1.secretHash⟩ = true := hprogress
          simp only [if_pos hprogress, if_pos hprogress']
          exact follows_rest (by simp [notice, Action.isAside])
        · have hprogress' : ¬ b.transfers.contains
              ⟨(beginOffered view b.block payerRoute m).1.role,
                (beginOffered view b.block payerRoute m).1.secretHash⟩ = true := hprogress
          simp only [if_neg hprogress, if_neg hprogress']
          -- The arrival is announced before anything that the new transfer asks for.
          exact ⟨[_], rfl, by simp [Action.isAside]⟩

theorem receiveProof_actions (b : Broker) (sender : Address) (what : String)
    (channelId : ChannelId) (secretHash : SecretHash) (message : ProofMessage)
    (operation : Channel → Except ChannelError Channel) :
    Follows (b.receiveProof sender what channelId secretHash message operation).2
      (b.reactionToProof sender channelId secretHash message operation) := by
  unfold receiveProof reactionToProof
  dsimp only
  cases b.view.withPartnerChannel channelId sender
    (fun c => (operation c).map fun c' => ((), c')) with
  | error e => exact follows_rest (by simp [reject, notice, Action.isAside])
  | ok accepted => exact follows_of_eq (List.append_nil _).symm

theorem pay_actions (b : Broker) (terms : TransferTerms) :
    Follows (b.react (.pay terms)).2 (b.reaction (.pay terms)) := by
  unfold react reaction pay begin?
  dsimp only
  generalize Initiator.start ⟨b.view.ourAddress, terms, b.view.routes terms.tokenNetwork⟩ b.block
    = begun
  by_cases hprogress : b.transfers.contains (Transfer.initiator begun.1).key = true
  · have hprogress' : b.transfers.contains ⟨(Transfer.initiator begun.1).role,
        (Transfer.initiator begun.1).secretHash⟩ = true := hprogress
    simp only [if_pos hprogress, if_pos hprogress']
    exact follows_of_eq rfl
  · have hprogress' : ¬ b.transfers.contains ⟨(Transfer.initiator begun.1).role,
        (Transfer.initiator begun.1).secretHash⟩ = true := hprogress
    simp only [if_neg hprogress, if_neg hprogress']
    exact follows_of_eq rfl

/-- What an input does is the work of its reaction, and asides. -/
theorem react_actions (b : Broker) (i : BrokerInput) : Follows (b.react i).2 (b.reaction i) := by
  cases i with
  | pay terms => exact pay_actions b terms
  | message sender m =>
      cases m with
      | lockedTransfer m => exact receiveTransfer_actions b sender m
      | unlock m => exact receiveProof_actions b sender _ _ _ _ _
      | lockRemoval m => exact receiveProof_actions b sender _ _ _ _ _
      | _ => exact follows_of_eq (List.append_nil _).symm
  | block number order =>
      unfold react reaction advanceInOrder
      by_cases hlate : number ≤ b.block
      · simp only [if_pos hlate]
        exact follows_of_eq rfl
      · simp only [if_neg hlate]
        exact follows_of_eq rfl
  | chain e =>
      cases e with
      | secretRegistered => exact follows_of_eq (List.append_nil _).symm
      | channelClosed => exact follows_of_eq (List.append_nil _).symm
      | _ => exact follows_of_eq rfl

/-! ### Who asked -/

/-- At the beginning there are no transfers. -/
theorem filed_fresh (view : NetworkView) (block : Height) : (fresh view block).Filed := by
  intro k t ht
  rw [fresh, SortedMap.get?_empty] at ht
  cases ht

theorem feedAll_cons (b : Broker) (i : Input) (key : TransferKey) (keys : List TransferKey) :
    (b.feedAll i (key :: keys)).2 = (b.feed i key).2 ++ ((b.feed i key).1.feedAll i keys).2 := rfl

/-- Whatever is done when transfers are told a fact was asked for by the step of one of
    them, of a broker that has what telling the transfers before kept. -/
theorem exists_told_of_mem_feedAll {I : Broker → Prop} {i : Input}
    (hfeed : ∀ b key, I b → I (b.feed i key).1) {b : Broker} (h : I b) {keys : List TransferKey}
    {a : Action} (ha : a ∈ (b.feedAll i keys).2) :
    ∃ b' k t, I b' ∧ b'.transfers.get? k = some t ∧
      a ∈ (b'.settle (t.step i).1 (t.step i).2).2 := by
  induction keys generalizing b with
  | nil => cases ha
  | cons key rest ih =>
      rw [feedAll_cons, List.mem_append] at ha
      rcases ha with ha | ha
      · cases ht : b.transfers.get? key with
        | none =>
            rw [feed, ht] at ha
            cases ha
        | some t =>
            rw [feed_of_some ht] at ha
            exact ⟨b, key, t, h, ht, ha⟩
      · exact ih (hfeed b key h) ha

/-- Whatever is done was asked for by the step of a transfer that had a property which
    steps and refusals keep. -/
theorem exists_stepped_of_mem_feedAll {R : Transfer → Prop} {fact : Input} (hr : Steady R)
    (hstep : ∀ t, R t → R (t.step fact).1) {b : Broker} (hf : b.Filed)
    (h : ∀ k t, b.transfers.get? k = some t → R t) {keys : List TransferKey} {a : Action}
    (ha : a ∈ (b.feedAll fact keys).2) :
    ∃ b' t, R t ∧ a ∈ (settle b' (t.step fact).1 (t.step fact).2).2 := by
  have hfeed : ∀ (b : Broker) key, (b.Filed ∧ ∀ k t, b.transfers.get? k = some t → R t) →
      (b.feed fact key).1.Filed ∧ ∀ k t, (b.feed fact key).1.transfers.get? k = some t → R t := by
    rintro b key ⟨hf, h⟩
    refine ⟨feed_filed hf fact key, fun k t ht => ?_⟩
    rcases feed_at hr hstep hf h ht with ⟨-, hnew⟩ | ⟨-, hold⟩
    · exact hnew
    · exact h k t hold
  obtain ⟨b', k, t, ⟨-, h'⟩, ht, hmem⟩ := exists_told_of_mem_feedAll hfeed ⟨hf, h⟩ ha
  exact ⟨b', t, h' k t ht, hmem⟩

/-- Taking back expired locks sends nothing but removals. -/
theorem exists_of_mem_removeLocks {view : NetworkView} {block : Height}
    {locks : List NetworkView.SentLock} {a : Action}
    (ha : a ∈ (removeLocks view block locks).actions) :
    ∃ recipient m, a = .send recipient (.lockRemoval m) := by
  induction locks generalizing view with
  | nil => cases ha
  | cons l rest ih =>
      rw [removeLocks] at ha
      rcases List.mem_append.mp ha with ha | ha
      · unfold build at ha
        split at ha
        · exact ⟨_, _, List.mem_singleton.mp ha⟩
        · cases ha
      · exact ih ha

end Broker

end PaymentNetwork

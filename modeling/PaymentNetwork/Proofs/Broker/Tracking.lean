import PaymentNetwork.Proofs.Broker.Timeliness
import PaymentNetwork.Proofs.Broker.Window
import PaymentNetwork.Proofs.Transfer.Margin

/-!
# Following a Transfer

What becomes of a transfer in progress, also when it is over.

A broker forgets a transfer that is over, so its state says nothing about how the transfer
ended. But a transfer that is in progress runs on the facts that reach it, and so the facts
say it: after some inputs it is what the run makes of it, and it is still in progress unless
that is over. The run asks for no more than what is done, so it also says what was done to
collect.

For a mediator it matters in which order the facts come. Events of the ledger leave it waiting
for the secret with the lock that it offers, until one of them tells the secret.

## Main definitions

* `Broker.Tracked`: A transfer is in progress if it is not over.
* `Broker.Early`: The lock that a mediator offers expires early enough.

## Theorems

* `Broker.Tracked.run`, `Broker.Tracked.does`: What becomes of a transfer, and what is done
  for it.
* `Broker.mem_factsOf`: Where its facts come from.
* `Broker.Tracked.idles`: Blocks before the expiration, and events that tell no secret, leave a
  mediator waiting for it.
* `Broker.Tracked.learns`: An event that tells the secret ends that.
* `Broker.after_early`: Every mediator offers a lock that expires a reveal timeout before the
  received one.
-/

namespace PaymentNetwork

namespace Transfer

section Mediator

variable (s : Mediator) (facts : List Input)

theorem run_mediator :
    Machine.run step (mediator s) facts = mediator (Machine.run Mediator.step s facts) := by
  induction facts generalizing s with
  | nil => rfl
  | cons i rest ih => exact ih (s.step i).1

theorem effects_mediator :
    Machine.effects step (mediator s) facts = Machine.effects Mediator.step s facts := by
  induction facts generalizing s with
  | nil => rfl
  | cons i rest ih => exact congrArg ((s.step i).2 ++ ·) (ih (s.step i).1)

theorem key_run_mediator :
    (mediator (Machine.run Mediator.step s facts)).key = (mediator s).key :=
  congrArg (fun received : TransferTerms => (⟨.mediator, received.secretHash⟩ : TransferKey))
    (s.run_sameDeal facts).received

end Mediator

end Transfer

namespace Broker

/-! ### A transfer through a run -/

section Tracked

variable {b : Broker} {k : TransferKey} {t : Transfer}

theorem factsOf_cons (b : Broker) (k : TransferKey) (i : BrokerInput) (rest : List BrokerInput) :
    b.factsOf k (i :: rest) = b.facts k i ++ (b.after i).factsOf k rest := rfl

theorem deeds_of_refusals {t : Transfer} {facts : List Input}
    (h : ∀ i ∈ facts, ∃ refusal, i = .routeRefused refusal) :
    Effect.deeds (Machine.effects Transfer.step t facts) = [] := by
  induction facts generalizing t with
  | nil => rfl
  | cons i rest ih =>
      obtain ⟨refusal, rfl⟩ := h i List.mem_cons_self
      rw [Machine.effects_cons, Effect.deeds_append, t.step_routeRefused_deeds,
        ih (fun j hj => h j (List.mem_cons_of_mem _ hj))]
      rfl

/-- The transfer is in progress under a key, unless it is over. -/
def Tracked (b : Broker) (k : TransferKey) (t : Transfer) : Prop :=
  t.isTerminal = false → b.transfers.get? k = some t

/-- A transfer that is tracked runs on the facts that reach it. -/
theorem Tracked.after (h : b.Tracked k t) (hf : b.Filed) (i : BrokerInput) :
    (b.after i).Tracked k (Machine.run Transfer.step t (b.facts k i)) := by
  intro hprogress
  by_cases hterminal : t.isTerminal = true
  · rw [Transfer.run_of_isTerminal hterminal, hterminal] at hprogress
    cases hprogress
  · have ht := h (Bool.eq_false_iff.mpr hterminal)
    rw [(react_tracks hf ht).transfer, kept_of_not_isTerminal hprogress]

theorem Tracked.run (h : b.Tracked k t) (hf : b.Filed) (inputs : List BrokerInput) :
    (b.run inputs).Tracked k (Machine.run Transfer.step t (b.factsOf k inputs)) := by
  induction inputs generalizing b t with
  | nil => exact h
  | cons i rest ih =>
      have hrest := ih (h.after hf i) (hf.after i)
      rw [← Machine.run_append] at hrest
      exact hrest

/-- What a transfer does to collect, while it is told a fact, is done. -/
theorem feedAll_does {fact : Input} (hf : b.Filed) (ht : b.transfers.get? k = some t)
    (keys : List TransferKey) :
    Effect.deeds (Machine.effects Transfer.step t (b.feedFacts fact k keys))
      ⊆ deeds (b.feedAll fact keys).2 := by
  induction keys generalizing b t with
  | nil => exact List.nil_subset _
  | cons key rest ih =>
      have hf' := feed_filed hf fact key
      rw [feedFacts, feedAll_deeds_cons]
      by_cases hkey : key = k
      · subst hkey
        have hdone := (feed_tracks fact hf ht).transfer
        -- Refusals are answered without a deed.
        have hturn : Effect.deeds (Machine.effects Transfer.step t (b.turnFacts fact key key))
            = deeds (b.feed fact key).2 := by
          rw [turnFacts_self ht, Machine.effects_cons, Effect.deeds_append, feed_deeds ht,
            deeds_of_refusals fun i hi => exists_of_mem_refusals hi, List.append_nil]
        rw [Machine.effects_append, Effect.deeds_append, hturn]
        refine List.append_subset.mpr ⟨List.subset_append_left _ _, ?_⟩
        refine List.subset_append_of_subset_right _ ?_
        generalize Machine.run Transfer.step t (b.turnFacts fact key key) = t' at hdone
        -- A transfer that is over was removed, so nothing reaches it any more.
        cases hterminal : t'.isTerminal with
        | true =>
            rw [kept_of_isTerminal hterminal] at hdone
            rw [(feedAll_idle fact hf' hdone rest).1]
            exact List.nil_subset _
        | false =>
            rw [kept_of_not_isTerminal hterminal] at hdone
            exact ih hf' hdone
      · have hnext : (b.feed fact key).1.transfers.get? k = some t := by
          rw [get?_feed_of_ne hf (Ne.symm hkey), ht]
        rw [turnFacts_of_ne hkey, List.nil_append]
        exact List.subset_append_of_subset_right _ (ih hf' hnext)

theorem react_does (hf : b.Filed) (ht : b.transfers.get? k = some t) (i : BrokerInput) :
    Effect.deeds (Machine.effects Transfer.step t (b.facts k i)) ⊆ deeds (b.react i).2 := by
  rw [facts, react_deeds]
  cases hreaction : b.reaction i with
  | tell b' fact keys =>
      have htold := tell_of_reaction hreaction
      exact feedAll_does (fun k t ht => hf k t (htold.transfers ▸ ht)) (htold.transfers ▸ ht) keys
  | start b' t' effects =>
      -- The transfer that begins is another one.
      rw [Reaction.facts, if_neg ((start_of_reaction hreaction).key_ne ht)]
      exact List.nil_subset _
  | rest b' => exact List.nil_subset _

/-- What a transfer that is tracked does to collect is done. -/
theorem Tracked.does (h : b.Tracked k t) (hf : b.Filed) (inputs : List BrokerInput) :
    Effect.deeds (Machine.effects Transfer.step t (b.factsOf k inputs))
      ⊆ deeds (b.outputs inputs) := by
  induction inputs generalizing b t with
  | nil => exact List.nil_subset _
  | cons i rest ih =>
      have hrest := ih (h.after hf i) (hf.after i)
      have houtputs : b.outputs (i :: rest) = (b.react i).2 ++ (b.after i).outputs rest := rfl
      rw [factsOf_cons, houtputs, Machine.effects_append, Effect.deeds_append, deeds_append]
      refine List.append_subset.mpr ⟨List.subset_append_of_subset_left _ ?_,
        List.subset_append_of_subset_right _ hrest⟩
      cases hterminal : t.isTerminal with
      | true =>
          rw [(Machine.effects_of_fixed (Transfer.step_of_isTerminal hterminal) _).2]
          exact List.nil_subset _
      | false => exact react_does hf (h hterminal) i

/-- Every fact that reaches a transfer is one that an input tells, or a refusal. -/
theorem mem_factsOf {inputs : List BrokerInput} {fact : Input} (h : fact ∈ b.factsOf k inputs) :
    (∃ i ∈ inputs, i.fact? = some fact) ∨ ∃ refusal, fact = .routeRefused refusal := by
  induction inputs generalizing b with
  | nil => cases h
  | cons i rest ih =>
      rw [factsOf_cons, List.mem_append] at h
      rcases h with h | h
      · exact (mem_facts h).imp_left fun hfact => ⟨i, List.mem_cons_self, hfact⟩
      · exact (ih h).imp_left fun ⟨j, hmem, hfact⟩ => ⟨j, List.mem_cons_of_mem i hmem, hfact⟩

end Tracked

/-! ### A mediator among events of the ledger -/

section Mediated

variable {b : Broker} {k : TransferKey} {s : Mediator}

/-- A transfer is told of a block by a block only. -/
theorem block_of_mem_factsOf {inputs : List BrokerInput} {number : Height}
    (h : .block number ∈ b.factsOf k inputs) : ∃ order, .block number order ∈ inputs := by
  rcases mem_factsOf h with ⟨i, hmem, hfact⟩ | ⟨refusal, heq⟩
  · obtain ⟨order, rfl⟩ := exists_order_of_fact? hfact
    exact ⟨order, hmem⟩
  · cases heq

/-- Without locks to be sent there are no refusals. -/
theorem refusals_eq_nil {view : NetworkView} {block : Height} {t : Transfer} {effects : List Effect}
    (h : effects.any Effect.isLockedTransfer = false) : refusals view block t effects = [] := by
  induction effects generalizing view with
  | nil => rw [refusals]
  | cons e rest ih =>
      rw [List.any_cons, Bool.or_eq_false_iff] at h
      cases e with
      | sendLockedTransfer => cases h.1
      | _ =>
          rw [refusals]
          · exact ih h.2
          · intro recipient channelId terms hsend
            cases hsend

/-- A transfer that begins with a lock which its channel takes is in progress. -/
theorem get?_settle_taken {b : Broker} {t : Transfer} (hprogress : t.isTerminal = false)
    {recipient : Address} {channelId : ChannelId} {terms : TransferTerms}
    (hsent : (b.view.withPartnerChannel channelId recipient
      (·.sendTransfer terms b.block)).isOk = true) :
    (b.settle t [.sendLockedTransfer recipient channelId terms]).1.transfers.get? t.key
      = some t := by
  have hrefusals : refusals b.view b.block t [.sendLockedTransfer recipient channelId terms]
      = [] := by
    cases hchannel : b.view.withPartnerChannel channelId recipient
      (·.sendTransfer terms b.block) with
    | ok r =>
        rw [refusals, hchannel]
        exact refusals_eq_nil rfl
    | error e =>
        rw [hchannel] at hsent
        cases hsent
  rw [get?_settle_self, drain_refusals, hrefusals, Machine.run_nil,
    if_neg (Bool.eq_false_iff.mp hprogress)]

/-- A mediator that is told nothing but such facts of the ledger goes on waiting for the
    secret. -/
theorem feedFacts_idles (hf : b.Filed) (ht : b.transfers.get? k = some (.mediator s))
    (hs : s.status = .forwardedToNextHop) {fact : Input} (hidles : s.Idles fact)
    (keys : List TransferKey) :
    (Machine.run Mediator.step s (b.feedFacts fact k keys)).status = .forwardedToNextHop ∧
      (Machine.run Mediator.step s (b.feedFacts fact k keys)).offered? = s.offered? := by
  induction keys generalizing b s with
  | nil => exact ⟨hs, rfl⟩
  | cons key rest ih =>
      have hf' := feed_filed hf fact key
      rw [feedFacts, Machine.run_append]
      by_cases hkey : key = k
      · subst hkey
        obtain ⟨⟨hstatus, hoffered⟩, hnoLock⟩ := Mediator.step_idles hs hidles
        have hturn : b.turnFacts fact key key = [fact] := by
          rw [turnFacts_self ht]
          exact congrArg (fact :: ·) (refusals_eq_nil hnoLock)
        have hnext := (feed_tracks fact hf ht).transfer
        -- It goes on waiting, so it is still there for the keys that are left.
        have hprogress : ((Transfer.mediator s).step fact).1.isTerminal = false :=
          congrArg MediatorStatus.isTerminal hstatus
        rw [hturn, Machine.run_cons, Machine.run_nil, kept_of_not_isTerminal hprogress] at hnext
        rw [hturn, Machine.run_cons, Machine.run_nil, ← hoffered]
        exact ih hf' hnext hstatus ((s.step_sameDeal fact).idles hidles)
      · have hnext : (b.feed fact key).1.transfers.get? k = some (.mediator s) := by
          rw [get?_feed_of_ne hf (Ne.symm hkey), ht]
        rw [turnFacts_of_ne hkey, Machine.run_nil]
        exact ih hf' hnext hs hidles

theorem facts_idles (hf : b.Filed) (ht : b.transfers.get? k = some (.mediator s))
    (hs : s.status = .forwardedToNextHop) {i : BrokerInput}
    (hidles : ∀ fact, i.fact? = some fact → s.Idles fact) :
    (Machine.run Mediator.step s (b.facts k i)).status = .forwardedToNextHop ∧
      (Machine.run Mediator.step s (b.facts k i)).offered? = s.offered? := by
  rw [facts]
  cases hreaction : b.reaction i with
  | tell b' fact keys =>
      have htold := tell_of_reaction hreaction
      exact feedFacts_idles (fun k t ht => hf k t (htold.transfers ▸ ht)) (htold.transfers ▸ ht)
        hs (hidles fact htold.tells) keys
  | start b' t effects =>
      rw [Reaction.facts, if_neg ((start_of_reaction hreaction).key_ne ht)]
      exact ⟨hs, rfl⟩
  | rest b' => exact ⟨hs, rfl⟩

/-- Inputs that tell nothing else leave a mediator waiting for the secret, with the lock that it
    offers. -/
theorem Tracked.idles (h : b.Tracked k (.mediator s)) (hf : b.Filed)
    (hs : s.status = .forwardedToNextHop) {inputs : List BrokerInput}
    (hidles : ∀ i ∈ inputs, ∀ fact, i.fact? = some fact → s.Idles fact) :
    (Machine.run Mediator.step s (b.factsOf k inputs)).status = .forwardedToNextHop ∧
      (Machine.run Mediator.step s (b.factsOf k inputs)).offered? = s.offered? := by
  induction inputs generalizing b s with
  | nil => exact ⟨hs, rfl⟩
  | cons i rest ih =>
      have hget := h (congrArg MediatorStatus.isTerminal hs)
      obtain ⟨hfirst, hoffered⟩ := facts_idles hf hget hs (hidles i List.mem_cons_self)
      have hafter := h.after hf i
      rw [Transfer.run_mediator] at hafter
      rw [factsOf_cons, Machine.run_append, ← hoffered]
      exact ih hafter (hf.after _) hfirst (fun j hj fact hfact =>
        (s.run_sameDeal _).idles (hidles j (List.mem_cons_of_mem i hj) fact hfact))

/-- A mediator that waits for the secret knows it after some events, if one of them tells it. -/
theorem Tracked.learns (h : b.Tracked k (.mediator s)) (hf : b.Filed)
    (hk : (Transfer.mediator s).key = k) (hs : s.status = .forwardedToNextHop)
    {events : List ChainEvent} {secret : Secret} {registered : Height}
    (hmem : .secretRegistered secret s.received.secretHash registered ∈ events) :
    (Machine.run Mediator.step s (b.factsOf k (events.map .chain))).status.knowsSecret = true := by
  induction events generalizing b s with
  | nil => cases hmem
  | cons e rest ih =>
      have hget := h (congrArg MediatorStatus.isTerminal hs)
      rw [List.map_cons, factsOf_cons, Machine.run_append]
      by_cases htold : ∃ secret' block,
          e = .secretRegistered secret' s.received.secretHash block
      · obtain ⟨secret', block, rfl⟩ := htold
        have hcalled : k ∈ keysOf [.initiator, .mediator, .target] s.received.secretHash :=
          List.mem_map.mpr ⟨.mediator, by decide, hk⟩
        obtain ⟨others, hothers⟩ := facts_of_told hf hget
          (i := .chain (.secretRegistered secret' s.received.secretHash block)) rfl hcalled
        have hlearns : s.Learns (.chain (.secretRegistered secret' s.received.secretHash block))
            secret' := ⟨hs, if_pos rfl⟩
        -- What is known stays known, whatever reaches the mediator afterwards.
        rw [hothers, Machine.run_cons]
        exact Mediator.run_knowsSecret (Mediator.run_knowsSecret hlearns.knowsSecret others) _
      · -- This event leaves the mediator waiting, so it is one of the others.
        have hidles : s.Idles (.chain e) :=
          Mediator.idles_chain (fun secret' block heq => htold ⟨secret', block, heq⟩)
        obtain ⟨hstatus, -⟩ := facts_idles hf hget hs (i := .chain e)
          (fun fact hfact => Option.some.inj hfact ▸ hidles)
        have hrest := (List.mem_cons.mp hmem).resolve_left
          (fun heq => htold ⟨secret, registered, heq.symm⟩)
        have hdeal := s.run_sameDeal (b.facts k (.chain e))
        have hafter := h.after hf (.chain e)
        rw [Transfer.run_mediator] at hafter
        refine ih hafter (hf.after _) ((Transfer.key_run_mediator s _).trans hk) hstatus ?_
        rwa [hdeal.received]

end Mediated

/-! ### The offered locks -/

/-- If it is a mediator, the lock that it offers expires early enough. -/
def Early (t : Transfer) : Prop := ∀ s, t = .mediator s → s.OffersEarly

section Early

variable {b : Broker}

theorem closed_early : Closed (fun _ _ => True) Early where
  create _ _ _ _ _ _ _ := trivial
  step t i h s hs := by
    cases t with
    | mediator s₀ =>
        obtain rfl : (s₀.step i).1 = s := Transfer.mediator.inj hs
        exact Mediator.step_offersEarly (h s₀ rfl) i
    | _ => cases hs

theorem Started.early {i : BrokerInput} {b' : Broker} {t : Transfer} {effects : List Effect}
    (h : b.Started i b' t effects) : Early t := by
  rcases h.begins with ⟨terms, -, heq⟩ | ⟨sender, m, c, c', -, -, -, heq⟩
  · cases heq
    exact fun s hs => nomatch hs
  · obtain rfl : t = _ := congrArg Prod.fst heq
    intro s hs
    unfold beginOffered at hs
    split at hs
    · cases hs
    · obtain rfl := Transfer.mediator.inj hs
      exact Mediator.start_offersEarly _ b.block

/-- Every mediator offers a lock that expires a reveal timeout before the received one. -/
theorem after_early (h : Holds (fun _ _ => True) Early b) (i : BrokerInput) :
    Holds (fun _ _ => True) Early (b.after i) :=
  h.after_of_base closed_early (fun _ _ _ => trivial)
    (fun _ _ _ hreaction => (start_of_reaction hreaction).early)

theorem run_offersEarly (h : Holds (fun _ _ => True) Early b) (inputs : List BrokerInput) :
    Holds (fun _ _ => True) Early (b.run inputs) := by
  induction inputs generalizing b with
  | nil => exact h
  | cons i rest ih => exact ih (after_early h i)

end Early

end Broker

end PaymentNetwork

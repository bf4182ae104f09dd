import PaymentNetwork.Proofs.Broker.Actions
import PaymentNetwork.Proofs.Transfer.Mediation
import PaymentNetwork.Proofs.Transfer.Payment

/-!
# What a Transfer Is Told

A transfer of a node, seen as a run of its machine.

A transfer in progress is a machine that runs in a larger one. It gets the facts that the
inputs tell it, and the refusals of its own locks in between. Everything that it asks for
is asked for in that run, and whatever the others do is no matter to it. `factsOf` lists
the facts, and `react_tracks` says that the broker does nothing to the transfer but run
it on them. So what is true of every run of a machine is true of the transfers of a node.

Of what is done for a transfer only the reports of payments are followed here. They name
the hash, so they tell whose they are.

## Main definitions

* `Broker.sentOn`: The reports of payments on a hash among some actions.
* `Broker.feedFacts`, `Broker.facts`, `Broker.factsOf`: The facts that reach a transfer.
* `Broker.kept`: What is kept of a transfer.
* `Broker.Tracks`: What is left of a transfer, and what was reported, is that of a run.

## Theorems

* `Broker.sentOn_settle`: Whose reports are made.
* `Broker.feedAll_tracks`, `Broker.feedAll_idle`: What telling is to a transfer in progress,
  and to a key that is free.
* `Broker.mem_feedFacts`, `Broker.feedFacts_of_nodup`: Which facts these are.
* `Broker.react_tracks`, `Broker.react_idle`: The same for any input.
-/

namespace PaymentNetwork

namespace Action

/-- The report of a payment of ours that the action is, if it is one. -/
def sent? : Action → Option SentTransfer
  | report (.sent r) => some r
  | _ => none

theorem sent?_of_isAside {a : Action} (h : a.isAside = true) : a.sent? = none := by
  cases a with
  | report r =>
      cases r with
      | notice n => rfl
      | _ => cases h
  | _ => rfl

end Action

namespace Broker

/-- The reports of payments of ours on a hash, among some actions. -/
def sentOn (h : SecretHash) (actions : List Action) : List SentTransfer :=
  (actions.filterMap Action.sent?).filter fun r => decide (r.secretHash = h)

theorem sentOn_append (h : SecretHash) (xs ys : List Action) :
    sentOn h (xs ++ ys) = sentOn h xs ++ sentOn h ys := by
  rw [sentOn, List.filterMap_append, List.filter_append]
  rfl

theorem sentOn_eq_nil {h : SecretHash} {actions : List Action}
    (hnone : ∀ a ∈ actions, a.sent? = none) : sentOn h actions = [] := by
  rw [sentOn, List.filterMap_eq_nil_iff.mpr hnone]
  rfl

/-! ### The reports of a transfer -/

theorem noticeOf_sent (level : NoticeLevel) (info : String) :
    (noticeOf level info).filterMap Action.sent? = [] := by
  unfold noticeOf
  split
  · rfl
  · rfl

theorem perform_sent (view : NetworkView) (block : Height) (e : Effect) :
    (perform view block e).actions.filterMap Action.sent? = e.sent?.toList := by
  cases e with
  | sendUnlock =>
      dsimp only [perform, build]
      split
      · rfl
      · dsimp only
        rw [noticeOf_sent]
        rfl
  | sendLockRemoval =>
      dsimp only [perform, build]
      split
      · rfl
      · rfl
  | unlockFailed =>
      dsimp only [perform]
      rw [noticeOf_sent]
      rfl
  | notice =>
      dsimp only [perform]
      rw [noticeOf_sent]
      rfl
  | _ => rfl

/-- What is reported is what was asked to be reported, in order. -/
theorem Performs.reports {block : Height} {effects : List Effect} {actions : List Action}
    (h : Performs block effects actions) :
    actions.filterMap Action.sent? = Effect.sent effects := by
  induction h with
  | nil => rfl
  | sent later ih => exact ih
  | refused later ih => exact ih
  | @performed view e effects actions hother later ih =>
      rw [List.filterMap_append, ih, perform_sent]
      cases hsent : e.sent? with
      | none => exact (List.filterMap_cons_none hsent).symm
      | some r => exact (List.filterMap_cons_some hsent).symm

/-- The reports are all of one payment, the one of the transfer. -/
def Names (t : Transfer) (reports : List SentTransfer) : Prop :=
  ∀ r ∈ reports, t.key = ⟨.initiator, r.secretHash⟩

theorem step_names (t : Transfer) (i : Input) : Names t (Effect.sent (t.step i).2) := by
  intro r hr
  obtain ⟨hrole, hhash⟩ := Transfer.step_sent hr
  rw [Transfer.key, hrole, hhash]

theorem effects_names (t : Transfer) (inputs : List Input) :
    Names t (Effect.sent (Machine.effects Transfer.step t inputs)) := by
  induction inputs generalizing t with
  | nil => exact fun r hr => nomatch hr
  | cons i rest ih =>
      intro r hr
      rw [Machine.effects_cons, Effect.sent_append, List.mem_append] at hr
      rcases hr with hr | hr
      · exact step_names t i r hr
      · rw [← t.step_key i]
        exact ih (t.step i).1 r hr

/-- Carrying out effects makes the reports of the transfer, on its hash. -/
theorem sentOn_settle (b : Broker) {t : Transfer} {effects : List Effect}
    (hnames : Names t (Effect.sent effects)) (h : SecretHash) :
    sentOn h (b.settle t effects).2
      = if t.key = ⟨.initiator, h⟩ then Effect.sent (asked b.view b.block t effects) else [] := by
  have hnames' : Names t (Effect.sent (asked b.view b.block t effects)) := by
    intro r hr
    rw [asked, Effect.sent_append, List.mem_append] at hr
    rcases hr with hr | hr
    · exact hnames r hr
    · exact effects_names t _ r hr
  have hsent : (b.settle t effects).2.filterMap Action.sent?
      = Effect.sent (asked b.view b.block t effects) :=
    (drain_performs b.view b.block t effects).reports
  rw [sentOn, hsent]
  by_cases hkey : t.key = ⟨.initiator, h⟩
  · rw [if_pos hkey]
    refine List.filter_eq_self.mpr (fun r hr => decide_eq_true ?_)
    exact congrArg TransferKey.secretHash ((hnames' r hr).symm.trans hkey)
  · rw [if_neg hkey]
    refine List.filter_eq_nil_iff.mpr (fun r hr hhash => hkey ?_)
    -- A report on the hash would be one of this transfer, under another key.
    rw [hnames' r hr, of_decide_eq_true hhash]

/-! ### What a transfer is told -/

/-- The facts that reach the transfer of a key when it is the turn of one: the fact, if it
    is its own turn, and after that the refusals that it meets. -/
def turnFacts (b : Broker) (fact : Input) (k key : TransferKey) : List Input :=
  if key = k then
    match b.transfers.get? key with
    | some t => fact :: refusals b.view b.block (t.step fact).1 (t.step fact).2
    | none => []
  else []

/-- The facts that reach the transfer of a key while some keys are told a fact. -/
def feedFacts (b : Broker) (fact : Input) (k : TransferKey) : List TransferKey → List Input
  | [] => []
  | key :: keys => b.turnFacts fact k key ++ (b.feed fact key).1.feedFacts fact k keys

/-- The facts that reach the transfer of a key in a reaction. One that begins meets
    refusals only. -/
def Reaction.facts (k : TransferKey) : Reaction → List Input
  | tell b fact keys => b.feedFacts fact k keys
  | start b t effects => if t.key = k then refusals b.view b.block t effects else []
  | rest _ => []

/-- The facts that reach the transfer of a key because of an input. -/
def facts (b : Broker) (k : TransferKey) (i : BrokerInput) : List Input := (b.reaction i).facts k

/-- The facts that reach the transfers of a key in a run. -/
def factsOf (b : Broker) (k : TransferKey) (inputs : List BrokerInput) : List Input :=
  collect after (fun b i => b.facts k i) b inputs

theorem factsOf_append (b : Broker) (k : TransferKey) (first later : List BrokerInput) :
    b.factsOf k (first ++ later) = b.factsOf k first ++ (b.run first).factsOf k later :=
  collect_append _ _ b first later

@[simp] theorem factsOf_singleton (b : Broker) (k : TransferKey) (i : BrokerInput) :
    b.factsOf k [i] = b.facts k i := List.append_nil _

/-- A transfer as it is kept: not at all if it is over. -/
def kept (t : Transfer) : Option Transfer := if t.isTerminal then none else some t

theorem kept_of_isTerminal {t : Transfer} (h : t.isTerminal = true) : kept t = none := if_pos h

theorem kept_of_not_isTerminal {t : Transfer} (h : t.isTerminal = false) : kept t = some t :=
  if_neg (Bool.eq_false_iff.mp h)

/-- What is left of a transfer, and what was reported on its hash, is that of a run of
    it. -/
structure Tracks (k : TransferKey) (t : Transfer) (facts : List Input) (after : Option Transfer)
    (actions : List Action) : Prop where
  transfer : after = kept (Machine.run Transfer.step t facts)
  sent : ∀ h, k = ⟨.initiator, h⟩ →
    sentOn h actions = Effect.sent (Machine.effects Transfer.step t facts)

section Feed

variable {b : Broker} {fact : Input} {k : TransferKey}

theorem turnFacts_of_ne {key : TransferKey} (h : key ≠ k) : b.turnFacts fact k key = [] := if_neg h

theorem turnFacts_of_none (h : b.transfers.get? k = none) (key : TransferKey) :
    b.turnFacts fact k key = [] := by
  rw [turnFacts]
  split
  · rename_i heq
    rw [heq, h]
  · rfl

theorem turnFacts_self {t : Transfer} (h : b.transfers.get? k = some t) :
    b.turnFacts fact k k
      = fact :: refusals b.view b.block (t.step fact).1 (t.step fact).2 := by
  rw [turnFacts, if_pos rfl, h]

/-- After a step a transfer still reports on its own hash only. -/
theorem stepped_names (t : Transfer) (i : Input) :
    Names (t.step i).1 (Effect.sent (t.step i).2) := by
  intro r hr
  rw [t.step_key]
  exact step_names t i r hr

/-- The reports of others are on other hashes. -/
theorem sentOn_feed_of_ne (hf : b.Filed) {key : TransferKey} {h : SecretHash}
    (hne : key ≠ ⟨.initiator, h⟩) : sentOn h (b.feed fact key).2 = [] := by
  cases ht : b.transfers.get? key with
  | none =>
      rw [feed, ht]
      rfl
  | some t =>
      have hother : (t.step fact).1.key ≠ ⟨.initiator, h⟩ := by
        rwa [t.step_key, (hf key t ht).1]
      rw [feed_of_some ht, sentOn_settle b (stepped_names t fact), if_neg hother]

/-- Nobody reports for a key that is free. -/
theorem sentOn_feed_of_none (hf : b.Filed) {h : SecretHash}
    (hk : b.transfers.get? ⟨.initiator, h⟩ = none) (key : TransferKey) :
    sentOn h (b.feed fact key).2 = [] := by
  by_cases hkey : key = ⟨.initiator, h⟩
  · rw [feed, hkey, hk]
    rfl
  · exact sentOn_feed_of_ne hf hkey

/-- A key that is free stays free when one is told. -/
theorem get?_feed_of_none (hf : b.Filed) (hk : b.transfers.get? k = none) (key : TransferKey) :
    (b.feed fact key).1.transfers.get? k = none :=
  get?_feedAll_of_none hf hk fact [key]

/-- Nothing reaches a key that is free, and nothing is reported on it. -/
theorem feedAll_idle (fact : Input) (hf : b.Filed) (hk : b.transfers.get? k = none)
    (keys : List TransferKey) :
    b.feedFacts fact k keys = [] ∧
    ∀ h, k = ⟨.initiator, h⟩ → sentOn h (b.feedAll fact keys).2 = [] := by
  induction keys generalizing b with
  | nil => exact ⟨rfl, fun _ _ => rfl⟩
  | cons key rest ih =>
      obtain ⟨hfacts, hsent⟩ := ih (feed_filed hf fact key) (get?_feed_of_none hf hk key)
      refine ⟨by rw [feedFacts, turnFacts_of_none hk, hfacts, List.append_nil], ?_⟩
      rintro h rfl
      rw [feedAll_cons, sentOn_append, sentOn_feed_of_none hf hk, hsent h rfl, List.append_nil]

/-- Whoever is told a fact runs on it, and on the refusals that it meets. -/
theorem feed_tracks (fact : Input) (hf : b.Filed) {t : Transfer}
    (ht : b.transfers.get? k = some t) :
    Tracks k t (b.turnFacts fact k k) ((b.feed fact k).1.transfers.get? k) (b.feed fact k).2 := by
  have hkey : (t.step fact).1.key = k := (t.step_key fact).trans (hf k t ht).1
  rw [turnFacts_self ht, feed_of_some ht]
  refine ⟨?_, fun h hh => ?_⟩
  · have hget := get?_settle_self b (t.step fact).1 (t.step fact).2
    rw [hkey, drain_refusals] at hget
    exact hget
  · rw [sentOn_settle b (stepped_names t fact), if_pos (hkey.trans hh)]
    rfl

/-- A transfer in progress runs on the facts that reach it. -/
theorem feedAll_tracks (fact : Input) (hf : b.Filed) {t : Transfer}
    (ht : b.transfers.get? k = some t) (keys : List TransferKey) :
    Tracks k t (b.feedFacts fact k keys) ((b.feedAll fact keys).1.transfers.get? k)
      (b.feedAll fact keys).2 := by
  induction keys generalizing b t with
  | nil =>
      refine ⟨?_, fun _ _ => rfl⟩
      rw [feedFacts, Machine.run_nil, kept_of_not_isTerminal (hf k t ht).2]
      exact ht
  | cons key rest ih =>
      have hf' := feed_filed hf fact key
      have hafter : (b.feedAll fact (key :: rest)).1 = ((b.feed fact key).1.feedAll fact rest).1 :=
        rfl
      rw [feedFacts, hafter, feedAll_cons]
      by_cases hkey : key = k
      · subst hkey
        have hfed := feed_tracks fact hf ht
        have hdone := hfed.transfer
        generalize hrun : Machine.run Transfer.step t (b.turnFacts fact key key) = t' at hdone
        -- If it is over now, the key is free for the rest.
        cases hterminal : t'.isTerminal with
        | true =>
            rw [kept_of_isTerminal hterminal] at hdone
            obtain ⟨hfacts, hsent⟩ := feedAll_idle fact hf' hdone rest
            rw [hfacts, List.append_nil, get?_feedAll_of_none hf' hdone]
            refine ⟨?_, fun h hh => ?_⟩
            · rw [hrun, kept_of_isTerminal hterminal]
            · rw [sentOn_append, hsent h hh, List.append_nil, hfed.sent h hh]
        | false =>
            rw [kept_of_not_isTerminal hterminal] at hdone
            -- Otherwise it is in progress for the rest, where it may be called again.
            have hrest := ih hf' hdone
            refine ⟨?_, fun h hh => ?_⟩
            · rw [Machine.run_append, hrun]
              exact hrest.transfer
            · rw [sentOn_append, Machine.effects_append, Effect.sent_append, hrun,
                hfed.sent h hh, hrest.sent h hh]
      · have hnext : (b.feed fact key).1.transfers.get? k = some t := by
          rw [get?_feed_of_ne hf (Ne.symm hkey), ht]
        have hrest := ih hf' hnext
        rw [turnFacts_of_ne hkey, List.nil_append]
        refine ⟨hrest.transfer, ?_⟩
        rintro h rfl
        rw [sentOn_append, sentOn_feed_of_ne hf hkey, List.nil_append, hrest.sent h rfl]

/-- Every fact that reaches a transfer is the one that is told, or a refusal. -/
theorem mem_feedFacts {keys : List TransferKey} {i : Input} (h : i ∈ b.feedFacts fact k keys) :
    i = fact ∨ ∃ refusal, i = .routeRefused refusal := by
  induction keys generalizing b with
  | nil => cases h
  | cons key rest ih =>
      rw [feedFacts, List.mem_append] at h
      rcases h with h | h
      · rw [turnFacts] at h
        split at h
        · split at h
          · rcases List.mem_cons.mp h with rfl | h
            · exact Or.inl rfl
            · exact Or.inr (exists_of_mem_refusals h)
          · cases h
        · cases h
      · exact ih h

/-- A transfer that is not called is told nothing. -/
theorem feedFacts_of_not_mem {keys : List TransferKey} (h : k ∉ keys) :
    b.feedFacts fact k keys = [] := by
  induction keys generalizing b with
  | nil => rfl
  | cons key rest ih =>
      rw [List.mem_cons, not_or] at h
      rw [feedFacts, turnFacts_of_ne (Ne.symm h.1), ih h.2, List.append_nil]

/-- A transfer that is called once is told the fact once, and first. -/
theorem feedFacts_of_nodup {keys : List TransferKey} (h : keys.Nodup) {before since : List Input}
    {i : Input} (hfacts : b.feedFacts fact k keys = before ++ i :: since)
    (hi : ∀ refusal, i ≠ .routeRefused refusal) : before = [] := by
  induction keys generalizing b with
  | nil => exact absurd hfacts.symm (List.append_ne_nil_of_right_ne_nil _ (List.cons_ne_nil _ _))
  | cons key rest ih =>
      rw [List.nodup_cons] at h
      rw [feedFacts] at hfacts
      by_cases hkey : key = k
      · subst hkey
        rw [feedFacts_of_not_mem h.1, List.append_nil, turnFacts, if_pos rfl] at hfacts
        split at hfacts
        · -- Behind the fact there are only refusals.
          cases before with
          | nil => rfl
          | cons j before =>
              rw [List.cons_append, List.cons.injEq] at hfacts
              have hmem : i ∈ before ++ i :: since := List.mem_append_right _ List.mem_cons_self
              obtain ⟨refusal, heq⟩ := exists_of_mem_refusals (hfacts.2 ▸ hmem)
              exact absurd heq (hi refusal)
        · exact absurd hfacts.symm (List.append_ne_nil_of_right_ne_nil _ (List.cons_ne_nil _ _))
      · rw [turnFacts_of_ne hkey, List.nil_append] at hfacts
        exact ih h.2 hfacts

end Feed

/-! ### What an input is to a transfer -/

section React

variable {b : Broker} {i : BrokerInput} {k : TransferKey}

/-- Only the work of a reaction can report anything. -/
theorem sentOn_react (b : Broker) (i : BrokerInput) (h : SecretHash) :
    sentOn h (b.react i).2 = match b.reaction i with
      | .tell b' fact keys => sentOn h (b'.feedAll fact keys).2
      | .start b' t effects => sentOn h (b'.settle t effects).2
      | .rest _ => [] := by
  obtain ⟨asides, hactions, hasides⟩ := b.react_actions i
  have hquiet : sentOn h asides = [] :=
    sentOn_eq_nil (fun a ha => Action.sent?_of_isAside (hasides a ha))
  rw [hactions, sentOn_append, hquiet, List.nil_append]
  cases b.reaction i with
  | tell b' fact keys =>
      have hswept : sentOn h ((b'.feedAll fact keys).1.swept fact) = [] := by
        refine sentOn_eq_nil (fun a ha => ?_)
        cases fact with
        | block number =>
            obtain ⟨recipient, m, rfl⟩ := exists_of_mem_removeLocks ha
            rfl
        | _ => cases ha
      rw [Reaction.actions, sentOn_append, hswept, List.append_nil]
  | start b' t effects => rfl
  | rest b' => rfl

/-- A transfer that was offered reports no payment of ours. -/
theorem beginOffered_sent (view : NetworkView) (block : Height) (payerRoute : Route)
    (m : LockedTransfer) : Effect.sent (beginOffered view block payerRoute m).2 = [] := by
  unfold beginOffered
  split
  · exact Target.start_unreported _ block
  · obtain ⟨s, hstart, -⟩ := Mediator.start_eq_tryNextRoute
      ⟨view.ourAddress, payerRoute, m, view.routes m.balanceProof.tokenNetwork⟩ block
    rw [hstart]
    exact s.tryNextRoute_unreported

/-- Transfers begin with reports on their own hash, if any. -/
theorem Started.names {b' : Broker} {t : Transfer} {effects : List Effect}
    (h : b.Started i b' t effects) : Names t (Effect.sent effects) := by
  rcases h.begins with ⟨terms, -, heq⟩ | ⟨sender, m, c, c', -, -, -, heq⟩
  · obtain rfl : t = _ := congrArg Prod.fst heq
    obtain rfl : effects = _ := congrArg Prod.snd heq
    intro r hr
    rw [((Initiator.start_reports _ b.block).of_mem hr).1]
    exact congrArg (fun terms : TransferTerms => (⟨.initiator, terms.secretHash⟩ : TransferKey))
      (Initiator.start_terms _ b.block)
  · obtain rfl : effects = _ := congrArg Prod.snd heq
    intro r hr
    rw [beginOffered_sent] at hr
    cases hr

/-- An input makes a transfer in progress run on the facts that reach it. -/
theorem react_tracks (hf : b.Filed) {t : Transfer} (ht : b.transfers.get? k = some t) :
    Tracks k t (b.facts k i) ((b.after i).transfers.get? k) (b.react i).2 := by
  have hstays : some t = kept (Machine.run Transfer.step t []) :=
    (kept_of_not_isTerminal (hf k t ht).2).symm
  have hsent := b.sentOn_react i
  rw [after_eq, facts]
  cases hreaction : b.reaction i with
  | tell b' fact keys =>
      have htold := tell_of_reaction hreaction
      have htracks := feedAll_tracks fact
        (fun k t ht => hf k t (htold.transfers ▸ ht)) (htold.transfers ▸ ht) keys
      rw [Reaction.outcome, tidy_transfers]
      refine ⟨htracks.transfer, fun h hh => ?_⟩
      rw [hsent, hreaction]
      exact htracks.sent h hh
  | start b' t' effects =>
      have hstarted := start_of_reaction hreaction
      -- A transfer only begins under a key that is free, so it is another one.
      have hne : k ≠ t'.key := (hstarted.key_ne ht).symm
      rw [Reaction.facts, if_neg hne.symm]
      refine ⟨?_, fun h hh => ?_⟩
      · rw [Reaction.outcome, get?_settle_of_ne hne, hstarted.transfers, ht, hstays]
      · rw [hsent, hreaction]
        dsimp only
        rw [sentOn_settle b' hstarted.names, if_neg (fun heq => hne (hh.trans heq.symm))]
        rfl
  | rest b' =>
      refine ⟨?_, fun h hh => ?_⟩
      · rw [Reaction.outcome, (rest_of_reaction hreaction).1, ht, hstays]
        rfl
      · rw [hsent, hreaction]
        rfl

/-- An input that begins nothing under a free key leaves it free. -/
theorem react_idle (hf : b.Filed) (hk : b.transfers.get? k = none)
    (hnew : ∀ b' t effects, b.reaction i = .start b' t effects → t.key ≠ k) :
    (b.after i).transfers.get? k = none ∧
    ∀ h, k = ⟨.initiator, h⟩ → sentOn h (b.react i).2 = [] := by
  have hsent := b.sentOn_react i
  rw [after_eq]
  cases hreaction : b.reaction i with
  | tell b' fact keys =>
      have htold := tell_of_reaction hreaction
      have hf' : b'.Filed := fun k t ht => hf k t (htold.transfers ▸ ht)
      have hk' : b'.transfers.get? k = none := by
        rw [htold.transfers, hk]
      rw [Reaction.outcome, tidy_transfers, get?_feedAll_of_none hf' hk']
      refine ⟨rfl, fun h hh => ?_⟩
      rw [hsent, hreaction]
      exact (feedAll_idle fact hf' hk' keys).2 h hh
  | start b' t effects =>
      have hstarted := start_of_reaction hreaction
      have hne := hnew b' t effects hreaction
      rw [Reaction.outcome, get?_settle_of_ne (Ne.symm hne), hstarted.transfers, hk]
      refine ⟨rfl, fun h hh => ?_⟩
      rw [hsent, hreaction]
      dsimp only
      rw [sentOn_settle b' hstarted.names, if_neg (fun heq => hne (heq.trans hh.symm))]
  | rest b' =>
      rw [Reaction.outcome, (rest_of_reaction hreaction).1, hk]
      refine ⟨rfl, fun h hh => ?_⟩
      rw [hsent, hreaction]

/-- Every fact that reaches a transfer is one that the input tells, or a refusal. -/
theorem mem_facts {fact : Input} (h : fact ∈ b.facts k i) :
    i.fact? = some fact ∨ ∃ refusal, fact = .routeRefused refusal := by
  rw [facts] at h
  cases hreaction : b.reaction i with
  | tell b' fact' keys =>
      rw [hreaction] at h
      rcases mem_feedFacts h with rfl | hrefusal
      · exact Or.inl (tell_of_reaction hreaction).tells
      · exact Or.inr hrefusal
  | start b' t effects =>
      rw [hreaction, Reaction.facts] at h
      split at h
      · exact Or.inr (exists_of_mem_refusals h)
      · cases h
  | rest b' =>
      rw [hreaction] at h
      cases h

end React

end Broker

end PaymentNetwork

import Mathlib.Data.List.Induction
import PaymentNetwork.Proofs.Broker.Facts

/-!
# Every Payment Is Reported Once

What a node reports about the payments that it was asked for.

A payment that was accepted is in progress until its end is reported. The reports on a
secret hash and the payment in progress on it, if there is one, are therefore exactly the
payments that were accepted on it, in the same order and on the same terms. A payment
that is refused because another one is in progress on its hash is not reported at all,
since the caller is told.

What is reported is true. A payment completes only after its target asked for the secret,
and only when the next hop shows the secret and is paid, or the ledger shows it. And as a
payment is a run of its initiator, the next hop is paid once at most, and not at all if it
is reported that the payment failed.

## Main definitions

* `Broker.accepts?`, `Broker.payments`: Payments that may begin.
* `Broker.pending`: The payment in progress on a hash.
* `Broker.Requested`, `Broker.Completes`: The target asked for the secret of the payment,
  and an input that completes it.
* `Broker.Life`: A payment from its beginning on.
* `Broker.PaymentLaw`: What is reported of payments.

## Theorems

* `Broker.react_account`, `Broker.run_account`: Reports and payments in progress balance.
* `Broker.requested_of_waiting`, `Broker.completes_of_mem_sentOn`: What comes before a
  report that a payment completed.
* `Broker.life_of_payment`: A payment is a run of its initiator.
* `Broker.run_paymentLaw`: The law for every run.
-/

namespace PaymentNetwork

namespace Broker

/-! ### Payments that may begin -/

/-- The terms of the payment that the input begins, if it begins one. -/
def accepts? (b : Broker) : BrokerInput → Option TransferTerms
  | .pay terms =>
    match b.pay terms with
    | .ok _ => some terms
    | .error _ => none
  | _ => none

/-- The payments on a hash that may begin in a run, in order. -/
def payments (b : Broker) (h : SecretHash) (inputs : List BrokerInput) : List TransferTerms :=
  (collect after (fun b i => (b.accepts? i).toList) b inputs).filter
    fun terms => decide (terms.secretHash = h)

/-- The payment in progress on a hash. -/
def pending (b : Broker) (h : SecretHash) : List TransferTerms :=
  match b.transfers.get? ⟨.initiator, h⟩ with
  | some (.initiator s) => [s.terms]
  | _ => []

section Payments

variable {b : Broker} {i : BrokerInput} {h : SecretHash}

theorem payments_append (b : Broker) (h : SecretHash) (first later : List BrokerInput) :
    b.payments h (first ++ later) = b.payments h first ++ (b.run first).payments h later := by
  rw [payments, collect_append, List.filter_append]
  rfl

/-- A transfer in progress under the key of an initiator is one. -/
theorem exists_initiator (hf : b.Filed) {t : Transfer}
    (ht : b.transfers.get? ⟨.initiator, h⟩ = some t) :
    ∃ s : Initiator, t = .initiator s ∧ s.terms.secretHash = h := by
  have hkey := (hf _ t ht).1
  cases t with
  | initiator s => exact ⟨s, rfl, congrArg TransferKey.secretHash hkey⟩
  | mediator s => cases congrArg TransferKey.role hkey
  | target s => cases congrArg TransferKey.role hkey

/-- How a payment on some terms begins. -/
def beginning (b : Broker) (terms : TransferTerms) : StartInitiator :=
  ⟨b.view.ourAddress, terms, b.view.routes terms.tokenNetwork⟩

theorem beginning_key (b : Broker) (terms : TransferTerms) :
    (Transfer.initiator (Initiator.start (b.beginning terms) b.block).1).key
      = ⟨.initiator, terms.secretHash⟩ :=
  congrArg (fun terms : TransferTerms => (⟨.initiator, terms.secretHash⟩ : TransferKey))
    (Initiator.start_terms _ b.block)

/-- A payment may begin exactly if none is in progress on its hash. -/
theorem accepts?_pay (b : Broker) (terms : TransferTerms) :
    b.accepts? (.pay terms)
      = if b.transfers.contains ⟨.initiator, terms.secretHash⟩ then none else some terms := by
  have hkey := b.beginning_key terms
  have hpay : b.pay terms
      = b.begin? (.initiator (Initiator.start (b.beginning terms) b.block).1)
          (Initiator.start (b.beginning terms) b.block).2 := rfl
  rw [accepts?, hpay, begin?, ← hkey]
  by_cases hprogress : b.transfers.contains
      (Transfer.initiator (Initiator.start (b.beginning terms) b.block).1).key = true
  · have hprogress' : b.transfers.contains
        ⟨(Transfer.initiator (Initiator.start (b.beginning terms) b.block).1).role,
          (Transfer.initiator (Initiator.start (b.beginning terms) b.block).1).secretHash⟩ = true :=
      hprogress
    rw [if_pos hprogress, if_pos hprogress']
  · have hprogress' : ¬ b.transfers.contains
        ⟨(Transfer.initiator (Initiator.start (b.beginning terms) b.block).1).role,
          (Transfer.initiator (Initiator.start (b.beginning terms) b.block).1).secretHash⟩ = true :=
      hprogress
    rw [if_neg hprogress, if_neg hprogress']

/-- A payment that may begin does. -/
theorem reaction_of_accepts? {terms : TransferTerms} (ha : b.accepts? (.pay terms) = some terms) :
    b.transfers.get? ⟨.initiator, terms.secretHash⟩ = none ∧
    b.reaction (.pay terms) = .start b
      (.initiator (Initiator.start (b.beginning terms) b.block).1)
      (Initiator.start (b.beginning terms) b.block).2 := by
  rw [accepts?_pay, Option.ite_none_left_eq_some] at ha
  refine ⟨get?_eq_none_of_not_contains ha.1, ?_⟩
  have hfree : ¬ b.transfers.contains
      (Transfer.initiator (Initiator.start (b.beginning terms) b.block).1).key = true := by
    rw [beginning_key]
    exact ha.1
  exact (b.reaction_pay terms).trans (if_neg hfree)

/-- Nothing but a payment begins an initiator. -/
theorem accepts?_of_start {b' : Broker} {t : Transfer} {effects : List Effect}
    (hreaction : b.reaction i = .start b' t effects) (hkey : t.key = ⟨.initiator, h⟩) :
    ∃ terms, i = .pay terms ∧ b.accepts? i = some terms ∧ terms.secretHash = h := by
  have hstarted := start_of_reaction hreaction
  rcases hstarted.begins with ⟨terms, rfl, heq⟩ | ⟨sender, m, c, c', -, -, -, heq⟩
  · obtain rfl : t = _ := congrArg Prod.fst heq
    have hkeys : (⟨.initiator, terms.secretHash⟩ : TransferKey) = ⟨.initiator, h⟩ :=
      (b.beginning_key terms).symm.trans hkey
    refine ⟨terms, rfl, ?_, congrArg TransferKey.secretHash hkeys⟩
    have hfree : ¬ b.transfers.contains ⟨.initiator, terms.secretHash⟩ = true := by
      have hnew : b.transfers.get? ⟨.initiator, terms.secretHash⟩ = none := by
        rw [hkeys, ← hkey]
        exact hstarted.new
      rw [SortedMap.contains, hnew]
      exact Bool.false_ne_true
    rw [accepts?_pay, if_neg hfree]
  · obtain rfl : t = _ := congrArg Prod.fst heq
    have hrole := congrArg TransferKey.role hkey
    unfold beginOffered at hrole
    split at hrole
    · cases hrole
    · cases hrole

/-- What a payment that begins comes to at once: a run on the refusals that it meets. -/
theorem react_begins {terms : TransferTerms} (ha : b.accepts? (.pay terms) = some terms) :
    (b.after (.pay terms)).transfers.get? ⟨.initiator, terms.secretHash⟩
      = kept (.initiator (Initiator.stateAfter (b.beginning terms) b.block
          (b.facts ⟨.initiator, terms.secretHash⟩ (.pay terms)))) ∧
    sentOn terms.secretHash (b.react (.pay terms)).2
      = Effect.sent (Initiator.effectsOf (b.beginning terms) b.block
          (b.facts ⟨.initiator, terms.secretHash⟩ (.pay terms))) ∧
    ∀ fact ∈ b.facts ⟨.initiator, terms.secretHash⟩ (.pay terms),
      ∃ refusal, fact = .routeRefused refusal := by
  have hreaction := (reaction_of_accepts? ha).2
  have hkey := b.beginning_key terms
  rw [after_eq, sentOn_react, facts, hreaction, Reaction.facts, if_pos hkey]
  refine ⟨?_, ?_, fun fact hfact => exists_of_mem_refusals hfact⟩
  · have hget := get?_settle_self b (.initiator (Initiator.start (b.beginning terms) b.block).1)
      (Initiator.start (b.beginning terms) b.block).2
    rw [hkey, drain_refusals, Transfer.run_initiator] at hget
    exact hget
  · have hnames := (start_of_reaction hreaction).names
    dsimp only
    rw [sentOn_settle b hnames, if_pos hkey, asked, Transfer.effects_initiator]
    rfl

/-- What an input is to a hash that no payment is in progress on: a payment on it begins, or
    nothing happens. -/
theorem react_free_cases (hf : b.Filed) (hfree : b.transfers.get? ⟨.initiator, h⟩ = none)
    (i : BrokerInput) :
    (∃ terms, i = .pay terms ∧ b.accepts? i = some terms ∧ terms.secretHash = h) ∨
    ((∀ terms, b.accepts? i = some terms → terms.secretHash ≠ h) ∧
      (b.after i).transfers.get? ⟨.initiator, h⟩ = none ∧ sentOn h (b.react i).2 = []) := by
  have hpay : ∀ terms, b.accepts? i = some terms → i = .pay terms := by
    intro terms ha
    cases i with
    | pay terms' =>
        rw [accepts?_pay, Option.ite_none_left_eq_some, Option.some.injEq] at ha
        rw [ha.2]
    | _ => cases ha
  -- Only a payment can begin here, so there is nothing to be told and nobody to tell it.
  by_cases hnew : ∃ terms, b.accepts? i = some terms ∧ terms.secretHash = h
  · obtain ⟨terms, ha, hhash⟩ := hnew
    exact Or.inl ⟨terms, hpay terms ha, ha, hhash⟩
  · have hidle := react_idle (i := i) hf hfree (fun b' t effects hreaction hkey => hnew (by
      obtain ⟨terms, -, ha, hhash⟩ := accepts?_of_start hreaction hkey
      exact ⟨terms, ha, hhash⟩))
    exact Or.inr ⟨fun terms ha hhash => hnew ⟨terms, ha, hhash⟩, hidle.1, hidle.2 h rfl⟩

/-! ### Reports and payments balance -/

/-- A payment in progress is pending, and one that is over is reported. -/
theorem balance_of_reports {b : Broker} {terms : TransferTerms} {s : Initiator}
    {reports : List SentTransfer} (hreports : Initiator.Reports terms s.status reports)
    (hterms : s.terms = terms)
    (hget : b.transfers.get? ⟨.initiator, h⟩ = kept (.initiator s)) :
    reports.map SentTransfer.subject ++ (b.pending h).map TransferTerms.subject
      = [terms.subject] := by
  rw [pending, hget]
  -- A transfer that is over is forgotten, and exactly then it has reported.
  cases hterminal : s.status.isTerminal with
  | false =>
      rw [hreports.eq_nil hterminal,
        kept_of_not_isTerminal (t := .initiator s) hterminal]
      exact congrArg (fun terms => [TransferTerms.subject terms]) hterms
  | true =>
      rw [kept_of_isTerminal (t := .initiator s) hterminal]
      cases houtcome : s.status.outcome? with
      | none => cases (InitiatorStatus.outcome?_eq_none_iff.mp houtcome).symm.trans hterminal
      | some outcome =>
          rw [Initiator.Reports, houtcome] at hreports
          obtain ⟨reason?, rfl⟩ := hreports
          rfl

/-- A payment that may not begin on a hash where one is in progress. -/
theorem accepted_eq_nil (hprogress : b.transfers.get? ⟨.initiator, h⟩ ≠ none) (i : BrokerInput) :
    (b.accepts? i).toList.filter (fun terms => decide (terms.secretHash = h)) = [] := by
  refine List.filter_eq_nil_iff.mpr (fun terms hterms hhash => ?_)
  have ha : b.accepts? i = some terms := Option.mem_toList.mp hterms
  cases i with
  | pay terms' =>
      rw [accepts?_pay, Option.ite_none_left_eq_some, Option.some.injEq] at ha
      obtain ⟨hfree, rfl⟩ := ha
      rw [of_decide_eq_true hhash] at hfree
      exact hprogress (get?_eq_none_of_not_contains hfree)
  | _ => cases ha

/-- Reports and payments in progress balance at every input. -/
theorem react_account (hf : b.Filed) (i : BrokerInput) (h : SecretHash) :
    (sentOn h (b.react i).2).map SentTransfer.subject
        ++ ((b.after i).pending h).map TransferTerms.subject
      = (b.pending h ++ (b.accepts? i).toList.filter
          (fun terms => decide (terms.secretHash = h))).map TransferTerms.subject := by
  cases ht : b.transfers.get? ⟨.initiator, h⟩ with
  | some t =>
      obtain ⟨s, rfl, -⟩ := exists_initiator hf ht
      have htracks := react_tracks (i := i) hf ht
      have hget := htracks.transfer
      rw [Transfer.run_initiator] at hget
      have hsent := htracks.sent h rfl
      rw [Transfer.effects_initiator] at hsent
      have hpending : b.pending h = [s.terms] := by rw [pending, ht]
      have hprogress : s.status.isTerminal = false := (hf _ _ ht).2
      have hbefore : Initiator.Reports s.terms s.status [] := Initiator.reports_nil hprogress
      have hreports := hbefore.run rfl (b.facts ⟨.initiator, h⟩ i)
      rw [List.nil_append] at hreports
      -- A key that is taken lets no other payment begin, so one subject stands on both sides.
      have hnone := accepted_eq_nil (h := h) (by rw [ht]; exact Option.some_ne_none _) i
      rw [hsent, balance_of_reports hreports (s.run_terms _) hget, hpending, hnone]
      rfl
  | none =>
      have hpending : b.pending h = [] := by rw [pending, ht]
      rw [hpending, List.nil_append]
      rcases react_free_cases hf ht i with ⟨terms, rfl, ha, rfl⟩ | ⟨hnone, hafter, hsent⟩
      · obtain ⟨hget, hsent, -⟩ := react_begins ha
        rw [hsent, balance_of_reports (Initiator.reports_effectsOf _)
          (Initiator.stateAfter_terms _ _ _) hget, ha]
        simp [beginning]
      · have hpending' : (b.after i).pending h = [] := by rw [pending, hafter]
        have haccepted : (b.accepts? i).toList.filter (fun terms => decide (terms.secretHash = h))
            = [] := by
          refine List.filter_eq_nil_iff.mpr (fun terms hterms hhash => ?_)
          exact hnone terms (Option.mem_toList.mp hterms) (of_decide_eq_true hhash)
        rw [hsent, hpending', haccepted]
        rfl

theorem run_account (hf : b.Filed) (inputs : List BrokerInput) (h : SecretHash) :
    (sentOn h (b.outputs inputs)).map SentTransfer.subject
        ++ ((b.run inputs).pending h).map TransferTerms.subject
      = (b.pending h ++ b.payments h inputs).map TransferTerms.subject := by
  induction inputs using List.reverseRec with
  | nil => rw [payments, collect, List.filter_nil, List.append_nil]; rfl
  | append_singleton inputs i ih =>
      have haccount := react_account (hf.run inputs) i h
      have hlast : (b.run inputs).payments h [i] = ((b.run inputs).accepts? i).toList.filter
          (fun terms => decide (terms.secretHash = h)) := by
        rw [payments, collect, collect, List.append_nil]
      rw [outputs_append, outputs_singleton, sentOn_append, run_append, payments_append, hlast,
        List.map_append, List.append_assoc, run_cons, run_nil, haccount, List.map_append,
        ← List.append_assoc, ih, ← List.map_append, ← List.append_assoc]

end Payments

/-! ### Completed payments -/

/-- The target of a payment asked for its secret, on the terms of the payment, while the
    payment waited for that, and the payment has been in progress since. -/
def Requested (b : Broker) (h : SecretHash) (inputs : List BrokerInput) (s : Initiator) : Prop :=
  ∃ first since s₀, inputs = first ++ .message s.terms.target
      (.secretRequest ⟨s.terms.paymentId, h, s.terms.amount⟩) :: since ∧
    (b.run first).transfers.get? ⟨.initiator, h⟩ = some (.initiator s₀) ∧
    s₀.status = .waitingSecretRequest ∧ s₀.terms = s.terms ∧
    (b.run first).KeepsInProgress ⟨.initiator, h⟩ (.message s.terms.target
      (.secretRequest ⟨s.terms.paymentId, h, s.terms.amount⟩) :: since)

/-- The input completes the payment on a hash. The secret was released before, and now the
    next hop shows it and is paid over the current route, or the ledger shows it. -/
structure Completes (b : Broker) (h : SecretHash) (before : List BrokerInput) (i : BrokerInput)
    (s : Initiator) : Prop where
  inProgress : (b.run before).transfers.get? ⟨.initiator, h⟩ = some (.initiator s)
  waiting : s.status = .waitingUnlock
  requested : b.Requested h before s
  cause : (∃ m route, i = .message route.node (.secretReveal m) ∧ hashSecret m.secret = h ∧
      s.route? = some route ∧
      .sendUnlock route.node route.channelId s.terms.paymentId m.secret h
        ∈ (s.step (.secretRevealed ⟨route.node, m.secret, h⟩)).2) ∨
    ∃ secret height, i = .chain (.secretRegistered secret h height)

section Completed

variable {b : Broker} {h : SecretHash}

/-- What an input makes of an initiator in progress. -/
theorem initiator_after (hf : b.Filed) {i : BrokerInput} {s₀ s : Initiator}
    (hold : b.transfers.get? ⟨.initiator, h⟩ = some (.initiator s₀))
    (ht : (b.after i).transfers.get? ⟨.initiator, h⟩ = some (.initiator s)) :
    Machine.run Initiator.step s₀ (b.facts ⟨.initiator, h⟩ i) = s ∧ s.terms = s₀.terms := by
  have hget := (react_tracks (i := i) hf hold).transfer
  rw [Transfer.run_initiator, ht, kept, eq_comm, Option.ite_none_left_eq_some,
    Option.some.injEq, Transfer.initiator.injEq] at hget
  obtain ⟨-, rfl⟩ := hget
  exact ⟨rfl, s₀.run_terms _⟩

/-- What the target asked for stays asked for. -/
theorem Requested.concat {inputs : List BrokerInput} {i : BrokerInput} {s₀ s : Initiator}
    (hrequested : b.Requested h inputs s₀) (hterms : s.terms = s₀.terms)
    (hlasts : (b.run (inputs ++ [i])).transfers.get? ⟨.initiator, h⟩ ≠ none) :
    b.Requested h (inputs ++ [i]) s := by
  obtain ⟨first, since, s₁, heq, hget, hstatus, hsame, hkeeps⟩ := hrequested
  rw [← hterms] at heq hsame hkeeps
  refine ⟨first, since ++ [i], s₁, ?_, hget, hstatus, hsame, ?_⟩
  · rw [heq, List.append_assoc, List.cons_append]
  · rw [← List.cons_append]
    refine keepsInProgress_concat.mpr ⟨hkeeps, ?_⟩
    rwa [← run_append, ← List.append_assoc, ← heq]

/-- An initiator that waits to be shown the secret, and did not before, was asked for it now,
    and by its target. -/
theorem asked_of_waiting (hf : b.Filed) {i : BrokerInput} {s₀ s : Initiator}
    (hold : b.transfers.get? ⟨.initiator, h⟩ = some (.initiator s₀))
    (hbefore : s₀.status ≠ .waitingUnlock)
    (ht : (b.after i).transfers.get? ⟨.initiator, h⟩ = some (.initiator s))
    (hwaiting : s.status = .waitingUnlock) :
    s₀.status = .waitingSecretRequest ∧
    i = .message s.terms.target (.secretRequest ⟨s.terms.paymentId, h, s.terms.amount⟩) := by
  obtain ⟨hrun, hterms⟩ := initiator_after hf hold ht
  obtain ⟨r, hr, hvalid⟩ := Initiator.exists_request_of_run hbefore (by rw [hrun, hwaiting])
  constructor
  · have hprogress : s₀.status.isTerminal = false := (hf _ _ hold).2
    cases hstatus : s₀.status with
    | waitingSecretRequest => rfl
    | waitingUnlock => exact absurd hstatus hbefore
    | _ =>
        rw [hstatus] at hprogress
        cases hprogress
  · have hhash : s₀.terms.secretHash = h := congrArg TransferKey.secretHash (hf _ _ hold).1
    rcases mem_facts hr with htold | ⟨refusal, heq⟩
    · -- All fields of the request are those of the payment, so it is this message and no other.
      simp only [Initiator.isValidRequest, Bool.and_eq_true, decide_eq_true_eq] at hvalid
      obtain ⟨⟨⟨htarget, hasked⟩, hamount⟩, hpayment⟩ := hvalid
      rw [BrokerInput.eq_secretRequest_of_fact? htold, hterms, htarget, hasked, hamount, hpayment,
        hhash]
    · cases heq

/-- A payment does not begin with the secret asked for, as it meets refusals at most. -/
theorem not_waiting_of_begun (hf : b.Filed) {i : BrokerInput} {s : Initiator}
    (hfree : b.transfers.get? ⟨.initiator, h⟩ = none)
    (ht : (b.after i).transfers.get? ⟨.initiator, h⟩ = some (.initiator s)) :
    s.status ≠ .waitingUnlock := by
  intro hwaiting
  rcases react_free_cases hf hfree i with ⟨terms, rfl, ha, rfl⟩ | ⟨-, hafter, -⟩
  · obtain ⟨hget, -, hrefusals⟩ := react_begins ha
    rw [hget, kept, Option.ite_none_left_eq_some, Option.some.injEq, Transfer.initiator.injEq] at ht
    obtain ⟨-, rfl⟩ := ht
    obtain ⟨r, hr, -⟩ := Initiator.exists_request_of_run (Initiator.start_status_ne _ _).1 hwaiting
    obtain ⟨refusal, heq⟩ := hrefusals _ hr
    cases heq
  · cases hafter.symm.trans ht

/-- Whoever waits to be shown the secret was asked for it. -/
theorem requested_of_waiting (hf : b.Filed) (hfree : b.transfers.get? ⟨.initiator, h⟩ = none)
    (inputs : List BrokerInput) {s : Initiator}
    (ht : (b.run inputs).transfers.get? ⟨.initiator, h⟩ = some (.initiator s))
    (hwaiting : s.status = .waitingUnlock) : b.Requested h inputs s := by
  induction inputs using List.reverseRec generalizing s with
  | nil => cases hfree.symm.trans ht
  | append_singleton inputs i ih =>
      have ht' : ((b.run inputs).after i).transfers.get? ⟨.initiator, h⟩ = some (.initiator s) := by
        rwa [run_append] at ht
      have hlasts : (b.run (inputs ++ [i])).transfers.get? ⟨.initiator, h⟩ ≠ none :=
        ht ▸ Option.some_ne_none _
      cases hold : (b.run inputs).transfers.get? ⟨.initiator, h⟩ with
      | none => exact absurd hwaiting (not_waiting_of_begun (hf.run inputs) hold ht')
      | some t =>
          obtain ⟨s₀, rfl, -⟩ := exists_initiator (hf.run inputs) hold
          have hterms := (initiator_after (hf.run inputs) hold ht').2
          by_cases hbefore : s₀.status = .waitingUnlock
          · exact (ih hold hbefore).concat hterms hlasts
          · -- It did not wait before, so the last input is the request.
            obtain ⟨hwaits, rfl⟩ := asked_of_waiting (hf.run inputs) hold hbefore ht' hwaiting
            refine ⟨inputs, [], s₀, rfl, hold, hwaits, hterms.symm, ?_⟩
            refine keepsInProgress_concat.mpr ⟨keepsInProgress_nil _ _, ?_⟩
            rwa [← run_append]

/-- A fact that completes a payment is told to it once, before anything else. -/
theorem facts_of_completing {k : TransferKey} {i : BrokerInput} {before since : List Input}
    {fact : Input} (hfacts : b.facts k i = before ++ fact :: since) (htold : i.fact? = some fact)
    (hfact : (∃ r, fact = .secretRevealed r) ∨
      ∃ secret hash height, fact = .chain (.secretRegistered secret hash height)) :
    before = [] := by
  have hkeys : ∀ hash, (keysOf [.initiator, .mediator, .target] hash).Nodup := by
    intro hash
    simp [keysOf]
  have hother : ∀ refusal, fact ≠ .routeRefused refusal := by
    rintro refusal rfl
    rcases hfact with ⟨r, heq⟩ | ⟨secret, hash, height, heq⟩
    · cases heq
    · cases heq
  rcases hfact with ⟨r, rfl⟩ | ⟨secret, hash, height, rfl⟩
  · obtain ⟨rfl, -⟩ := BrokerInput.eq_secretReveal_of_fact? htold
    exact feedFacts_of_nodup (hkeys _) hfacts hother
  · obtain rfl := BrokerInput.eq_chain_of_fact? htold
    exact feedFacts_of_nodup (hkeys _) hfacts hother

/-- A report among those of some steps is that of one of them. -/
theorem exists_step_of_mem_sent {s : Initiator} {inputs : List Input} {r : SentTransfer}
    (hr : r ∈ Effect.sent (Machine.effects Initiator.step s inputs)) :
    ∃ before i since, inputs = before ++ i :: since ∧
      r ∈ Effect.sent ((Machine.run Initiator.step s before).step i).2 := by
  induction inputs generalizing s with
  | nil => cases hr
  | cons i rest ih =>
      rw [Machine.effects_cons, Effect.sent_append, List.mem_append] at hr
      rcases hr with hr | hr
      · exact ⟨[], i, rest, rfl, hr⟩
      · obtain ⟨before, j, since, rfl, hmem⟩ := ih hr
        exact ⟨i :: before, j, since, rfl, hmem⟩

/-- A fact that completes a payment was told, and is no refusal. -/
theorem told_of_completing {k : TransferKey} {i : BrokerInput} {s : Initiator} {fact : Input}
    {r : SentTransfer} (hr : r ∈ Effect.sent (s.step fact).2) (hcompleted : r.status = .completed)
    (hfact : fact ∈ b.facts k i) : i.fact? = some fact := by
  rcases mem_facts hfact with htold | ⟨refusal, rfl⟩
  · exact htold
  · rcases (Initiator.completion_cases hr hcompleted).2 with ⟨_, _, heq, -⟩ | ⟨_, _, heq⟩
    · cases heq
    · cases heq

/-- A payment that begins may be given up at once, but does not complete. -/
theorem not_completed_of_begun (hf : b.Filed) {i : BrokerInput} {r : SentTransfer}
    (hfree : b.transfers.get? ⟨.initiator, h⟩ = none) (hr : r ∈ sentOn h (b.react i).2) :
    r.status ≠ .completed := by
  intro hcompleted
  rcases react_free_cases hf hfree i with ⟨terms, rfl, ha, rfl⟩ | ⟨-, -, hsent⟩
  · obtain ⟨-, hsent, -⟩ := react_begins ha
    rw [hsent, Initiator.effectsOf, Effect.sent_append, List.mem_append] at hr
    rcases hr with hr | hr
    · have houtcome := ((Initiator.start_reports _ _).of_mem hr).2
      rw [hcompleted] at houtcome
      exact (Initiator.start_status_ne _ _).2
        (InitiatorStatus.outcome?_eq_completed_iff.mp houtcome)
    · -- A payment is told nothing when it begins.
      obtain ⟨first, fact, since, hfacts, hmem⟩ := exists_step_of_mem_sent hr
      cases told_of_completing hmem hcompleted
        (hfacts ▸ List.mem_append_right first List.mem_cons_self)
  · rw [hsent] at hr
    cases hr

/-- That a payment completed is reported only at an input that completes it. -/
theorem completes_of_mem_sentOn (hf : b.Filed)
    (hfree : b.transfers.get? ⟨.initiator, h⟩ = none) {before : List BrokerInput} {i : BrokerInput}
    {r : SentTransfer} (hr : r ∈ sentOn h ((b.run before).react i).2)
    (hcompleted : r.status = .completed) : ∃ s, b.Completes h before i s := by
  cases ht : (b.run before).transfers.get? ⟨.initiator, h⟩ with
  | none => exact absurd hcompleted (not_completed_of_begun (hf.run before) ht hr)
  | some t =>
      obtain ⟨s, rfl, rfl⟩ := exists_initiator (hf.run before) ht
      have hsent := (react_tracks (i := i) (hf.run before) ht).sent s.terms.secretHash rfl
      rw [hsent, Transfer.effects_initiator] at hr
      obtain ⟨first, fact, since, hfacts, hmem⟩ := exists_step_of_mem_sent hr
      have htold := told_of_completing hmem hcompleted
        (hfacts ▸ List.mem_append_right first List.mem_cons_self)
      obtain ⟨hwaiting, hwhy⟩ := Initiator.completion_cases hmem hcompleted
      -- The fact comes first, so the transfer is still the one that was in progress before the
      -- input.
      have hfirst : first = [] := by
        refine facts_of_completing hfacts htold ?_
        rcases hwhy with ⟨reveal, -, heq, -⟩ | ⟨secret, height, heq⟩
        · exact Or.inl ⟨reveal, heq⟩
        · exact Or.inr ⟨secret, _, height, heq⟩
      subst hfirst
      refine ⟨s, ht, hwaiting, requested_of_waiting hf hfree before ht hwaiting, ?_⟩
      rcases hwhy with ⟨reveal, route, rfl, hroute, hnode, hhash, hunlock⟩ | ⟨secret, height, rfl⟩
      · obtain ⟨rfl, hopens⟩ := BrokerInput.eq_secretReveal_of_fact? htold
        rcases reveal with ⟨sender, secret, secretHash⟩
        obtain rfl : route.node = sender := hnode
        obtain rfl : secretHash = s.terms.secretHash := hhash
        exact Or.inl ⟨⟨secret⟩, route, rfl, hopens.symm, hroute, hunlock⟩
      · exact Or.inr ⟨secret, height, BrokerInput.eq_chain_of_fact? htold⟩

end Completed

/-! ### The life of a payment -/

/-- A payment from its beginning on is a run of its initiator, on the facts that reach
    it. -/
structure Life (b : Broker) (terms : TransferTerms) (since : List BrokerInput)
    (facts : List Input) : Prop where
  /-- It is in progress as long as the initiator is not over. -/
  transfer : (b.run (.pay terms :: since)).transfers.get? ⟨.initiator, terms.secretHash⟩
    = kept (.initiator (Initiator.stateAfter (b.beginning terms) b.block facts))
  /-- What it asks to be reported is reported, and nothing else on its hash. -/
  reports : sentOn terms.secretHash (b.outputs (.pay terms :: since))
    = Effect.sent (Initiator.effectsOf (b.beginning terms) b.block facts)
  /-- So there is one report in the end, and at most one unlock. -/
  law : Initiator.PaymentLaw (b.beginning terms) b.block facts
  /-- And there is none if it is reported that the payment did not complete. -/
  unpaid : ∀ r ∈ sentOn terms.secretHash (b.outputs (.pay terms :: since)),
    r.status ≠ .completed →
    Effect.unlocks (Initiator.effectsOf (b.beginning terms) b.block facts) = 0

section Life

variable {b : Broker} {terms : TransferTerms}

theorem life_of_run {since : List BrokerInput} {facts : List Input}
    (htransfer : (b.run (.pay terms :: since)).transfers.get? ⟨.initiator, terms.secretHash⟩
      = kept (.initiator (Initiator.stateAfter (b.beginning terms) b.block facts)))
    (hreports : sentOn terms.secretHash (b.outputs (.pay terms :: since))
      = Effect.sent (Initiator.effectsOf (b.beginning terms) b.block facts)) :
    b.Life terms since facts := by
  have hlaw := Initiator.paymentLaw (b.beginning terms) b.block facts
  refine ⟨htransfer, hreports, hlaw, fun r hr hstatus => hlaw.unpaid (fun hcompleted => ?_)⟩
  rw [hreports] at hr
  have houtcome := (hlaw.reports.of_mem hr).2
  rw [InitiatorStatus.outcome?_eq_completed_iff.mpr hcompleted, Option.some.injEq] at houtcome
  exact hstatus houtcome.symm

/-- A payment is a run of its initiator, up to the input that ends it. -/
theorem life_of_payment (hf : b.Filed) (ha : b.accepts? (.pay terms) = some terms)
    (since : List BrokerInput)
    (hkeeps : b.KeepsInProgress ⟨.initiator, terms.secretHash⟩ (.pay terms :: since).dropLast) :
    b.Life terms since (b.factsOf ⟨.initiator, terms.secretHash⟩ (.pay terms :: since)) := by
  induction since using List.reverseRec with
  | nil =>
      obtain ⟨hget, hsent, -⟩ := react_begins ha
      refine life_of_run ?_ ?_
      · rw [factsOf_singleton]
        exact hget
      · rw [outputs_singleton, factsOf_singleton]
        exact hsent
  | append_singleton since i ih =>
      rw [← List.cons_append, List.dropLast_concat] at hkeeps
      have hprefix : (.pay terms :: since).dropLast <+: .pay terms :: since :=
        List.dropLast_prefix _
      have hbefore := ih (fun first hfirst => hkeeps first (hfirst.trans hprefix))
      -- Up to here the payment was in progress, so the input is one more fact to it.
      have hprogress := hkeeps _ List.prefix_rfl (List.cons_ne_nil _ _)
      have hget := hbefore.transfer
      generalize hstate : Initiator.stateAfter (b.beginning terms) b.block
        (b.factsOf ⟨.initiator, terms.secretHash⟩ (.pay terms :: since)) = s at hget
      rw [kept] at hget
      split at hget
      · exact absurd hget hprogress
      · have htracks := react_tracks (i := i) (hf.run (.pay terms :: since)) hget
        have hlast := htracks.transfer
        rw [Transfer.run_initiator, ← hstate] at hlast
        have hsent := htracks.sent terms.secretHash rfl
        rw [Transfer.effects_initiator, ← hstate] at hsent
        refine life_of_run ?_ ?_
        · rw [← List.cons_append, run_append, factsOf_append, factsOf_singleton,
            Initiator.stateAfter_append]
          exact hlast
        · rw [← List.cons_append, outputs_append, outputs_singleton, sentOn_append,
            hbefore.reports, hsent, factsOf_append, factsOf_singleton,
            Initiator.effectsOf_append, Effect.sent_append]

end Life

/-! ### Runs -/

/-- What is reported of the payments on a hash. -/
structure PaymentLaw (b : Broker) (h : SecretHash) (inputs : List BrokerInput) : Prop where
  /-- The payments on the hash that were accepted are those that were reported, in order and
      on their terms, and the one in progress. -/
  reports : (sentOn h (b.outputs inputs)).map SentTransfer.subject
      ++ ((b.run inputs).pending h).map TransferTerms.subject
    = (b.payments h inputs).map TransferTerms.subject
  /-- So there is a report of each but the one in progress. -/
  count : (sentOn h (b.outputs inputs)).length
      + (if (b.run inputs).transfers.contains ⟨.initiator, h⟩ then 1 else 0)
    = (b.payments h inputs).length
  /-- That a payment completed is reported only at an input that completes it. -/
  completed : ∀ before i later, inputs = before ++ i :: later →
    ∀ r ∈ sentOn h ((b.run before).react i).2, r.status = .completed →
      ∃ s, b.Completes h before i s
  /-- Every payment that was accepted is a run of its initiator, up to the input that ends
      it. -/
  lives : ∀ before terms since later, inputs = before ++ (.pay terms :: since) ++ later →
    (b.run before).accepts? (.pay terms) = some terms → terms.secretHash = h →
    (b.run before).KeepsInProgress ⟨.initiator, h⟩ (.pay terms :: since).dropLast →
      (b.run before).Life terms since ((b.run before).factsOf ⟨.initiator, h⟩ (.pay terms :: since))

theorem length_pending {b : Broker} (hf : b.Filed) (h : SecretHash) :
    (b.pending h).length = if b.transfers.contains ⟨.initiator, h⟩ then 1 else 0 := by
  rw [pending, SortedMap.contains]
  cases ht : b.transfers.get? ⟨.initiator, h⟩ with
  | none => rfl
  | some t =>
      obtain ⟨s, rfl, -⟩ := exists_initiator hf ht
      rfl

theorem run_paymentLaw (view : NetworkView) (block : Height) (h : SecretHash)
    (inputs : List BrokerInput) : (fresh view block).PaymentLaw h inputs := by
  have hf := filed_fresh view block
  have hfree : (fresh view block).transfers.get? ⟨.initiator, h⟩ = none := SortedMap.get?_empty _
  have haccount := run_account hf inputs h
  have hpending : (fresh view block).pending h = [] := by rw [pending, hfree]
  rw [hpending, List.nil_append] at haccount
  refine ⟨haccount, ?_, ?_, ?_⟩
  · have hlength := congrArg List.length haccount
    rw [List.length_append, List.length_map, List.length_map, List.length_map,
      length_pending (hf.run inputs)] at hlength
    exact hlength
  · intro before i later _ r hr hcompleted
    exact completes_of_mem_sentOn hf hfree hr hcompleted
  · rintro before terms since later - ha rfl hkeeps
    exact life_of_payment (hf.run before) ha since hkeeps

end Broker

end PaymentNetwork

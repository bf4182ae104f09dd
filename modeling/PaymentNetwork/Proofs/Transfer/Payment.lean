import Mathlib.Data.List.Induction
import PaymentNetwork.Proofs.Transfer.Trace

/-!
# The Payments That We Start

What an initiator does in a step, and what it has reported and paid in the end.

A payment that we started has one end, and the report of it is the last thing it does.
Two ends are bought with an unlock or by the ledger: the payment is completed when the
next hop shows the secret, which is what it is paid for, or when the ledger shows it.
The others come without any payment: the lock expired, or no route was left. So a report
that the payment failed is right, in the sense that nothing was unlocked for it, and a
report that it completed is only made after the target itself asked for the secret.

All of that is read off the moves of an initiator. `Initiator.Moves` lists them, each
with the fact that causes it, and `step_moves` says that there are no others.

## Main definitions

* `Initiator.Moves`: The moves of an initiator.
* `Effect.sent`, `InitiatorStatus.outcome?`, `Initiator.Reports`: The reports among some
  effects, and those that belong to a status.
* `Initiator.stateAfter`, `Initiator.effectsOf`: A run from the start.
* `Initiator.Requested`, `Initiator.Completes`: The target asked for the secret, and a
  fact that completes the payment.
* `Initiator.PaymentLaw`: What a payment reports and pays.

## Theorems

* `Initiator.step_moves`: Every step is a move.
* `Initiator.paymentLaw`: The law for every run.
-/

namespace PaymentNetwork

namespace Initiator

/-! ### Moves -/

/-- What a step of an initiator can be. -/
inductive Moves (s : Initiator) (i : Input) : Initiator × List Effect → Prop where
  /-- Nothing comes of the fact but notices. -/
  | keeps {s' : Initiator} {effects : List Effect} (hterms : s'.terms = s.terms)
      (hstatus : s'.status = s.status)
      (hnotices : ∀ e ∈ effects, ∃ level info, e = .notice level info) :
      Moves s i (s', effects)
  /-- The lock was refused or given up, and the next route is tried. -/
  | searches {s₀ : Initiator} (hstatus : s.status = .waitingSecretRequest)
      (hterms : s₀.terms = s.terms) : Moves s i s₀.tryNextRoute
  /-- The target asked for the secret, and gets it. -/
  | releases {r : SecretRequested} {secret : Secret} (hstatus : s.status = .waitingSecretRequest)
      (hfact : i = .secretRequested r) (hvalid : isValidRequest s.terms r = true)
      (hsecret : s.terms.secret? = some secret) :
      Moves s i ({ s with status := .waitingUnlock }, [.sendSecretReveal s.terms.target secret])
  /-- The next hop showed the secret, and is paid. -/
  | pays {r : SecretRevealed} {route : Route} (hstatus : s.status = .waitingUnlock)
      (hfact : i = .secretRevealed r) (hroute : s.route? = some route)
      (hnode : route.node = r.sender) (hhash : r.secretHash = s.terms.secretHash) :
      Moves s i ({ s with status := .completed },
        [.sendUnlock route.node route.channelId s.terms.paymentId r.secret s.terms.secretHash,
          succeeded s.terms, .unlockSuccess s.terms.paymentId s.terms.secretHash])
  /-- The ledger showed the secret. -/
  | settles {secret : Secret} {block : Height} (hstatus : s.status = .waitingUnlock)
      (hfact : i = .chain (.secretRegistered secret s.terms.secretHash block)) :
      Moves s i ({ s with status := .completed }, [succeeded s.terms])
  /-- There is little time left, and the secret goes to the ledger. -/
  | registers {number : Height} {secret : Secret} (hstatus : s.status = .waitingUnlock)
      (hfact : i = .block number) (hsecret : s.terms.secret? = some secret) :
      Moves s i ({ s with blockNumber := number, secretRegistered := true },
        [.call (.registerSecret secret (s.terms.expiration.satSub 1))])
  /-- The lock expired. -/
  | expires {number : Height} (hfact : i = .block number)
      (hexpired : s.terms.expiration ≤ number) :
      Moves s i ({ s with blockNumber := number, status := .expired },
        s.removal ++ [failed s.terms .expired "lock expired",
          .unlockFailed s.terms.paymentId s.terms.secretHash "lock expired"])

section Handlers

variable (s : Initiator)

theorem moves_self (i : Input) : s.Moves i (s, []) :=
  .keeps rfl rfl (fun _ he => nomatch he)

theorem moves_warning (i : Input) (info : String) : s.Moves i (s, [warning info]) :=
  .keeps rfl rfl (fun _ he => ⟨.warning, info, List.mem_singleton.mp he⟩)

theorem abandonRoute_moves (h : s.status = .waitingSecretRequest) (i : Input) :
    s.Moves i s.abandonRoute := by
  unfold abandonRoute
  split
  · exact .searches h rfl
  · exact .searches h rfl

theorem onDisposal_moves (h : s.status = .waitingSecretRequest) (i : Input) (d : LockDisposed) :
    s.Moves i (s.onDisposal d) := by
  unfold onDisposal
  split
  · exact s.moves_self i
  · split
    · exact s.moves_warning i _
    · exact s.abandonRoute_moves h i

theorem onSecretRequest_moves (h : s.status = .waitingSecretRequest) (r : SecretRequested) :
    s.Moves (.secretRequested r) (s.onSecretRequest r) := by
  unfold onSecretRequest
  dsimp only
  split
  · rename_i secret hsecret
    split
    · rename_i hvalid
      exact .releases h rfl hvalid hsecret
    · exact s.moves_warning _ _
  · exact s.moves_warning _ _

theorem onSecretReveal_moves (h : s.status = .waitingUnlock) (r : SecretRevealed) :
    s.Moves (.secretRevealed r) (s.onSecretReveal r) := by
  unfold onSecretReveal
  split
  · rename_i route hroute
    split
    · exact s.moves_self _
    · rename_i hnode
      split
      · exact s.moves_warning _ _
      · rename_i hhash
        exact .pays h rfl hroute (Decidable.not_not.mp hnode) (Decidable.not_not.mp hhash)
  · exact s.moves_self _

/-- The secret is registered only before the lock expires. -/
theorem registerSecret_cases_lt :
    s.registerSecret = (s, []) ∨
    ∃ secret, s.status = .waitingUnlock ∧ s.terms.secret? = some secret ∧
      s.blockNumber < s.terms.expiration ∧
      s.registerSecret = ({ s with secretRegistered := true },
        [.call (.registerSecret secret (s.terms.expiration.satSub 1))]) := by
  unfold registerSecret
  split
  · rename_i secret hsecret
    split
    · rename_i hmust
      simp only [mustRegister, Bool.and_eq_true, decide_eq_true_eq] at hmust
      exact Or.inr ⟨secret, hmust.1.1.1.1, hsecret, hmust.2, rfl⟩
    · exact Or.inl rfl
  · exact Or.inl rfl

theorem onBlock_moves (number : Height) : s.Moves (.block number) (s.onBlock number) := by
  unfold onBlock
  -- No block is one to register the secret at and one to give up at.
  rcases registerSecret_cases_lt { s with blockNumber := number } with
    heq | ⟨secret, hstatus, hsecret, hlt, heq⟩
  · rw [heq]
    dsimp only
    unfold expire
    split
    · rename_i hexpired
      exact .expires rfl hexpired
    · exact .keeps rfl rfl (fun _ he => nomatch he)
  · rw [heq]
    dsimp only
    have hlasts : ¬ s.terms.expiration ≤ number := Word.not_le.mpr hlt
    rw [expire, if_neg hlasts]
    exact .registers hstatus rfl hsecret

theorem onChain_moves (e : ChainEvent) : s.Moves (.chain e) (s.onChain e) := by
  unfold onChain
  split
  · split
    · exact .keeps rfl rfl (fun _ he => nomatch he)
    · exact s.moves_self _
  · split
    · rename_i secret secretHash block hours
      obtain ⟨rfl, hstatus⟩ := hours
      exact .settles hstatus rfl
    · exact s.moves_self _
  · exact s.moves_self _

/-- Every step is a move. -/
theorem step_moves (i : Input) : s.Moves i (s.step i) := by
  unfold step
  split
  · exact s.moves_self i
  · split
    · exact s.onBlock_moves _
    · rename_i refusal hstatus
      unfold onRefusal
      split
      · exact s.abandonRoute_moves hstatus _
      · exact s.moves_self _
    · rename_i request hstatus
      exact s.onSecretRequest_moves hstatus request
    · rename_i disposed hstatus
      exact s.onDisposal_moves hstatus _ disposed
    · exact s.moves_warning _ _
    · rename_i reveal hstatus
      exact s.onSecretReveal_moves hstatus reveal
    · exact s.onChain_moves _
    · exact s.moves_self _

end Handlers

end Initiator

/-! ### Reports -/

namespace Effect

/-- The report of a payment of ours that the effect is, if it is one. -/
def sent? : Effect → Option SentTransfer
  | sentSuccess paymentId tokenNetwork target amount secretHash =>
    some ⟨paymentId, tokenNetwork, target, amount, secretHash, .completed, none⟩
  | sentFailed paymentId tokenNetwork target amount secretHash status reason =>
    some ⟨paymentId, tokenNetwork, target, amount, secretHash, status, some reason⟩
  | _ => none

/-- The reports of payments of ours among some effects. -/
def sent (es : List Effect) : List SentTransfer := es.filterMap sent?

@[simp] theorem sent_nil : sent [] = [] := rfl

theorem sent_append (es fs : List Effect) : sent (es ++ fs) = sent es ++ sent fs :=
  List.filterMap_append

theorem sent_of_notices {es : List Effect} (h : ∀ e ∈ es, ∃ level info, e = .notice level info) :
    sent es = [] := by
  refine List.filterMap_eq_nil_iff.mpr (fun e he => ?_)
  rcases h e he with ⟨level, info, rfl⟩
  rfl

theorem unlocks_of_notices {es : List Effect}
    (h : ∀ e ∈ es, ∃ level info, e = .notice level info) : unlocks es = 0 := by
  refine List.countP_eq_zero.mpr (fun e he => ?_)
  rcases h e he with ⟨level, info, rfl⟩
  exact Bool.false_ne_true

end Effect

/-- Which payment a report is about, to whom it went and how much it was. -/
structure PaymentSubject where
  paymentId : PaymentId
  tokenNetwork : Address
  target : Address
  amount : Amount
  secretHash : SecretHash
deriving DecidableEq

/-- The payment that a report is about. -/
def SentTransfer.subject (r : SentTransfer) : PaymentSubject :=
  ⟨r.paymentId, r.tokenNetwork, r.target, r.amount, r.secretHash⟩

namespace TransferTerms

/-- The payment on these terms. -/
def subject (t : TransferTerms) : PaymentSubject :=
  ⟨t.paymentId, t.tokenNetwork, t.target, t.amount, t.secretHash⟩

/-- The report of a payment on these terms. -/
def sent (t : TransferTerms) (status : TransferStatus) (reason? : Option String) : SentTransfer :=
  ⟨t.paymentId, t.tokenNetwork, t.target, t.amount, t.secretHash, status, reason?⟩

end TransferTerms

namespace InitiatorStatus

/-- The end that is reported, if the payment has one. -/
def outcome? : InitiatorStatus → Option TransferStatus
  | waitingSecretRequest => none
  | waitingUnlock => none
  | completed => some .completed
  | expired => some .expired
  | canceled => some .canceled

theorem outcome?_eq_completed_iff {status : InitiatorStatus} :
    status.outcome? = some .completed ↔ status = .completed := by
  cases status <;> simp [outcome?]

theorem outcome?_eq_none_iff {status : InitiatorStatus} :
    status.outcome? = none ↔ status.isTerminal = false := by
  cases status <;> simp [outcome?, isTerminal]

end InitiatorStatus

namespace Initiator

/-- The reports of a payment are those of its status: none as long as it goes on, and one
    when it is over, on the terms of the payment. -/
def Reports (terms : TransferTerms) (status : InitiatorStatus) (reports : List SentTransfer) :
    Prop :=
  match status.outcome? with
  | none => reports = []
  | some outcome => ∃ reason?, reports = [terms.sent outcome reason?]

theorem reports_nil {terms : TransferTerms} {status : InitiatorStatus}
    (h : status.isTerminal = false) : Reports terms status [] := by
  rw [Reports, InitiatorStatus.outcome?_eq_none_iff.mpr h]

theorem Reports.eq_nil {terms : TransferTerms} {status : InitiatorStatus}
    {reports : List SentTransfer} (h : Reports terms status reports)
    (hprogress : status.isTerminal = false) : reports = [] := by
  rwa [Reports, InitiatorStatus.outcome?_eq_none_iff.mpr hprogress] at h

theorem tryNextRoute_reports (s : Initiator) :
    Reports s.terms s.tryNextRoute.1.status (Effect.sent s.tryNextRoute.2) := by
  unfold tryNextRoute
  split
  · rfl
  · exact ⟨_, rfl⟩

theorem tryNextRoute_unlocks (s : Initiator) : Effect.unlocks s.tryNextRoute.2 = 0 := by
  unfold tryNextRoute
  split
  · rfl
  · rfl

theorem tryNextRoute_status_ne (s : Initiator) :
    s.tryNextRoute.1.status ≠ .waitingUnlock ∧ s.tryNextRoute.1.status ≠ .completed := by
  unfold tryNextRoute
  split
  · exact ⟨nofun, nofun⟩
  · exact ⟨nofun, nofun⟩

theorem removal_sent (s : Initiator) : Effect.sent s.removal = [] := by
  unfold removal
  split
  · split
    · rfl
    · rfl
  · rfl

theorem removal_unlocks (s : Initiator) : Effect.unlocks s.removal = 0 := by
  unfold removal
  split
  · split
    · rfl
    · rfl
  · rfl

/-- A payment is begun, or given up at once. -/
theorem start_cases (a : StartInitiator) (block : Height) :
    (∃ s reason, start a block = (s, [failed a.terms .canceled reason]) ∧ s.terms = a.terms ∧
      s.status = .canceled) ∨
    ∃ s : Initiator, start a block = s.tryNextRoute ∧ s.terms = a.terms := by
  unfold start
  dsimp only
  split
  · exact Or.inl ⟨_, _, rfl, rfl, rfl⟩
  · split
    · exact Or.inl ⟨_, _, rfl, rfl, rfl⟩
    · exact Or.inr ⟨_, rfl, rfl⟩

theorem start_terms (a : StartInitiator) (block : Height) : (start a block).1.terms = a.terms := by
  rcases start_cases a block with ⟨s, reason, heq, hterms, -⟩ | ⟨s, heq, hterms⟩
  · rw [heq, hterms]
  · rw [heq, tryNextRoute_terms, hterms]

theorem start_reports (a : StartInitiator) (block : Height) :
    Reports a.terms (start a block).1.status (Effect.sent (start a block).2) := by
  rcases start_cases a block with ⟨s, reason, heq, -, hstatus⟩ | ⟨s, heq, hterms⟩
  · rw [heq, hstatus]
    exact ⟨some reason, rfl⟩
  · rw [heq, ← hterms]
    exact tryNextRoute_reports s

/-- A report is on the hash of the payment, and tells the end that the payment had. -/
theorem Reports.of_mem {terms : TransferTerms} {status : InitiatorStatus}
    {reports : List SentTransfer} (h : Reports terms status reports) {r : SentTransfer}
    (hr : r ∈ reports) : r.secretHash = terms.secretHash ∧ status.outcome? = some r.status := by
  unfold Reports at h
  split at h
  · rw [h] at hr
    cases hr
  · rename_i outcome houtcome
    obtain ⟨reason?, rfl⟩ := h
    rw [List.mem_singleton.mp hr]
    exact ⟨rfl, houtcome⟩

theorem start_unlocks (a : StartInitiator) (block : Height) :
    Effect.unlocks (start a block).2 = 0 := by
  rcases start_cases a block with ⟨s, reason, heq, -, -⟩ | ⟨s, heq, -⟩
  · rw [heq]
    rfl
  · rw [heq]
    exact tryNextRoute_unlocks s

theorem start_status_ne (a : StartInitiator) (block : Height) :
    (start a block).1.status ≠ .waitingUnlock ∧ (start a block).1.status ≠ .completed := by
  rcases start_cases a block with ⟨s, reason, heq, -, hstatus⟩ | ⟨s, heq, -⟩
  · rw [heq, hstatus]
    exact ⟨nofun, nofun⟩
  · rw [heq]
    exact tryNextRoute_status_ne s

/-- A step of a payment in progress reports its end, if it brings the end. -/
theorem step_reports {s : Initiator} (h : s.status.isTerminal = false) (i : Input) :
    Reports s.terms (s.step i).1.status (Effect.sent (s.step i).2) := by
  have hmoves := s.step_moves i
  generalize s.step i = r at hmoves ⊢
  cases hmoves with
  | keeps hterms hstatus hnotices =>
      rw [Effect.sent_of_notices hnotices, hstatus]
      exact reports_nil h
  | @searches s₀ hstatus hterms =>
      rw [← hterms]
      exact tryNextRoute_reports s₀
  | releases => rfl
  | pays => exact ⟨none, rfl⟩
  | settles => exact ⟨none, rfl⟩
  | registers hstatus =>
      rw [hstatus]
      rfl
  | expires =>
      rw [Effect.sent_append, removal_sent]
      exact ⟨_, rfl⟩

theorem run_terms (s : Initiator) (inputs : List Input) :
    (Machine.run step s inputs).terms = s.terms :=
  Machine.run_invariant (P := fun u : Initiator => u.terms = s.terms)
    (fun u i hu => (u.step_terms i).trans hu) rfl inputs

/-- Steps of a payment that is over do nothing, and the others follow the status. -/
theorem Reports.run {s : Initiator} {terms : TransferTerms} {reports : List SentTransfer}
    (h : Reports terms s.status reports) (hterms : s.terms = terms) (inputs : List Input) :
    Reports terms (Machine.run step s inputs).status
      (reports ++ Effect.sent (Machine.effects step s inputs)) := by
  induction inputs generalizing s reports with
  | nil =>
      rw [Machine.effects_nil, Effect.sent_nil, List.append_nil]
      exact h
  | cons i rest ih =>
      rw [Machine.run_cons, Machine.effects_cons, Effect.sent_append, ← List.append_assoc]
      refine ih ?_ ((s.step_terms i).trans hterms)
      -- Whatever was reported before belongs to the state: nothing in progress, and the end when it
      -- is over.
      cases hterminal : s.status.isTerminal with
      | true =>
          rw [step_of_isTerminal hterminal, Effect.sent_nil, List.append_nil]
          exact h
      | false =>
          rw [h.eq_nil hterminal, List.nil_append, ← hterms]
          exact step_reports hterminal i

/-- An unlock is asked for by the step that completes the payment, once. -/
theorem step_unlocks (s : Initiator) (i : Input) :
    Effect.unlocks (s.step i).2 = 0 ∨
    (s.status = .waitingUnlock ∧ (s.step i).1.status = .completed ∧
      Effect.unlocks (s.step i).2 = 1) := by
  have hmoves := s.step_moves i
  generalize s.step i = r at hmoves ⊢
  cases hmoves with
  | keeps hterms hstatus hnotices => exact Or.inl (Effect.unlocks_of_notices hnotices)
  | @searches s₀ => exact Or.inl (tryNextRoute_unlocks s₀)
  | pays hstatus => exact Or.inr ⟨hstatus, rfl, rfl⟩
  | expires =>
      refine Or.inl ?_
      rw [Effect.unlocks_append, removal_unlocks]
      rfl
  | _ => exact Or.inl rfl

/-- A report that a payment completed comes with a fact that completes it: the next hop
    shows the secret and is paid over the current route, or the ledger shows it. -/
theorem completion_cases {s : Initiator} {i : Input} {r : SentTransfer}
    (hr : r ∈ Effect.sent (s.step i).2) (hcompleted : r.status = .completed) :
    s.status = .waitingUnlock ∧
    ((∃ reveal route, i = .secretRevealed reveal ∧ s.route? = some route ∧
      route.node = reveal.sender ∧ reveal.secretHash = s.terms.secretHash ∧
      .sendUnlock route.node route.channelId s.terms.paymentId reveal.secret s.terms.secretHash
        ∈ (s.step i).2) ∨
    ∃ secret height, i = .chain (.secretRegistered secret s.terms.secretHash height)) := by
  have hmoves := s.step_moves i
  generalize s.step i = out at hmoves hr ⊢
  cases hmoves with
  | keeps hkept hstatus hnotices =>
      rw [Effect.sent_of_notices hnotices] at hr
      cases hr
  | @searches s₀ =>
      -- All that a search reports is that it was in vain.
      unfold tryNextRoute at hr
      split at hr
      · cases hr
      · cases List.mem_singleton.mp hr
        cases hcompleted
  | releases => cases hr
  | @pays reveal route hstatus hfact hroute hnode hhash =>
      exact ⟨hstatus, Or.inl ⟨reveal, route, hfact, hroute, hnode, hhash, List.mem_cons_self⟩⟩
  | @settles secret height hstatus hfact => exact ⟨hstatus, Or.inr ⟨secret, height, hfact⟩⟩
  | registers => cases hr
  | expires =>
      rw [Effect.sent_append, removal_sent, List.nil_append] at hr
      cases List.mem_singleton.mp hr
      cases hcompleted

/-! ### Runs from the start -/

/-- The payment after some facts, from the start. -/
def stateAfter (a : StartInitiator) (block : Height) (inputs : List Input) : Initiator :=
  Machine.run step (start a block).1 inputs

/-- Everything that was asked for, from the start on. -/
def effectsOf (a : StartInitiator) (block : Height) (inputs : List Input) : List Effect :=
  (start a block).2 ++ Machine.effects step (start a block).1 inputs

section Runs

variable (a : StartInitiator) (block : Height)

theorem stateAfter_append (first later : List Input) :
    stateAfter a block (first ++ later) = Machine.run step (stateAfter a block first) later :=
  Machine.run_append step (start a block).1 first later

theorem effectsOf_append (first later : List Input) :
    effectsOf a block (first ++ later)
      = effectsOf a block first ++ Machine.effects step (stateAfter a block first) later := by
  rw [effectsOf, Machine.effects_append, ← List.append_assoc]
  rfl

theorem stateAfter_concat (inputs : List Input) (i : Input) :
    stateAfter a block (inputs ++ [i]) = ((stateAfter a block inputs).step i).1 :=
  stateAfter_append a block inputs [i]

theorem effectsOf_concat (inputs : List Input) (i : Input) :
    effectsOf a block (inputs ++ [i])
      = effectsOf a block inputs ++ ((stateAfter a block inputs).step i).2 := by
  rw [effectsOf_append, Machine.effects_cons, Machine.effects_nil, List.append_nil]

theorem stateAfter_terms (inputs : List Input) : (stateAfter a block inputs).terms = a.terms :=
  (run_terms _ inputs).trans (start_terms a block)

/-- The target of the payment asked for the secret while nobody had it yet. -/
def Requested (inputs : List Input) : Prop :=
  ∃ first r since, inputs = first ++ .secretRequested r :: since ∧
    isValidRequest a.terms r = true ∧ (stateAfter a block first).status = .waitingSecretRequest

/-- The payment completes at a fact: the secret was released before, at the request of the
    target, and now the next hop shows it and is paid over the current route, or the ledger
    shows it. -/
structure Completes (before : List Input) (i : Input) : Prop where
  waiting : (stateAfter a block before).status = .waitingUnlock
  requested : Requested a block before
  cause : (∃ r route, i = .secretRevealed r ∧ (stateAfter a block before).route? = some route ∧
      route.node = r.sender ∧ r.secretHash = a.terms.secretHash ∧
      .sendUnlock route.node route.channelId a.terms.paymentId r.secret a.terms.secretHash
        ∈ ((stateAfter a block before).step i).2) ∨
    ∃ secret height, i = .chain (.secretRegistered secret a.terms.secretHash height)

/-- What a payment reports and pays. -/
structure PaymentLaw (inputs : List Input) : Prop where
  /-- There is no report as long as the payment goes on, and exactly one when it is over. -/
  reports : Reports a.terms (stateAfter a block inputs).status
    (Effect.sent (effectsOf a block inputs))
  /-- That it completed is reported only when it does. -/
  completed : ∀ before i since, inputs = before ++ i :: since →
    ∀ r ∈ Effect.sent ((stateAfter a block before).step i).2, r.status = .completed →
      Completes a block before i
  /-- The next hop is paid at most once. -/
  unlocks : Effect.unlocks (effectsOf a block inputs) ≤ 1
  /-- Nobody was paid for a payment that did not complete. -/
  unpaid : (stateAfter a block inputs).status ≠ .completed →
    Effect.unlocks (effectsOf a block inputs) = 0

variable {a block}

theorem Requested.append {inputs : List Input} (h : Requested a block inputs)
    (later : List Input) : Requested a block (inputs ++ later) := by
  rcases h with ⟨first, r, since, rfl, hvalid, hstatus⟩
  exact ⟨first, r, since ++ later, by rw [List.append_assoc, List.cons_append], hvalid, hstatus⟩

/-- Whoever waits to be shown the secret was asked for it. -/
theorem requested_of_waiting {inputs : List Input}
    (h : (stateAfter a block inputs).status = .waitingUnlock) : Requested a block inputs := by
  induction inputs using List.reverseRec with
  | nil => exact absurd h (start_status_ne a block).1
  | append_singleton inputs i ih =>
      rw [stateAfter_concat] at h
      have hmoves := (stateAfter a block inputs).step_moves i
      generalize (stateAfter a block inputs).step i = r at hmoves h
      cases hmoves with
      | keeps hterms hstatus => exact (ih (hstatus.symm.trans h)).append [i]
      | @searches s₀ => exact absurd h (tryNextRoute_status_ne s₀).1
      -- Only a valid request makes it wait, and this is the last fact.
      | @releases r secret hstatus hfact hvalid =>
          rw [stateAfter_terms] at hvalid
          exact ⟨inputs, r, [], by rw [hfact], hvalid, hstatus⟩
      | registers hstatus => exact (ih hstatus).append [i]
      | pays => cases h
      | settles => cases h
      | expires => cases h

theorem completes_of_mem {before : List Input} {i : Input} {r : SentTransfer}
    (hr : r ∈ Effect.sent ((stateAfter a block before).step i).2)
    (hcompleted : r.status = .completed) : Completes a block before i := by
  obtain ⟨hwaiting, hcause⟩ := completion_cases hr hcompleted
  rw [stateAfter_terms] at hcause
  exact ⟨hwaiting, requested_of_waiting hwaiting, hcause⟩

theorem reports_effectsOf (inputs : List Input) :
    Reports a.terms (stateAfter a block inputs).status
      (Effect.sent (effectsOf a block inputs)) := by
  rw [effectsOf, Effect.sent_append]
  exact (start_reports a block).run (start_terms a block) inputs

/-- Before the payment completes nothing is unlocked, and completing unlocks once. -/
theorem unlocks_effectsOf (inputs : List Input) :
    Effect.unlocks (effectsOf a block inputs)
      ≤ if (stateAfter a block inputs).status = .completed then 1 else 0 := by
  induction inputs using List.reverseRec with
  | nil =>
      rw [effectsOf, Machine.effects_nil, List.append_nil, start_unlocks]
      exact Nat.zero_le _
  | append_singleton inputs i ih =>
      rw [stateAfter_concat, effectsOf_concat, Effect.unlocks_append]
      rcases (stateAfter a block inputs).step_unlocks i with hnone | ⟨hwaiting, hdone, hone⟩
      · rw [hnone, Nat.add_zero]
        refine Nat.le_trans ih ?_
        by_cases hcompleted : (stateAfter a block inputs).status = .completed
        · -- A completed payment stays completed.
          have hterminal : (stateAfter a block inputs).status.isTerminal = true := by
            rw [hcompleted]
            rfl
          have hsame := step_of_isTerminal hterminal i
          exact Nat.le_of_eq (by rw [hsame])
        · rw [if_neg hcompleted]
          exact Nat.zero_le _
      · have hprogress : (stateAfter a block inputs).status ≠ .completed := by
          rw [hwaiting]
          decide
        rw [if_neg hprogress] at ih
        rw [hone, if_pos hdone]
        omega

end Runs

theorem paymentLaw (a : StartInitiator) (block : Height) (inputs : List Input) :
    PaymentLaw a block inputs where
  reports := reports_effectsOf inputs
  completed _ _ _ _ _ hr hcompleted := completes_of_mem hr hcompleted
  unlocks := by
    refine Nat.le_trans (unlocks_effectsOf inputs) ?_
    split
    · exact Nat.le_refl 1
    · exact Nat.zero_le 1
  unpaid h := by
    have hle : Effect.unlocks (effectsOf a block inputs)
        ≤ if (stateAfter a block inputs).status = .completed then 1 else 0 :=
      unlocks_effectsOf inputs
    rw [if_neg h] at hle
    exact Nat.le_zero.mp hle

/-- Who begins to wait to be shown the secret was asked for it on the way. -/
theorem exists_request_of_run {s : Initiator} (h : s.status ≠ .waitingUnlock) {inputs : List Input}
    (hwaiting : (Machine.run step s inputs).status = .waitingUnlock) :
    ∃ r, .secretRequested r ∈ inputs ∧ isValidRequest s.terms r = true := by
  induction inputs generalizing s with
  | nil => exact absurd hwaiting h
  | cons i rest ih =>
      have hterms := s.step_terms i
      -- The request is the first fact after which it waits.
      by_cases hnext : (s.step i).1.status = .waitingUnlock
      · have hmoves := s.step_moves i
        generalize s.step i = r at hmoves hnext
        cases hmoves with
        | keeps _ hstatus => exact absurd (hstatus.symm.trans hnext) h
        | @searches s₀ => exact absurd hnext s₀.tryNextRoute_status_ne.1
        | @releases r secret hstatus hfact hvalid =>
            exact ⟨r, hfact ▸ List.mem_cons_self, hvalid⟩
        | registers hstatus => exact absurd hstatus h
        | pays => cases hnext
        | settles => cases hnext
        | expires => cases hnext
      · obtain ⟨r, hr, hvalid⟩ := ih hnext hwaiting
        exact ⟨r, List.mem_cons_of_mem i hr, hterms ▸ hvalid⟩

end Initiator

/-! ### Only initiators report payments of ours -/

namespace Mediator

variable (s : Mediator)

theorem tryNextRoute_unreported : Effect.sent s.tryNextRoute.2 = [] := by
  unfold tryNextRoute
  split
  · rfl
  · rfl

theorem abandonRoute_unreported : Effect.sent s.abandonRoute.2 = [] := by
  unfold abandonRoute
  split
  · exact tryNextRoute_unreported _
  · exact tryNextRoute_unreported s

theorem claim_unreported (secret : Secret) : Effect.sent (s.claim secret) = [] := by
  unfold claim
  cases s.payerOnChain with
  | _ => rfl

theorem checkPayerDeadline_unreported : Effect.sent s.checkPayerDeadline.2 = [] := by
  unfold checkPayerDeadline
  split
  · split
    · exact s.claim_unreported _
    · rfl
  · rfl

theorem payPayee_unreported (secret : Secret) : Effect.sent (s.payPayee secret) = [] := by
  unfold payPayee
  split
  · split
    · rfl
    · rfl
  · rfl

theorem learnSecret_unreported (secret : Secret) : Effect.sent (s.learnSecret secret).2 = [] := by
  rw [learnSecret_snd, Effect.sent_append, checkPayerDeadline_unreported, List.append_nil]
  exact s.payPayee_unreported secret

theorem onBlock_unreported (number : Height) : Effect.sent (s.onBlock number).2 = [] := by
  have hremoved : ∀ u : Mediator, Effect.sent u.removeDownstream.2 = [] := by
    intro u
    unfold removeDownstream
    split
    · split
      · rfl
      · rfl
    · rfl
  have hexpired : ∀ u : Mediator, Effect.sent u.expire.2 = [] := by
    intro u
    unfold expire
    split
    · rfl
    · rfl
  unfold onBlock
  dsimp only
  split
  · rw [Effect.sent_append, hremoved, hexpired]
    rfl
  · exact checkPayerDeadline_unreported _
  · rfl

theorem onSecretReveal_unreported (r : SecretRevealed) :
    Effect.sent (s.onSecretReveal r).2 = [] := by
  unfold onSecretReveal
  split
  · rfl
  · split
    · rfl
    · exact s.learnSecret_unreported _

theorem onChain_unreported (e : ChainEvent) : Effect.sent (s.onChain e).2 = [] := by
  unfold onChain
  split
  · split
    · rfl
    · rfl
  · split
    · exact s.learnSecret_unreported _
    · rfl
  · rfl

theorem onProof_unreported (p : ProofReceived) : Effect.sent (s.onProof p).2 = [] := by
  unfold onProof
  split
  · rfl
  · split
    · rfl
    · rfl

theorem step_unreported (i : Input) : Effect.sent (s.step i).2 = [] := by
  unfold step
  split
  · rfl
  · split
    · exact s.onBlock_unreported _
    · unfold onRefusal
      split
      · exact s.abandonRoute_unreported
      · rfl
    · unfold onDisposal
      split
      · exact s.abandonRoute_unreported
      · rfl
    · rfl
    · exact s.onSecretReveal_unreported _
    · exact s.onProof_unreported _
    · exact s.onChain_unreported _
    · rfl

end Mediator

namespace Target

variable (s : Target)

theorem checkUnlockDeadline_unreported : Effect.sent s.checkUnlockDeadline.2 = [] := by
  rcases checkUnlockDeadline_cases s with heq | ⟨secret, -, heq⟩
  · rw [heq]
    rfl
  · rw [heq, claim]
    cases s.payerOnChain with
    | _ => rfl

theorem step_unreported (i : Input) : Effect.sent (s.step i).2 = [] := by
  rcases s.step_cases i with ⟨number, -, -, heq⟩ | ⟨number, -, -, heq⟩ | ⟨secret, -, heq⟩ |
    ⟨-, heq⟩ | hkeeps
  · rw [heq, expire]
    split
    · rfl
    · rfl
  · rw [heq]
    exact checkUnlockDeadline_unreported _
  · rw [heq, learnSecret_snd]
    exact checkUnlockDeadline_unreported _
  · rw [heq]
    rfl
  · exact Effect.sent_of_notices hkeeps.notices

theorem start_unreported (a : StartTarget) (block : Height) :
    Effect.sent (start a block).2 = [] := by
  unfold start
  dsimp only
  split
  · rfl
  · rfl

end Target

namespace Transfer

/-- A report is of the payment whose transfer makes it. -/
theorem step_sent {t : Transfer} {i : Input} {r : SentTransfer}
    (h : r ∈ Effect.sent (t.step i).2) : t.role = .initiator ∧ r.secretHash = t.secretHash := by
  cases t with
  | initiator s =>
      cases hterminal : s.status.isTerminal with
      | true =>
          have hsame : (Transfer.initiator s).step i = (.initiator s, []) := by
            rw [step, Initiator.step_of_isTerminal hterminal]
            rfl
          rw [hsame] at h
          cases h
      | false =>
          exact ⟨rfl, ((Initiator.step_reports hterminal i).of_mem h).1⟩
  | mediator s =>
      have hmem : r ∈ Effect.sent (s.step i).2 := h
      rw [s.step_unreported] at hmem
      cases hmem
  | target s =>
      have hmem : r ∈ Effect.sent (s.step i).2 := h
      rw [s.step_unreported] at hmem
      cases hmem

/-- A transfer that is an initiator runs as one. -/
theorem run_initiator (s : Initiator) (inputs : List Input) :
    Machine.run step (.initiator s) inputs = .initiator (Machine.run Initiator.step s inputs) := by
  induction inputs generalizing s with
  | nil => rfl
  | cons i rest ih => exact ih (s.step i).1

theorem effects_initiator (s : Initiator) (inputs : List Input) :
    Machine.effects step (.initiator s) inputs = Machine.effects Initiator.step s inputs := by
  induction inputs generalizing s with
  | nil => rfl
  | cons i rest ih =>
      rw [Machine.effects_cons, Machine.effects_cons]
      exact congrArg ((s.step i).2 ++ ·) (ih (s.step i).1)

end Transfer

end PaymentNetwork

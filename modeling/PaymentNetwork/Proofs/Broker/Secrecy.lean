import Mathlib.Data.List.Induction
import PaymentNetwork.Proofs.Broker.Actions
import PaymentNetwork.Proofs.Transfer.Secrecy

/-!
# Whoever Shows a Secret May

Where the secrets in the outputs of a node come from.

A node shows a secret in three ways: it reveals it to a peer, it unlocks a lock with it,
and it registers it on the ledger. Each time the secret had been set free before, or is
set free by the very input that is dealt with. Either the input carries it, as a reveal or
as a registration that the ledger reports. Or it is the request of the target of a payment
of ours, on the terms of the payment, and nobody had asked before.

So much of the secret of a payment that we started is in the state of the node all the
time that the rest is worth saying as well: what does not set a secret free. A payment
that begins, a lock that is offered, refused, given up, unlocked or taken back shows no
secret, and neither does a transfer that is given up.

## Main definitions

* `Action.secret?`, `BrokerInput.secret?`: The secret that an action shows, and the one
  that an input carries.
* `Broker.Frees`: The input sets a secret free.
* `Broker.Freed`: Some input of a run set it free.
* `Broker.SecrecyLaw`: Which secrets are shown, and when none is.

## Theorems

* `Broker.settle_secret`: What is shown was in an effect.
* `Broker.react_secret`: What an input makes a node show, and what it makes it know.
* `Broker.run_secrecyLaw`: The law for every run.
-/

namespace PaymentNetwork

namespace Action

/-- The secret that the action shows, to a peer or to everybody. -/
def secret? : Action → Option Secret
  | send _ (.secretReveal m) => some m.secret
  | send _ (.unlock m) => some m.secret
  | call (.registerSecret secret _) => some secret
  | _ => none

theorem secret?_of_isAside {a : Action} (h : a.isAside = true) : a.secret? = none := by
  cases a with
  | send recipient m =>
      cases m with
      | disposal => rfl
      | _ => cases h
  | call c => cases h
  | report r => rfl

end Action

namespace BrokerInput

/-- The secret that the input carries: a peer reveals it, or the ledger registered it. -/
def secret? : BrokerInput → Option Secret
  | message _ (.secretReveal m) => some m.secret
  | chain (.secretRegistered secret _ _) => some secret
  | _ => none

/-- Is the input a payment, or a message about locks? -/
def isSilent : BrokerInput → Bool
  | pay _ => true
  | message _ (.secretRequest _) => false
  | message _ (.secretReveal _) => false
  | message _ _ => true
  | _ => false

variable {i : BrokerInput} {fact : Input}

theorem secret?_of_fact? (h : i.fact? = some fact) : i.secret? = fact.secret? := by
  cases i with
  | message sender m =>
      cases m with
      | lockedTransfer => cases h
      | _ =>
          cases h
          rfl
  | chain e =>
      cases h
      cases e with
      | _ => rfl
  | pay => cases h
  | block =>
      cases h
      rfl

theorem isSilent_of_fact? (h : i.fact? = some fact) (hsilent : i.isSilent = true) :
    fact.isSilent = true := by
  cases i with
  | message sender m =>
      cases m with
      | lockedTransfer => cases h
      | secretRequest => cases hsilent
      | secretReveal => cases hsilent
      | _ =>
          cases h
          rfl
  | pay => cases h
  | block => cases hsilent
  | chain => cases hsilent

end BrokerInput

namespace Broker

/-! ### What is shown was in an effect -/

theorem noticeOf_shows_nothing (level : NoticeLevel) (info : String) :
    ∀ a ∈ noticeOf level info, a.secret? = none := by
  unfold noticeOf
  split
  · simp
  · simp [notice, Action.secret?]

/-- An unlock shows the secret that it is made with. -/
theorem secret_of_sendUnlock {c c' : Channel} {paymentId : PaymentId} {secret : Secret} {m : Unlock}
    (h : c.sendUnlock paymentId secret = .ok (m, c')) : m.secret = secret := by
  rw [Channel.sendUnlock, ite_error_eq_ok_iff] at h
  have hmade := h.2
  dsimp only at hmade
  split at hmade
  · cases hmade
  · split at hmade
    · cases hmade
    · cases hmade
      rfl

theorem perform_secret {view : NetworkView} {block : Height} {e : Effect} {a : Action}
    (ha : a ∈ (perform view block e).actions) {secret : Secret} (h : a.secret? = some secret) :
    e.secret? = some secret := by
  have hnotice : ∀ level info, a ∉ noticeOf level info := by
    intro level info hmem
    cases (noticeOf_shows_nothing level info a hmem).symm.trans h
  cases e with
  | sendUnlock recipient channelId paymentId secret' secretHash =>
      rw [perform, build] at ha
      split at ha
      · rename_i m view' hbuild
        obtain ⟨tokenNetwork, c, c', -, -, hop, -⟩ :=
          NetworkView.withPartnerChannel_eq_ok_iff.mp hbuild
        rw [List.mem_singleton.mp ha] at h
        -- The message shows the secret that the effect named.
        have hsecret : some m.secret = some secret := h
        rwa [secret_of_sendUnlock hop] at hsecret
      · dsimp only at ha
        exact (hnotice _ _ ha).elim
  | sendLockRemoval recipient channelId secretHash =>
      rw [perform, build] at ha
      split at ha
      · rw [List.mem_singleton.mp ha] at h
        cases h
      · cases ha
  | sendSecretReveal recipient secret' =>
      rw [List.mem_singleton.mp ha] at h
      exact h
  | call c =>
      rw [List.mem_singleton.mp ha] at h
      cases c with
      | registerSecret => exact h
      | _ => cases h
  | notice level info =>
      dsimp only [perform] at ha
      exact (hnotice _ _ ha).elim
  | unlockFailed =>
      dsimp only [perform] at ha
      exact (hnotice _ _ ha).elim
  | sendLockedTransfer => cases ha
  | unlockSuccess => cases ha
  | _ =>
      rw [List.mem_singleton.mp ha] at h
      cases h

/-- What is shown was in an effect. What follows from a refusal shows nothing. -/
theorem settle_secret {b : Broker} {t : Transfer} {effects : List Effect} {a : Action}
    (ha : a ∈ (b.settle t effects).2) {secret : Secret} (h : a.secret? = some secret) :
    ∃ e ∈ effects, e.secret? = some secret := by
  rcases (drain_performs b.view b.block t effects).exists_of_mem ha with
    ⟨recipient, m, rfl⟩ | ⟨view, e, he, hmem⟩
  · cases h
  · have hshows := perform_secret hmem h
    -- It was in an effect that was asked for: at the start, or after a refusal.
    rcases mem_asked he with he | ⟨t', refusal, he⟩
    · exact ⟨e, he, hshows⟩
    · cases (t'.step_silent (i := .routeRefused refusal) rfl e he).symm.trans hshows

theorem swept_shows_nothing (b : Broker) (fact : Input) : ∀ a ∈ b.swept fact, a.secret? = none := by
  intro a ha
  cases fact with
  | block number =>
      obtain ⟨recipient, m, rfl⟩ := exists_of_mem_removeLocks ha
      rfl
  | _ => cases ha

/-- Transfers begin without showing anything, and with nothing that they could show. -/
theorem Started.secret {b b' : Broker} {i : BrokerInput} {t : Transfer} {effects : List Effect}
    (h : b.Started i b' t effects) : t.known? = none ∧ ∀ e ∈ effects, e.secret? = none := by
  rcases h.begins with ⟨terms, -, heq⟩ | ⟨sender, m, c, c', -, -, -, heq⟩
  · cases heq
    exact ⟨if_neg (Initiator.start_status_ne _ _).1, Initiator.start_shows_nothing _ _⟩
  · unfold beginOffered at heq
    split at heq
    · cases heq
      exact ⟨Target.start_known? _ _, Target.start_shows_nothing _ _⟩
    · cases heq
      refine ⟨if_neg (fun haware => ?_), Mediator.start_shows_nothing _ _⟩
      cases haware.symm.trans (Mediator.start_uninformed _ _).status

/-! ### What sets a secret free -/

/-- The input sets the secret free: it carries the secret, or it is the request of the
    target of a payment of ours, on the terms of the payment, while the payment waits for
    the request. -/
def Frees (b : Broker) (i : BrokerInput) (secret : Secret) : Prop :=
  i.secret? = some secret ∨
  ∃ s : Initiator, b.transfers.get? ⟨.initiator, s.terms.secretHash⟩ = some (.initiator s) ∧
    s.status = .waitingSecretRequest ∧ s.terms.secret? = some secret ∧
    i = .message s.terms.target
      (.secretRequest ⟨s.terms.paymentId, s.terms.secretHash, s.terms.amount⟩)

/-- A request that releases the secret of a transfer in progress sets it free. -/
theorem frees_of_released {b : Broker} (hf : b.Filed) {i : BrokerInput} {fact : Input}
    (hfact : i.fact? = some fact) {k : TransferKey} {t : Transfer}
    (ht : b.transfers.get? k = some t) {secret : Secret} (h : t.released? fact = some secret) :
    b.Frees i secret := by
  cases t with
  | initiator s =>
      cases fact with
      | secretRequested r =>
          -- Only an initiator gives its secret away. The request it waits for decides every field
          -- of the message, so the message is that one.
          rw [Transfer.released?, Option.ite_none_right_eq_some] at h
          obtain ⟨⟨hstatus, hvalid⟩, hsecret⟩ := h
          simp only [Initiator.isValidRequest, Bool.and_eq_true, decide_eq_true_eq] at hvalid
          obtain ⟨⟨⟨htarget, hhash⟩, hamount⟩, hpayment⟩ := hvalid
          have hkey : (⟨.initiator, s.terms.secretHash⟩ : TransferKey) = k := (hf k _ ht).1
          refine Or.inr ⟨s, by rw [hkey, ht], hstatus, hsecret, ?_⟩
          rw [BrokerInput.eq_secretRequest_of_fact? hfact, htarget, hhash, hamount, hpayment]
      | _ => cases h
  | mediator s => cases h
  | target s => cases h

section React

variable {b : Broker} {i : BrokerInput} {allowed : Secret → Prop}

/-- What an input can make a node show, asides being no matter, is in the work of the
    reaction to it. -/
theorem mem_reaction_of_secret {a : Action} (ha : a ∈ (b.react i).2) {secret : Secret}
    (h : a.secret? = some secret) : a ∈ (b.reaction i).actions := by
  obtain ⟨asides, hactions, hasides⟩ := b.react_actions i
  rw [hactions, List.mem_append] at ha
  rcases ha with ha | ha
  · cases (Action.secret?_of_isAside (hasides a ha)).symm.trans h
  · exact ha

/-- What transfers that are told a fact show and know, they knew before, or the input sets
    it free. -/
theorem tell_secret (hf : b.Filed)
    (hknown : ∀ k t, b.transfers.get? k = some t → ∀ secret, t.known? = some secret →
      allowed secret)
    (hfrees : ∀ secret, b.Frees i secret → allowed secret) {b' : Broker} {fact : Input}
    {keys : List TransferKey} (hreaction : b.reaction i = .tell b' fact keys) :
    (∀ a ∈ (Reaction.tell b' fact keys).actions, ∀ secret, a.secret? = some secret →
      allowed secret) ∧
    ∀ k t, (Reaction.tell b' fact keys).outcome.transfers.get? k = some t →
      ∀ secret, t.known? = some secret → allowed secret := by
  have htold := tell_of_reaction hreaction
  have hf' : b'.Filed := fun k t ht => hf k t (htold.transfers ▸ ht)
  let R : Transfer → Prop := fun t => (∀ secret, t.known? = some secret → allowed secret) ∧
    ∀ secret, t.released? fact = some secret → allowed secret
  have hsteady : Steady R := fun t refusal h =>
    ⟨fun secret hsecret => h.1 secret (Transfer.known?_of_refusal hsecret),
      fun secret hsecret => h.2 secret (Transfer.released?_of_step hsecret)⟩
  -- A step shows and learns what was known, what the fact tells, and what it releases.
  have hsources : ∀ t, R t → ∀ secret, t.Sources fact secret → allowed secret := by
    rintro t h secret (hsecret | hsecret | hsecret)
    · exact h.1 secret hsecret
    · exact hfrees secret (Or.inl ((BrokerInput.secret?_of_fact? htold.tells).trans hsecret))
    · exact h.2 secret hsecret
  have hstep : ∀ t, R t → R (t.step fact).1 := fun t h =>
    ⟨fun secret hsecret => hsources t h secret ((t.step_confined fact).knows secret hsecret),
      fun secret hsecret => h.2 secret (Transfer.released?_of_step hsecret)⟩
  have hbefore : ∀ k t, b'.transfers.get? k = some t → R t := by
    intro k t ht
    rw [htold.transfers] at ht
    exact ⟨hknown k t ht, fun secret hsecret =>
      hfrees secret (frees_of_released hf htold.tells ht hsecret)⟩
  refine ⟨fun a ha secret hsecret => ?_, fun k t ht => ?_⟩
  · rcases List.mem_append.mp ha with ha | ha
    · obtain ⟨b'', t, ht, hmem⟩ := exists_stepped_of_mem_feedAll hsteady hstep hf' hbefore ha
      obtain ⟨e, he, hshows⟩ := settle_secret hmem hsecret
      exact hsources t ht secret ((t.step_confined fact).effects e he secret hshows)
    · cases (swept_shows_nothing _ _ a ha).symm.trans hsecret
  · rw [Reaction.outcome, tidy_transfers] at ht
    exact (feedAll_visits hsteady hstep (fun t => id) hf' hbefore ht).1.1

/-- A transfer that begins shows nothing and adds nothing that is known. -/
theorem start_secret
    (hknown : ∀ k t, b.transfers.get? k = some t → ∀ secret, t.known? = some secret →
      allowed secret)
    {b' : Broker} {t : Transfer} {effects : List Effect}
    (hreaction : b.reaction i = .start b' t effects) :
    (∀ a ∈ (Reaction.start b' t effects).actions, a.secret? = none) ∧
    ∀ k t', (Reaction.start b' t effects).outcome.transfers.get? k = some t' →
      ∀ secret, t'.known? = some secret → allowed secret := by
  have hstarted := start_of_reaction hreaction
  obtain ⟨hunknown, hquiet⟩ := hstarted.secret
  let R : Transfer → Prop := fun t => ∀ secret, t.known? = some secret → allowed secret
  have hsteady : Steady R :=
    fun t refusal h secret hsecret => h secret (Transfer.known?_of_refusal hsecret)
  have hbegun : R t := fun secret hsecret => (nomatch hunknown.symm.trans hsecret)
  refine ⟨fun a ha => ?_, fun k t' ht' => ?_⟩
  · cases hsecret : a.secret? with
    | none => rfl
    | some secret =>
        obtain ⟨e, he, hshows⟩ := settle_secret ha hsecret
        cases (hquiet e he).symm.trans hshows
  · rcases settle_keeps hsteady hbegun ht' with ⟨-, hnew⟩ | ⟨-, hold⟩
    · exact hnew
    · rw [hstarted.transfers] at hold
      exact hknown k t' hold

/-- Whatever an input makes a node show or know, it knew before, or the input sets it
    free. -/
theorem react_secret (hf : b.Filed)
    (hknown : ∀ k t, b.transfers.get? k = some t → ∀ secret, t.known? = some secret →
      allowed secret)
    (hfrees : ∀ secret, b.Frees i secret → allowed secret) :
    (∀ a ∈ (b.react i).2, ∀ secret, a.secret? = some secret → allowed secret) ∧
    ∀ k t, (b.after i).transfers.get? k = some t → ∀ secret, t.known? = some secret →
      allowed secret := by
  suffices hwork : (∀ a ∈ (b.reaction i).actions, ∀ secret, a.secret? = some secret →
      allowed secret) ∧
      ∀ k t, (b.reaction i).outcome.transfers.get? k = some t → ∀ secret,
        t.known? = some secret → allowed secret by
    rw [after_eq]
    exact ⟨fun a ha secret hsecret =>
      hwork.1 a (mem_reaction_of_secret ha hsecret) secret hsecret, hwork.2⟩
  cases hreaction : b.reaction i with
  | tell b' fact keys => exact tell_secret hf hknown hfrees hreaction
  | start b' t effects =>
      obtain ⟨hshows, hafter⟩ := start_secret hknown hreaction
      exact ⟨fun a ha secret hsecret => (nomatch (hshows a ha).symm.trans hsecret), hafter⟩
  | rest b' =>
      refine ⟨fun a ha => (nomatch ha), fun k t ht => ?_⟩
      have ht' : b'.transfers.get? k = some t := ht
      rw [(rest_of_reaction hreaction).1] at ht'
      exact hknown k t ht'

/-- Payments and messages about locks make a node show nothing. -/
theorem react_silent (hf : b.Filed) (h : i.isSilent = true) :
    ∀ a ∈ (b.react i).2, a.secret? = none := by
  intro a ha
  cases hsecret : a.secret? with
  | none => rfl
  | some secret =>
      have hwork := mem_reaction_of_secret ha hsecret
      cases hreaction : b.reaction i with
      | tell b' fact keys =>
          -- What is told is silent, so each transfer that is told of it shows nothing, whatever it
          -- knows.
          have htold := tell_of_reaction hreaction
          have hsilent := BrokerInput.isSilent_of_fact? htold.tells h
          rw [hreaction] at hwork
          rcases List.mem_append.mp hwork with hfed | hswept
          · obtain ⟨b'', t, -, hmem⟩ := exists_stepped_of_mem_feedAll (R := fun _ => True)
              (fun _ _ => id) (fun _ => id) (fun k t ht => hf k t (htold.transfers ▸ ht))
              (fun _ _ _ => trivial) hfed
            obtain ⟨e, he, hshows⟩ := settle_secret hmem hsecret
            cases (t.step_silent hsilent e he).symm.trans hshows
          · cases (swept_shows_nothing _ _ a hswept).symm.trans hsecret
      | start b' t effects =>
          rw [hreaction] at hwork
          obtain ⟨e, he, hshows⟩ := settle_secret hwork hsecret
          cases ((start_of_reaction hreaction).secret.2 e he).symm.trans hshows
      | rest b' =>
          rw [hreaction] at hwork
          cases hwork

end React

/-! ### Runs -/

/-- Some input of a run set the secret free. -/
def Freed (b : Broker) (inputs : List BrokerInput) (secret : Secret) : Prop :=
  ∃ first i since, inputs = first ++ i :: since ∧ (b.run first).Frees i secret

theorem Freed.append {b : Broker} {inputs : List BrokerInput} {secret : Secret}
    (h : b.Freed inputs secret) (later : List BrokerInput) : b.Freed (inputs ++ later) secret := by
  rcases h with ⟨first, i, since, rfl, hfrees⟩
  exact ⟨first, i, since ++ later, by rw [List.append_assoc, List.cons_append], hfrees⟩

/-- What the transfers of a run know was set free in it. -/
theorem known?_of_run {b : Broker} (hf : b.Filed)
    (hbefore : ∀ k t, b.transfers.get? k = some t → t.known? = none) (inputs : List BrokerInput)
    {k : TransferKey} {t : Transfer} (ht : (b.run inputs).transfers.get? k = some t)
    {secret : Secret} (h : t.known? = some secret) : b.Freed inputs secret := by
  induction inputs using List.reverseRec generalizing k t secret with
  | nil => cases (hbefore k t ht).symm.trans h
  | append_singleton inputs i ih =>
      -- Whatever was set free before stays so, and the last input sets free what it makes known.
      rw [run_append] at ht
      have hfrees : ∀ secret, (b.run inputs).Frees i secret → b.Freed (inputs ++ [i]) secret :=
        fun secret hfrees => ⟨inputs, i, [], rfl, hfrees⟩
      exact (react_secret (hf.run inputs)
        (fun k t ht secret hsecret => (ih ht hsecret).append [i]) hfrees).2 k t ht secret h

/-- Which secrets a node shows in a run. -/
structure SecrecyLaw (b : Broker) (inputs : List BrokerInput) : Prop where
  /-- Whatever is shown at an input was set free by then. -/
  freed : ∀ before i later, inputs = before ++ i :: later →
    ∀ a ∈ ((b.run before).react i).2, ∀ secret, a.secret? = some secret →
      b.Freed (before ++ [i]) secret
  /-- Payments and messages about locks show nothing. -/
  silent : ∀ before i later, inputs = before ++ i :: later → i.isSilent = true →
    ∀ a ∈ ((b.run before).react i).2, a.secret? = none
  /-- No locked transfer carries a secret to its channel, whatever it is sent for. -/
  lockedTransfers : ∀ before later, inputs = before ++ later →
    ∀ k t, (b.run before).transfers.get? k = some t → ∀ fact recipient channelId terms,
      .sendLockedTransfer recipient channelId terms ∈ (t.step fact).2 → terms.secret? = none
  /-- A refusal of a channel makes no transfer show anything. -/
  refusals : ∀ before later, inputs = before ++ later →
    ∀ k t, (b.run before).transfers.get? k = some t → ∀ refusal,
      ∀ e ∈ (t.step (.routeRefused refusal)).2, e.secret? = none
  /-- A transfer that expires or is canceled shows nothing. -/
  abandoned : ∀ before later, inputs = before ++ later →
    ∀ k t, (b.run before).transfers.get? k = some t → ∀ fact,
      (t.step fact).1.isAbandoned = true → ∀ e ∈ (t.step fact).2, e.secret? = none

theorem run_secrecyLaw (view : NetworkView) (block : Height) (inputs : List BrokerInput) :
    (fresh view block).SecrecyLaw inputs where
  freed before i later _ a ha secret h := by
    have hbefore : ∀ k t, (fresh view block).transfers.get? k = some t → t.known? = none := by
      intro k t ht
      rw [fresh, SortedMap.get?_empty] at ht
      cases ht
    have hfrees : ∀ secret, ((fresh view block).run before).Frees i secret →
        (fresh view block).Freed (before ++ [i]) secret :=
      fun secret hfrees => ⟨before, i, [], rfl, hfrees⟩
    exact (react_secret ((filed_fresh view block).run before)
      (fun k t ht secret hsecret =>
        (known?_of_run (filed_fresh view block) hbefore before ht hsecret).append [i])
      hfrees).1 a ha secret h
  silent before i _ _ h := react_silent ((filed_fresh view block).run before) h
  lockedTransfers _ _ _ _ t _ _ _ _ _ h := t.step_lockedTransfer h
  refusals _ _ _ _ t _ refusal := t.step_silent (i := .routeRefused refusal) rfl
  abandoned _ _ _ _ t _ _ h := t.step_abandoned h

end Broker

end PaymentNetwork

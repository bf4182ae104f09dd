import PaymentNetwork.Proofs.Channel.History
import PaymentNetwork.Proofs.Transfer.Offer

/-!
# Runs of a Transfer

What a transfer has asked for after any sequence of facts.

The three machines have the same form: a fact takes a state to a state and asks for
some effects. So what a run makes of a state, and what it asks for on the way, is
defined once for all of them. A run is cut wherever a result needs it, and the two
parts are the run before the cut and the run from there.

Two things are known of a run without looking at the machine. The clock of a
transfer shows the block that was announced last. And among the effects there are
some that only a holder of the secret has: whoever asks for one of them has learned
the secret before.

## Main definitions

* `Machine.run`, `Machine.effects`: The state after some facts, and what was asked
  for on the way.
* `Input.clock`, `Input.lastBlock`: The block that a fact leaves announced, and the
  one that a run does.
* `Input.closes`: Does the fact report that a channel was closed?
* `Effect.needsSecret`: Does only a holder of the secret have this effect?
* `Effect.calls`, `Effect.unlocks`: The calls among some effects, and how many
  unlocks are among them.
* `Target.Keeps`: A step that is of no consequence for the payment.

## Theorems

* `Machine.run_append`, `Machine.effects_append`: A run is cut.
* `Machine.effects_of_fixed`: A state that no fact changes asks for nothing.
* `Effect.calls_of_no_secret`, `Effect.unlocks_of_no_secret`: Without the secret there
  are no calls and no unlocks.
* `Mediator.learnSecret_snd`, `Target.learnSecret_snd`: What learning the secret asks
  for.
* `Target.step_cases`: What a step of a target can be.
-/

namespace PaymentNetwork

theorem collect_append {σ ι α : Type} (after : σ → ι → σ) (f : σ → ι → List α) (s : σ)
    (first later : List ι) :
    collect after f s (first ++ later)
      = collect after f s first ++ collect after f (first.foldl after s) later := by
  induction first generalizing s with
  | nil => rfl
  | cons i rest ih =>
      rw [List.cons_append, collect, collect, ih, List.append_assoc, List.foldl_cons]

namespace Machine

variable {σ : Type} (step : σ → Input → σ × List Effect)

/-- The machine after some facts. -/
def run (s : σ) (inputs : List Input) : σ := inputs.foldl (fun s i => (step s i).1) s

/-- What some facts make the machine ask for, in order. -/
def effects (s : σ) (inputs : List Input) : List Effect :=
  collect (fun s i => (step s i).1) (fun s i => (step s i).2) s inputs

@[simp] theorem run_nil (s : σ) : run step s [] = s := rfl

@[simp] theorem run_cons (s : σ) (i : Input) (rest : List Input) :
    run step s (i :: rest) = run step (step s i).1 rest := rfl

@[simp] theorem effects_nil (s : σ) : effects step s [] = [] := rfl

@[simp] theorem effects_cons (s : σ) (i : Input) (rest : List Input) :
    effects step s (i :: rest) = (step s i).2 ++ effects step (step s i).1 rest := rfl

theorem run_append (s : σ) (first later : List Input) :
    run step s (first ++ later) = run step (run step s first) later :=
  List.foldl_append

theorem effects_append (s : σ) (first later : List Input) :
    effects step s (first ++ later)
      = effects step s first ++ effects step (run step s first) later :=
  collect_append _ _ s first later

variable {step}

/-- What every fact keeps, every run keeps. -/
theorem run_invariant {P : σ → Prop} (hstep : ∀ s i, P s → P (step s i).1) {s : σ} (h : P s)
    (inputs : List Input) : P (run step s inputs) := by
  induction inputs generalizing s with
  | nil => exact h
  | cons i rest ih => exact ih (hstep s i h)

/-- A state that no fact changes asks for nothing. -/
theorem effects_of_fixed {s : σ} (h : ∀ i, step s i = (s, [])) (inputs : List Input) :
    run step s inputs = s ∧ effects step s inputs = [] := by
  induction inputs with
  | nil => exact ⟨rfl, rfl⟩
  | cons i rest ih =>
      rw [run_cons, effects_cons, h i]
      exact ih

end Machine

namespace Input

/-- The block that is the announced one after the fact. Events of the ledger tell of
    the past and announce none. -/
def clock (now : Height) : Input → Height
  | block number => number
  | _ => now

/-- The block that was announced last. -/
def lastBlock (now : Height) (inputs : List Input) : Height := inputs.foldl clock now

/-- Does the fact report that the channel was closed? -/
def closes (id : ChannelId) : Input → Bool
  | chain (.channelClosed _ channelId _ _) => decide (channelId = id)
  | _ => false

@[simp] theorem closes_block (id : ChannelId) (number : Height) :
    closes id (block number) = false := rfl

@[simp] theorem lastBlock_nil (now : Height) : lastBlock now [] = now := rfl

@[simp] theorem lastBlock_cons (now : Height) (i : Input) (rest : List Input) :
    lastBlock now (i :: rest) = lastBlock (clock now i) rest := rfl

theorem lastBlock_append (now : Height) (first later : List Input) :
    lastBlock now (first ++ later) = lastBlock (lastBlock now first) later :=
  List.foldl_append

end Input

namespace Effect

/-- Does only a holder of the secret have this effect? Such effects show the secret,
    pay for it, or collect what it opens. -/
def needsSecret : Effect → Bool
  | sendSecretReveal .. => true
  | sendUnlock .. => true
  | call _ => true
  | receivedSuccess .. => true
  | _ => false

/-- The call that the effect is, if it is one. -/
def call? : Effect → Option ChainCall
  | call c => some c
  | _ => none

/-- Is the effect an unlock to be sent? -/
def isUnlock : Effect → Bool
  | sendUnlock .. => true
  | _ => false

/-- The calls among some effects. -/
def calls (es : List Effect) : List ChainCall := es.filterMap call?

/-- How many unlocks are among some effects. -/
def unlocks (es : List Effect) : Nat := es.countP isUnlock

@[simp] theorem unlocks_nil : unlocks [] = 0 := rfl

theorem calls_append (es fs : List Effect) : calls (es ++ fs) = calls es ++ calls fs :=
  List.filterMap_append

theorem unlocks_append (es fs : List Effect) : unlocks (es ++ fs) = unlocks es + unlocks fs :=
  List.countP_append

theorem calls_of_no_secret {es : List Effect} (h : ∀ e ∈ es, e.needsSecret = false) :
    calls es = [] := by
  refine List.filterMap_eq_nil_iff.mpr (fun e he => ?_)
  have hneeds := h e he
  cases e with
  | call c => cases hneeds
  | _ => rfl

theorem unlocks_of_no_secret {es : List Effect} (h : ∀ e ∈ es, e.needsSecret = false) :
    unlocks es = 0 := by
  refine List.countP_eq_zero.mpr (fun e he => ?_)
  have hneeds := h e he
  cases e with
  | sendUnlock => cases hneeds
  | _ => exact Bool.false_ne_true

end Effect

/-! ### Steps with the secret -/

namespace Initiator

/-- Nothing happens to an initiator that is done. -/
theorem step_of_isTerminal {s : Initiator} (h : s.status.isTerminal = true) (i : Input) :
    s.step i = (s, []) := by
  unfold step
  exact if_pos h

end Initiator

namespace Mediator

/-- Nothing happens to a mediator that is done. -/
theorem step_of_isTerminal {s : Mediator} (h : s.status.isTerminal = true) (i : Input) :
    s.step i = (s, []) := by
  unfold step
  exact if_pos h

theorem learnSecret_fst (s : Mediator) (secret : Secret) :
    (s.learnSecret secret).1
      = (checkPayerDeadline
          { s with secret? := some secret, status := .waitingSecretPropagation }).1 := rfl

/-- The effects of learning: the payer is shown the secret, the payee is paid, and the
    ledger is asked if the payer's time is over. -/
theorem learnSecret_snd (s : Mediator) (secret : Secret) :
    (s.learnSecret secret).2
      = .sendSecretReveal s.payerRoute.node secret :: s.payPayee secret
        ++ (checkPayerDeadline
          { s with secret? := some secret, status := .waitingSecretPropagation }).2 := rfl

end Mediator

namespace Target

/-- Nothing happens to a target that is done. -/
theorem step_of_isTerminal {s : Target} (h : s.status.isTerminal = true) (i : Input) :
    s.step i = (s, []) := by
  unfold step
  exact if_pos h

theorem learnSecret_fst (s : Target) (secret : Secret) :
    (s.learnSecret secret).1 = (checkUnlockDeadline { s with
      terms := { s.terms with secret? := some secret }, status := .waitingUnlock }).1 := rfl

/-- The effects of learning: the payment is received, the payer is shown the secret,
    and the ledger is asked if the payer's time is over. -/
theorem learnSecret_snd (s : Target) (secret : Secret) :
    (s.learnSecret secret).2
      = .receivedSuccess s.terms.paymentId s.terms.tokenNetwork s.terms.initiator s.terms.amount
          s.terms.secretHash :: .sendSecretReveal s.payerRoute.node secret
          :: (checkUnlockDeadline { s with
              terms := { s.terms with secret? := some secret }, status := .waitingUnlock }).2 := rfl

/-- The payer is still waited for, or its time is over and the lock is claimed. -/
theorem checkUnlockDeadline_cases (s : Target) :
    s.checkUnlockDeadline = (s, []) ∨
    ∃ secret, s.terms.secret? = some secret ∧
      s.checkUnlockDeadline = ({ s with status := .completed }, s.claim secret) := by
  unfold checkUnlockDeadline
  split
  · rename_i secret hsecret
    split
    · exact Or.inr ⟨secret, hsecret, rfl⟩
    · exact Or.inl rfl
  · exact Or.inl rfl

/-- The status and the terms stay as they are, and all that is asked for are notices. -/
structure Keeps (s : Target) (r : Target × List Effect) : Prop where
  status : r.1.status = s.status
  terms : r.1.terms = s.terms
  notices : ∀ e ∈ r.2, ∃ level info, e = .notice level info

section Steps

variable (s : Target)

theorem keeps_self : s.Keeps (s, []) := ⟨rfl, rfl, fun _ he => nomatch he⟩

theorem keeps_notice (level : NoticeLevel) (info : String) :
    s.Keeps (s, [.notice level info]) :=
  ⟨rfl, rfl, fun _ he => ⟨level, info, List.mem_singleton.mp he⟩⟩

theorem onSecretReveal_cases (r : SecretRevealed) :
    s.onSecretReveal r = s.learnSecret r.secret ∨ s.Keeps (s.onSecretReveal r) := by
  unfold onSecretReveal
  split
  · exact Or.inr (keeps_notice s _ _)
  · exact Or.inl rfl

theorem onProof_cases (p : ProofReceived) :
    s.onProof p = ({ s with status := .completed },
      [.unlockSuccess s.terms.paymentId s.terms.secretHash]) ∨ s.Keeps (s.onProof p) := by
  unfold onProof
  split
  · exact Or.inr s.keeps_self
  · split
    · exact Or.inl rfl
    · exact Or.inr (keeps_notice s _ _)

theorem onChain_cases (e : ChainEvent) :
    (∃ secret, s.status ≠ .waitingUnlock ∧ s.onChain e = s.learnSecret secret) ∨
      s.Keeps (s.onChain e) := by
  unfold onChain
  split
  · split
    · exact Or.inr ⟨rfl, rfl, fun _ he => nomatch he⟩
    · exact Or.inr s.keeps_self
  · split
    · rename_i hlearns
      exact Or.inl ⟨_, hlearns.2.1, rfl⟩
    · exact Or.inr s.keeps_self
  · exact Or.inr s.keeps_self

/-- A target looks at the clock on every block, learns the secret once, is done when
    the payer unlocks, and nothing else matters to it. -/
theorem step_cases (i : Input) :
    (∃ number, i = .block number ∧ s.status ≠ .waitingUnlock ∧
      s.step i = expire { s with blockNumber := number }) ∨
    (∃ number, i = .block number ∧ s.status = .waitingUnlock ∧
      s.step i = checkUnlockDeadline { s with blockNumber := number }) ∨
    (∃ secret, s.status ≠ .waitingUnlock ∧ s.step i = s.learnSecret secret) ∨
    (s.status = .waitingUnlock ∧ s.step i = ({ s with status := .completed },
      [.unlockSuccess s.terms.paymentId s.terms.secretHash])) ∨
    s.Keeps (s.step i) := by
  unfold step
  split
  · exact Or.inr (Or.inr (Or.inr (Or.inr s.keeps_self)))
  · rename_i hprogress
    split
    · -- On a block the status decides: the secret is waited for, or the payer is.
      unfold onBlock
      dsimp only
      split
      · rename_i hidle
        exact Or.inl ⟨_, rfl, by rw [hidle]; decide, rfl⟩
      · rename_i hrequested
        exact Or.inl ⟨_, rfl, by rw [hrequested]; decide, rfl⟩
      · rename_i hwaiting
        exact Or.inr (Or.inl ⟨_, rfl, hwaiting, rfl⟩)
      · exact Or.inr (Or.inr (Or.inr (Or.inr ⟨rfl, rfl, fun _ he => nomatch he⟩)))
    · rename_i reveal hrequested
      rcases s.onSecretReveal_cases reveal with heq | hkeeps
      · exact Or.inr (Or.inr (Or.inl ⟨_, by rw [hrequested]; decide, heq⟩))
      · exact Or.inr (Or.inr (Or.inr (Or.inr hkeeps)))
    · rename_i proof hwaiting
      rcases s.onProof_cases proof with heq | hkeeps
      · exact Or.inr (Or.inr (Or.inr (Or.inl ⟨hwaiting, heq⟩)))
      · exact Or.inr (Or.inr (Or.inr (Or.inr hkeeps)))
    · rename_i event
      rcases s.onChain_cases event with hlearns | hkeeps
      · exact Or.inr (Or.inr (Or.inl hlearns))
      · exact Or.inr (Or.inr (Or.inr (Or.inr hkeeps)))
    · exact Or.inr (Or.inr (Or.inr (Or.inr s.keeps_self)))

end Steps

end Target

end PaymentNetwork

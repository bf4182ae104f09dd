import PaymentNetwork.Proofs.Transfer.Trace

/-!
# A Debt With a Deadline

What a transfer does about a payer that owes it and does not pay.

A mediator and a target that know the secret are in the same place: the payer owes
them, and it has until a certain block to pay. Each fact either leaves the debt as it
is, or is the one that brings the deadline, and then the ledger is asked to collect.
That is all a debt is here, and whoever shows it of the steps of a machine has it for
runs: nothing is asked of the ledger before the deadline, and the fact that brings the
deadline asks for the whole claim.

The machine need not be owed when the run begins. The fact that makes the debt may come
when the deadline is past already, and then the same fact makes the claim.

## Main definitions

* `Input.FirstReaches`: The announced block reaches a height for the first time.
* `Machine.Debt`: What every step of a machine does about a debt.

## Theorems

* `Machine.Debt.run`: A debt that is not paid is collected at the deadline.
* `Machine.Debt.run_from`: The same from the fact that makes the debt.
-/

namespace PaymentNetwork

namespace Input

/-- After these facts, and not before the last of them, the announced block has reached
    the height. -/
def FirstReaches (height now : Height) (inputs : List Input) : Prop :=
  ∀ first, first <+: inputs → (height ≤ lastBlock now first ↔ first = inputs)

theorem FirstReaches.of_nil {height now : Height} (h : FirstReaches height now []) :
    height ≤ now :=
  (h [] List.prefix_rfl).mpr rfl

theorem FirstReaches.of_cons {height now : Height} {i : Input} {rest : List Input}
    (h : FirstReaches height now (i :: rest)) :
    now < height ∧ FirstReaches height (i.clock now) rest := by
  refine ⟨Word.not_le.mp (fun hle => ?_), fun first hfirst => ?_⟩
  · cases (h [] List.nil_prefix).mp hle
  · have hcons := h (i :: first) (List.cons_prefix_cons.mpr ⟨rfl, hfirst⟩)
    rw [lastBlock_cons, List.cons.injEq] at hcons
    exact hcons.trans (and_iff_right rfl)

end Input

namespace Machine

variable {σ : Type}

/-- A debt to a machine. It is owed at a block, with the payer's channel closed or not,
    as long as the payer does not pay and the deadline is not reached. -/
structure Debt (step : σ → Input → σ × List Effect) where
  deadline : Height
  /-- Is the fact the payment? -/
  pays : Input → Bool
  /-- Does the fact report the payer's channel as closed? -/
  closes : Input → Bool
  /-- What is asked of the ledger to collect. -/
  claim : (closed : Bool) → List ChainCall
  Owed : (now : Height) → (closed : Bool) → σ → Prop
  Collected : σ → Prop
  early : ∀ {now closed s}, Owed now closed s → now < deadline
  /-- What is neither paid nor due is owed, and the ledger is not asked for anything. -/
  waits : ∀ {now closed s i}, Owed now closed s → pays i = false → i.clock now < deadline →
    Owed (i.clock now) (closed || closes i) (step s i).1 ∧ Effect.calls (step s i).2 = []
  /-- What is not paid is collected when it is due. -/
  collects : ∀ {now closed s i}, Owed now closed s → pays i = false → deadline ≤ i.clock now →
    Collected (step s i).1 ∧ Effect.calls (step s i).2 = claim (closed || closes i)

namespace Debt

variable {step : σ → Input → σ × List Effect} (d : Debt step) {now : Height} {closed : Bool} {s : σ}

/-- A debt that is not paid is collected at the deadline, and not before. -/
theorem run (h : d.Owed now closed s) {mid : List Input} (hpays : ∀ j ∈ mid, d.pays j = false)
    (hdue : Input.FirstReaches d.deadline now mid) :
    Effect.calls (effects step s mid.dropLast) = [] ∧ d.Collected (Machine.run step s mid) ∧
      Effect.calls (effects step s mid) = d.claim (closed || mid.any d.closes) := by
  induction mid generalizing now closed s with
  | nil => exact absurd (d.early h) (Word.not_lt.mpr hdue.of_nil)
  | cons j rest ih =>
      have hunpaid := hpays j List.mem_cons_self
      have hrest := hdue.of_cons.2
      -- The inputs stop at the first block that reaches the deadline, so it falls due with the
      -- last one.
      cases rest with
      | nil =>
          have hcollects := d.collects h hunpaid hrest.of_nil
          rw [List.any_cons, List.any_nil, Bool.or_false, effects_cons, effects_nil,
            List.append_nil]
          exact ⟨rfl, hcollects⟩
      | cons k tail =>
          have hwaits := d.waits h hunpaid hrest.of_cons.1
          have htail := ih hwaits.1 (fun l hl => hpays l (List.mem_cons_of_mem j hl)) hrest
          refine ⟨?_, htail.2.1, ?_⟩
          · rw [List.dropLast_cons_of_ne_nil (List.cons_ne_nil k tail), effects_cons,
              Effect.calls_append, hwaits.2, htail.1]
            rfl
          · rw [effects_cons, Effect.calls_append, hwaits.2, htail.2.2, List.any_cons,
              Bool.or_assoc]
            rfl

/-- From the fact that makes the debt on, the claim is made at the deadline. It is made by
    that fact if the deadline is past already. -/
theorem run_from {i : Input}
    (hlate : d.deadline ≤ now →
      d.Collected (step s i).1 ∧ Effect.calls (step s i).2 = d.claim closed)
    (hearly : now < d.deadline →
      d.Owed now closed (step s i).1 ∧ Effect.calls (step s i).2 = [])
    {mid : List Input} (hpays : ∀ j ∈ mid, d.pays j = false)
    (hdue : Input.FirstReaches d.deadline now mid) :
    Effect.calls (effects step s (i :: mid).dropLast) = [] ∧
      d.Collected (Machine.run step s (i :: mid)) ∧
      Effect.calls (effects step s (i :: mid)) = d.claim (closed || mid.any d.closes) := by
  cases mid with
  | nil =>
      rw [List.any_nil, Bool.or_false, effects_cons, effects_nil, List.append_nil]
      exact ⟨rfl, hlate hdue.of_nil⟩
  | cons j rest =>
      have howed := hearly hdue.of_cons.1
      have hrun := d.run howed.1 hpays hdue
      refine ⟨?_, hrun.2.1, ?_⟩
      · rw [List.dropLast_cons_of_ne_nil (List.cons_ne_nil j rest), effects_cons,
          Effect.calls_append, howed.2, hrun.1]
        rfl
      · rw [effects_cons, Effect.calls_append, howed.2, hrun.2.2]
        rfl

end Debt

end Machine

end PaymentNetwork

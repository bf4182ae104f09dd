import PaymentNetwork.Chain.Ledger

/-!
# Waiting

What a task can wait for, and how a wait ends.

The long-running activities of a node are machines: a state says what is waited
for, and the end of the wait leads to the next state. Nothing else happens
between two waits. So whatever else goes on in a node, and however long the
ledger takes to answer, one activity by itself is a sequence of waits and ends
of waits, and a law about all runs is an induction over such sequences.

## Main definitions

* `Want`: What a task waits for.
* `Wake`: The end of a wait.
-/

namespace PaymentNetwork

/-- What a task waits for. -/
inductive Want where
  /-- Exclusive use of a funding policy. -/
  | policy
  /-- The answer of the ledger. -/
  | ledger (r : LedgerRequest)
  /-- A number of ticks of the clock. -/
  | ticks (n : Count)
  /-- The next height on a stream of heights. -/
  | head (stream : Nat)
  /-- Nothing: the task is over. -/
  | nothing
deriving DecidableEq

/-- The end of a wait. -/
inductive Wake where
  /-- The policy is ours. -/
  | granted
  | answered (answer : Except LedgerError LedgerAnswer)
  /-- The ticks passed, or there is no clock any more. -/
  | ticked (ok : Bool)
  /-- A height, or nothing if the stream ended. -/
  | arrived (height? : Option Height)

end PaymentNetwork

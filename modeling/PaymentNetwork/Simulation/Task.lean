import PaymentNetwork.Chain.Monitor
import PaymentNetwork.Node.Basic

/-!
# Tasks

What runs side by side in a simulation.

Most tasks are the machines of the library: operations on a membership, calls to
the ledger, and the watch over its height. A few more only deal with the clock or
with other tasks. A task has a label if somebody wants to know what came of it.

## Main definitions

* `Program`: What a task does.
* `Program.wants`: What it waits for.
* `TaskResult`: What comes of it.
* `Task`: A program, how far its wait got, and its label.
-/

namespace PaymentNetwork

/-- What comes of a task. -/
inductive TaskResult where
  /-- A stream of ticks was opened. -/
  | opened
  /-- A request for a stream could not be made. -/
  | unsent
  /-- A request for a stream was not answered. -/
  | unanswered
  | awake
  /-- There was no clock to sleep by. -/
  | clockless
  | operation (r : OperationResult)
  | submitted
  | notSubmitted (e : SubmissionError)
  | stopped
deriving DecidableEq

/-- What a task does. -/
inductive Program where
  /-- It asks for a stream of ticks, to be held by others. -/
  | askForStream
  | sleep (ticks : Count)
  /-- It starts an operation on a membership. -/
  | start (tokenNetwork : Address) (op : Operation)
  | operate (tokenNetwork : Address) (phase : Phase)
  | submit (call : ChainCall) (s : Submission)
  | watch (w : Watch)
  /-- It stops the watch. -/
  | stopWatch (task : Nat)
  /-- It waits for another task, and has the same result. -/
  | follow (task : Nat)
  | ended (r : TaskResult)

namespace Program

/-- What a task waits for before it can go on. -/
def wants (c : NodeConfig) : Program → Want
  | askForStream => .ticks 0
  | sleep n => .ticks n
  | start .. => .nothing
  | operate tokenNetwork phase => phase.wants (c.connectionSettings tokenNetwork)
  | submit call s => s.wants call c.chainBackoffTicks
  | watch w => w.wants c.chainBackoffTicks
  | stopWatch _ => .nothing
  | follow _ => .nothing
  | ended _ => .nothing

/-- What came of a task, if it is over. -/
def result? : Program → Option TaskResult
  | operate _ (.ended r) => some (.operation r)
  | submit _ .done => some .submitted
  | submit _ (.failed e) => some (.notSubmitted e)
  | watch .stopped => some .stopped
  | ended r => some r
  | _ => none

end Program

/-- How far the wait of a task got. -/
inductive Stage where
  /-- What it waits for was not asked for yet. -/
  | idle
  /-- It stands in a slot. -/
  | inSlot (slot : Nat)
  /-- It reads a stream of ticks, and some ticks are left to wait for. -/
  | counting (stream left : Nat)
deriving DecidableEq

/-- Something that runs side by side with others. -/
structure Task where
  program : Program
  stage : Stage
  label? : Option Nat
  /-- May it ask the clock for a stream on its own account? -/
  isClient : Bool

/-- One line of a script: what a watcher does when it runs, in this order. -/
structure ScriptLine where
  /-- Remove the watcher that was registered last by a name. -/
  remove? : Option String
  /-- Register a watcher without a script. -/
  register? : Option String
  fails : Bool

/-- Something that wants to know about heights. -/
inductive Watcher where
  | node
  /-- It follows a script, one line a time, and does nothing when it is
      through. -/
  | scripted (name : String) (script : List ScriptLine)

end PaymentNetwork

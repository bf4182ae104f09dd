import PaymentNetwork.Wait

/-!
# Getting a Call Through

Makes a call that a transfer asked for, again and again until it is done.

Before every attempt the height of the ledger is read, and an attempt is only
made up to the deadline of the call. A failure is followed by a pause and
another attempt, with two exceptions: a deadline that passed and a channel that
does not exist end the matter. So does a clock that stopped.

A submission waits at each point where time passes. What it waits for is a
function of where it stands, and `resume` says where it goes from there.

## Main definitions

* `Submission`: Where a submission stands.
* `Submission.wants`: What it waits for.
* `Submission.resume`: Where it goes from there.
-/

namespace PaymentNetwork

/-- Why a call did not get through. -/
inductive SubmissionError where
  | deadlinePassed
  | ledger (e : LedgerError)
  | clockStopped
deriving DecidableEq

/-- Where a submission stands. -/
inductive Submission where
  | readingHeight
  | calling
  | pausing
  | done
  | failed (e : SubmissionError)
deriving DecidableEq

/-- The request that makes a call. -/
def ChainCall.request : ChainCall → LedgerRequest
  | .registerSecret secret _ => .registerSecret secret
  | .closeChannel tokenNetwork channelId partner _ => .closeChannel tokenNetwork channelId partner
  | .unlock tokenNetwork channelId partner secretHash _ =>
    .unlock tokenNetwork channelId partner secretHash

namespace Submission

/-- What a submission waits for. -/
def wants (c : ChainCall) (pause : Count) : Submission → Want
  | readingHeight => .ledger .currentHeight
  | calling => .ledger c.request
  | pausing => .ticks pause
  | done => .nothing
  | failed _ => .nothing

/-- Where a submission goes when its wait ends. -/
def resume (c : ChainCall) (s : Submission) (w : Wake) : Submission :=
  match s, w with
  | readingHeight, .answered (.ok (.height h)) =>
    if c.deadline < h then failed .deadlinePassed else calling
  | readingHeight, .answered _ => pausing
  | calling, .answered (.ok _) => done
  | calling, .answered (.error .channelNotFound) => failed (.ledger .channelNotFound)
  | calling, .answered (.error _) => pausing
  | pausing, .ticked true => readingHeight
  | pausing, .ticked false => failed .clockStopped
  | s, _ => s

end Submission

end PaymentNetwork

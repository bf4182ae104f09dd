import PaymentNetwork.Wait

/-!
# Watching the Height of the Ledger

Tells callbacks of every new height, and keeps watching through failures.

A height that equals the last one is no news. For any other height the callbacks
run one after the other, in the order in which they were registered. While they
run, the callbacks may ask for registrations and removals, of themselves too.
Nothing that they ask for affects the current round: who was registered before
the round runs in it, and who is registered during the round comes last
afterwards. A callback that fails is dropped after its round.

A callback is data of any type, and a `Reaction` says what comes of running it.
Whatever else it changes is in the world that it is given.

Watching itself is a task: it reads the height, subscribes, follows the stream
of heights, and after a failure pauses and starts over. It ends when the clock
does.

## Main definitions

* `Monitor`: The callbacks and the last height.
* `Reaction`: What comes of running a callback.
* `Monitor.observe`: The monitor and the world after a height.
* `Watch`, `Watch.wants`, `Watch.resume`: The task that watches.
-/

namespace PaymentNetwork

/-- What a callback asks of the monitor while it runs. -/
inductive MonitorRequest (κ : Type) where
  | register (callback : κ)
  | remove (id : Nat)

/-- What comes of running a callback: the world, the callback as it is the next
    time, what it asks of the monitor, and whether it failed. -/
structure Reaction (σ κ : Type) where
  world : σ
  callback : κ
  requests : List (MonitorRequest κ)
  failed : Bool

/-- Something noteworthy about a height. -/
inductive HeightWarning where
  | wentBack (last height : Height)
  | missed (last height : Height)
deriving DecidableEq

namespace HeightWarning

/-- The sentence that reports the warning. -/
def message : HeightWarning → String
  | wentBack last height =>
    "chain monitor: block height went back from " ++ last.toText ++ " to " ++ height.toText
      ++ ", possible reorg"
  | missed last height =>
    "chain monitor: missed " ++ toString (height.val - last.val - 1) ++ " blocks (last: "
      ++ last.toText ++ ", new: " ++ height.toText ++ ")"

/-- What is noteworthy about a height after another one. -/
def between? (last height : Height) : Option HeightWarning :=
  if height < last then some (wentBack last height)
  else if last.val + 1 < height.val then some (missed last height)
  else none

end HeightWarning

/-- The callbacks, and the last height. -/
structure Monitor (κ : Type) where
  lastHeight? : Option Height
  isStarted : Bool
  nextId : Nat
  /-- The callbacks by registration. While they run they are elsewhere. -/
  callbacks : List (Nat × κ)
  /-- Are callbacks running? -/
  isInvoking : Bool
  /-- Removals that wait for the callbacks to come back. -/
  removals : List Nat

namespace Monitor

variable {σ κ : Type}

/-- A monitor that nothing is registered with. -/
def fresh : Monitor κ := ⟨none, false, 0, [], false, []⟩

instance : Inhabited (Monitor κ) := ⟨fresh⟩

/-- Register a callback, behind all others. -/
def register (m : Monitor κ) (callback : κ) : Monitor κ :=
  { m with nextId := m.nextId + 1, callbacks := m.callbacks ++ [(m.nextId, callback)] }

/-- Remove a callback. If it may be one that is running, this is done when the
    round is over. -/
def remove (m : Monitor κ) (id : Nat) : Monitor κ :=
  let rest := m.callbacks.filter fun c => decide (c.1 ≠ id)
  if rest.length = m.callbacks.length ∧ m.isInvoking then
    { m with removals := m.removals ++ [id] }
  else { m with callbacks := rest }

/-- Do what a callback asks for. -/
def ask (m : Monitor κ) : MonitorRequest κ → Monitor κ
  | .register callback => m.register callback
  | .remove id => m.remove id

/-- A round of callbacks: what became of the monitor and of the world, the
    callbacks as they are the next time, and the ones that failed. -/
structure Round (σ κ : Type) where
  monitor : Monitor κ
  world : σ
  callbacks : List (Nat × κ)
  failed : List Nat

/-- Run some callbacks, one after the other. A callback is told the identifier
    that the next registration is going to have. -/
def invoke (react : σ → κ → Height → Nat → Reaction σ κ) (height : Height) (m : Monitor κ)
    (world : σ) : List (Nat × κ) → Round σ κ
  | [] => ⟨m, world, [], []⟩
  | (id, callback) :: rest =>
    let r := react world callback height m.nextId
    let round := invoke react height (r.requests.foldl ask m) r.world rest
    { round with
      callbacks := (id, r.callback) :: round.callbacks
      failed := if r.failed then id :: round.failed else round.failed }

/-- The monitor while its callbacks run. -/
def enter (m : Monitor κ) (height : Height) : Monitor κ :=
  { m with lastHeight? := some height, callbacks := [], isInvoking := true }

/-- The monitor after a round of callbacks. -/
def leave (round : Round σ κ) : Monitor κ :=
  let kept := round.callbacks.filter fun c =>
    decide (c.1 ∉ round.failed) && decide (c.1 ∉ round.monitor.removals)
  { round.monitor with
    callbacks := kept ++ round.monitor.callbacks
    isInvoking := false
    removals := [] }

/-- Tell the callbacks of a height, unless it is the last one again. -/
def observe (react : σ → κ → Height → Nat → Reaction σ κ) (m : Monitor κ) (world : σ)
    (height : Height) : Monitor κ × σ × Option HeightWarning :=
  if m.lastHeight? = some height then (m, world, none)
  else
    let round := invoke react height (m.enter height) world m.callbacks
    (leave round, round.world, m.lastHeight?.bind fun last => HeightWarning.between? last height)

end Monitor

/-- Where the task that watches stands. -/
inductive Watch where
  | readingHeight
  | subscribing
  | following (stream : Nat)
  | pausing
  | stopped
deriving DecidableEq

/-- What came up while watching. -/
inductive WatchEvent where
  | height (h : Height)
  | ledgerFailed (e : LedgerError)
  | headsEnded
  | clockStopped
deriving DecidableEq

namespace WatchEvent

/-- The sentence that reports a failure, if the event is one. -/
def message? (pause : Count) : WatchEvent → Option String
  | height _ => none
  | ledgerFailed e =>
    some ("chain monitor: LedgerError(" ++ e.name ++ "), retrying in " ++ pause.toText ++ " ticks")
  | headsEnded =>
    some ("chain monitor: HeadsStreamClosed, retrying in " ++ pause.toText ++ " ticks")
  | clockStopped => some "chain monitor: timer error RequestTimerStreamError, stopping"

end WatchEvent

namespace Watch

/-- What the task waits for. -/
def wants (pause : Count) : Watch → Want
  | readingHeight => .ledger .currentHeight
  | subscribing => .ledger .subscribeHeads
  | following stream => .head stream
  | pausing => .ticks pause
  | stopped => .nothing

/-- Where the task goes when its wait ends, and what came up. -/
def resume (p : Watch) (w : Wake) : Watch × Option WatchEvent :=
  match p, w with
  | readingHeight, .answered (.ok (.height h)) => (subscribing, some (.height h))
  | readingHeight, .answered (.error e) => (pausing, some (.ledgerFailed e))
  | subscribing, .answered (.ok (.heads stream)) => (following stream, none)
  | subscribing, .answered (.error e) => (pausing, some (.ledgerFailed e))
  | following stream, .arrived (some h) => (following stream, some (.height h))
  | following _, .arrived none => (pausing, some .headsEnded)
  | pausing, .ticked true => (readingHeight, none)
  | pausing, .ticked false => (stopped, some .clockStopped)
  | p, _ => (p, none)

end Watch

end PaymentNetwork

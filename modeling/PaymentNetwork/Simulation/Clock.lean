import PaymentNetwork.SortedMap

/-!
# A Clock Moved by Hand

Hands out ticks to everybody who asked for them.

A stream of ticks is asked for, and the clock opens it when it gets to it. A tick
goes to the open streams one after the other, in the order in which they were
asked for, and the clock waits at each of them until the tick is taken. While it
does, one more tick can wait, and requests can. A stream that nobody reads any
more is only noticed when the next tick comes.

The clock ends when no more ticks come, and also when nobody can ask for a stream
any more and it knows of none. A stream ends with the clock.

A move of the clock is one small thing that it does, so that others may get their
turn in between. Tasks are numbers here.

## Main definitions

* `Clock`: The clock and its streams.
* `Clock.move?`: One small thing that the clock does.
* `Clock.ask`, `Clock.read`, `Clock.drop`: What a reader of a stream does.
-/

namespace PaymentNetwork

/-- How far a stream of ticks has got. -/
inductive StreamStatus where
  | requested
  | isOpen
  /-- Nobody reads it any more. -/
  | dropped
deriving DecidableEq

/-- A stream of ticks. -/
structure TickStream where
  status : StreamStatus
  /-- The task to wake when something happens to the stream. -/
  reader? : Option Nat
  /-- Does a tick wait to be taken? -/
  isFull : Bool

/-- The clock and its streams. -/
structure Clock where
  isRunning : Bool
  /-- Do ticks still come? -/
  isFed : Bool
  /-- Does a tick wait to be handed out? -/
  isTicked : Bool
  /-- May new tasks ask for streams? -/
  isOffered : Bool
  /-- The number of tasks that may. -/
  clients : Nat
  /-- Streams that were asked for, in order. -/
  requests : List Nat
  streams : SortedMap Nat TickStream
  /-- The streams that the clock knows of, in order. -/
  known : List Nat
  /-- The streams that the current tick did not come to yet. -/
  round? : Option (List Nat)
  /-- The stream whose reader is to take the current tick. -/
  handed? : Option Nat

namespace Clock

/-- A clock that nobody asked for ticks. -/
def fresh : Clock := ⟨true, true, false, true, 0, [], .empty, [], none, none⟩

instance : Inhabited Clock := ⟨fresh⟩

/-- A tick comes, and whether there is room for it. -/
def tick (c : Clock) : Clock × Bool :=
  if c.isRunning && c.isFed && !c.isTicked then ({ c with isTicked := true }, true) else (c, false)

/-- No more ticks come. -/
def close (c : Clock) : Clock := { c with isFed := false }

/-- Ask for a stream, which gets a number. There is none if the clock ended. -/
def ask (c : Clock) (reader : Nat) : Option (Nat × Clock) :=
  if c.isRunning then
    let stream := c.streams.size
    some (stream, { c with
      requests := c.requests ++ [stream]
      streams := c.streams.insert stream ⟨.requested, some reader, false⟩ })
  else none

/-- What a look at a stream shows. -/
inductive Sight where
  /-- The stream was not opened yet. -/
  | unopened
  | tick
  | nothing
  | ended
deriving DecidableEq

/-- What can be seen on a stream. -/
def sight (c : Clock) (stream : Nat) : Sight :=
  match c.streams.get? stream with
  | none => .ended
  | some s =>
    if s.isFull then .tick
    else if !c.isRunning || decide (s.status = .dropped) then .ended
    else if s.status = .requested then .unopened
    else .nothing

/-- Change a stream. -/
def change (c : Clock) (stream : Nat) (f : TickStream → TickStream) : Clock :=
  { c with streams := c.streams.adjust stream f }

/-- Take the tick that waits in a stream. -/
def read (c : Clock) (stream : Nat) : Clock := c.change stream fun s => { s with isFull := false }

/-- Nobody reads a stream any more. -/
def drop (c : Clock) (stream : Nat) : Clock :=
  c.change stream fun s => { s with status := .dropped, isFull := false, reader? := none }

/-- Keep a stream without a task that reads it. -/
def hold (c : Clock) (stream : Nat) : Clock := c.change stream fun s => { s with reader? := none }

/-- The task that reads a stream. -/
def readerOf (c : Clock) (stream : Nat) : List Nat :=
  ((c.streams.get? stream).bind TickStream.reader?).toList

/-- Does the clock wait for the tick in a stream to be taken? -/
def awaits (c : Clock) (stream : Nat) : Bool := decide (c.handed? = some stream)

/-- Can a tick be put into a stream? -/
def isRead (c : Clock) (stream : Nat) : Bool :=
  match c.streams.get? stream with
  | some s => decide (s.status = .isOpen)
  | none => false

/-- Can nobody ask for a stream any more? -/
def isForsaken (c : Clock) : Bool :=
  !c.isOffered && decide (c.clients = 0) && c.requests.isEmpty

/-- The clock after its end. All who read or asked are told. -/
def stop (c : Clock) : Clock × List Nat :=
  ({ c with isRunning := false }, (c.known ++ c.requests).flatMap c.readerOf)

/-- Hand the current tick to the next stream. -/
def handOut (c : Clock) (stream : Nat) (rest : List Nat) : Clock × List Nat :=
  if c.isRead stream then
    ({ c.change stream (fun s => { s with isFull := true }) with
      round? := some rest, handed? := some stream }, c.readerOf stream)
  else ({ c with round? := some rest }, [])

/-- Open a stream that was asked for. -/
def openStream (c : Clock) (stream : Nat) (rest : List Nat) : Clock × List Nat :=
  let opened := fun (s : TickStream) =>
    if s.status = .requested then { s with status := .isOpen } else s
  ({ c.change stream opened with
    requests := rest, known := c.known ++ [stream] }, c.readerOf stream)

/-- One small thing that the clock does, with the tasks to wake, or nothing if it
    has to wait. -/
def move? (c : Clock) : Option (Clock × List Nat) :=
  if !c.isRunning then none
  else match c.handed?, c.round? with
    | some stream, _ =>
      if c.sight stream = .tick then none
      else some ({ c with handed? := none, known := c.known ++ [stream] }, [])
    | none, some (stream :: rest) => some (c.handOut stream rest)
    | none, some [] => some ({ c with round? := none }, [])
    | none, none =>
      -- Between two ticks: the end comes first, then a tick, then requests.
      if c.isForsaken && c.known.isEmpty then some c.stop
      else if c.isTicked then
        some ({ c with isTicked := false, known := [], round? := some c.known }, [])
      else match c.requests with
        | stream :: rest => some (c.openStream stream rest)
        | [] => if c.isFed then none else some c.stop

end Clock

end PaymentNetwork

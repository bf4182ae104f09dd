import PaymentNetwork.Simulation.Run

/-!
# Moving a Simulation by Hand

What is done to a simulation from outside: the clock is moved, the ledger gets
heights and failures, the watch over it is started and stopped, and the node is
asked for things. Nothing goes on by itself afterwards; that is what running the
simulation is for.

## Main definitions

* `Simulation.tick`, `Simulation.tickMany`: Move the clock.
* `Simulation.addHeads`, `Simulation.sendHead`, `Simulation.closeHeads`: Move the
  height of the ledger.
* `Simulation.startWatch`, `Simulation.stopWatch`: Start and stop watching it.
* `Simulation.leaveInBackground`: Leave a token network, with a task that waits
  for it.
* `Simulation.pay`: Start a payment with a random secret.
-/

namespace PaymentNetwork

namespace Simulation

/-! ### The clock -/

/-- One tick, with all that comes of it, and whether the clock took it. -/
def tick (s : Simulation) : Simulation × Bool :=
  let (clock, taken) := s.clock.tick
  (if taken then ({ s with clock := clock }.wake .clock).run else s, taken)

/-- Some ticks, one after the other, and how many of them the clock took. -/
def tickMany : Nat → Simulation → Simulation × Nat
  | 0, s => (s, 0)
  | n + 1, s =>
    let (s', taken) := s.tick
    let (s'', count) := tickMany n s'
    (s'', if taken then count + 1 else count)

/-- No more ticks come. -/
def closeClock (s : Simulation) : Simulation := { s with clock := s.clock.close }.wake .clock

/-- No new task may ask the clock for a stream. -/
def withdrawClock (s : Simulation) : Simulation :=
  { s with clock := { s.clock with isOffered := false } }.wake .clock

/-- Drop a stream that is held outside. -/
def dropHeld (s : Simulation) (label : Nat) : Simulation :=
  match List.lookup label s.held with
  | none => s
  | some stream =>
    { s with held := s.held.filter fun h => decide (h.1 ≠ label) }.dropStream stream

/-! ### The ledger -/

/-- The next calls fail. -/
def failNext (s : Simulation) (failures : Nat) : Simulation :=
  { s with ledger := { s.ledger with failuresLeft := failures } }

/-- The outcomes of the next calls. -/
def setScript (s : Simulation) (script : List (Option LedgerError)) : Simulation :=
  { s with ledger := { s.ledger with script := script } }

/-- The height that the ledger has. -/
def setHeight (s : Simulation) (height : Height) : Simulation :=
  { s with ledger := { s.ledger with height := height } }

/-- One more stream of heights to subscribe to. -/
def addHeads (s : Simulation) : Simulation :=
  { s with
    heads := s.heads ++ [⟨none, true, true⟩]
    ledger := { s.ledger with freeHeads := s.ledger.freeHeads ++ [s.heads.length] } }

/-- Wake the task that watches the ledger. -/
def wakeWatch (s : Simulation) : Simulation := s.wakeAll s.watch?.toList

/-- Send a height over a stream, and whether the stream took it. -/
def sendHead (s : Simulation) (stream : Nat) (height : Height) : Simulation × Bool :=
  match s.heads[stream]? with
  | some ⟨none, true, true⟩ =>
    ((s.changeHeads stream fun h => { h with height? := some height }).wakeWatch, true)
  | _ => (s, false)

/-- No more heights come over a stream. -/
def closeHeads (s : Simulation) (stream : Nat) : Simulation :=
  (s.changeHeads stream fun h => { h with isFed := false }).wakeWatch

/-! ### The watch -/

/-- Start watching the ledger, which can be done once. -/
def startWatch (s : Simulation) : Option Simulation :=
  if s.monitor.isStarted then none
  else
    some ({ s with
      monitor := { s.monitor with isStarted := true }
      hasStopper := true
      watch? := some s.taskCount }.spawn (.watch .readingHeight) none)

/-- Register the node as a watcher. -/
def registerNode (s : Simulation) : Simulation :=
  { s with monitor := s.monitor.register .node }

/-- Stop watching the ledger, with a task that waits for it. It can be stopped
    once. -/
def stopWatch (s : Simulation) (label : Nat) : Simulation :=
  match s.hasStopper, s.watch? with
  | true, some task => { s with hasStopper := false }.spawn (.stopWatch task) (some label)
  | _, _ => s

/-- Stop watching the ledger, and do not wait. -/
def abandonWatch (s : Simulation) : Simulation :=
  if s.hasStopper then { s with hasStopper := false, isStopping := true }.wakeWatch else s

/-! ### The node -/

/-- Leave a token network, with a task that waits for it. -/
def leaveInBackground (s : Simulation) (tokenNetwork : Address) (onlyReceiving : Bool)
    (label : Nat) : Simulation :=
  let task := s.taskCount
  (s.spawn (.start tokenNetwork (.leave onlyReceiving)) none).spawn (.follow task) (some label)

/-- What comes of asking for a payment. -/
inductive Payment where
  | started (secretHash : SecretHash)
  /-- There are not enough random bytes for a secret. -/
  | noSecret
  | refused (e : PayError)
  /-- The payment would expire beyond all heights. -/
  | beyondHeights

/-- A secret of random bytes. -/
def drawSecret (s : Simulation) : Option (Secret × Simulation) :=
  if h : (s.random.take 32).length = 32 then
    some (⟨s.random.take 32, h⟩, { s with random := s.random.drop 32 })
  else none

/-- Start a payment with a random secret. -/
def pay (s : Simulation) (tokenNetwork target : Address) (amount : Amount)
    (paymentId : PaymentId) : Simulation × Payment :=
  match s.drawSecret with
  | none => (s, .noSecret)
  | some (secret, s') =>
    match s'.node.termsOf? tokenNetwork target amount paymentId secret with
    | none => (s', .beyondHeights)
    | some terms =>
      match s'.node.pay terms with
      | .error e => (s', .refused e)
      | .ok step => (s'.follow step, .started terms.secretHash)

end Simulation

end PaymentNetwork

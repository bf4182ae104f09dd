import PaymentNetwork.Simulation.Basic

/-!
# Taking Turns

Runs the tasks of a simulation until none of them can go on.

A move is one small thing that a task does: ask for what it waits for, or react
to the end of a wait. A task makes moves until it has to wait. So a run is a
sequence of moves, and what a node does in a simulation is one of the orders in
which its tasks may take turns.

A task could go on for ever, for instance if it sleeps for no time at all between
two attempts at a ledger that always fails. A run therefore has a limit.

## Main definitions

* `Simulation.resume`: The end of a wait of a task.
* `Simulation.moveTask`: One move of a task.
* `Simulation.move?`: One move of whoever has the turn.
* `Simulation.run`: Moves until nobody can go on.
* `Simulation.collect`: Take the ticks out of the streams that are held outside.
-/

namespace PaymentNetwork

namespace Simulation

/-- Whoever has the turn has to wait. -/
def yield (s : Simulation) : Simulation := { s with current? := none }

/-- Replace a task. -/
def put (s : Simulation) (id : Nat) (t : Task) : Simulation :=
  { s with tasks := s.tasks.insert id t }

/-- Replace a task, which has to wait. -/
def park (s : Simulation) (id : Nat) (t : Task) : Simulation := (s.put id t).yield

/-- Wake the clock if it waits for the tick in a stream to be taken. -/
def nudge (s : Simulation) (stream : Nat) : Simulation :=
  if s.clock.awaits stream then s.wake .clock else s

/-- Take the tick out of a stream. -/
def readTick (s : Simulation) (stream : Nat) : Simulation :=
  { s with clock := s.clock.read stream }.nudge stream

/-- Nobody reads a stream of ticks any more. -/
def dropStream (s : Simulation) (stream : Nat) : Simulation :=
  { s with clock := s.clock.drop stream }.nudge stream

/-- The tasks that follow another one. -/
def followers (s : Simulation) (id : Nat) : List Nat :=
  (s.tasks.entries.filter fun e => match e.2.program with
    | .follow task => decide (task = id)
    | _ => false).map Prod.fst

/-- A task is over. -/
def finish (s : Simulation) (id : Nat) (t : Task) (r : TaskResult) : Simulation :=
  let s' := { s with
    tasks := s.tasks.erase id
    results := s.results.insert id r
    done := s.done ++ (t.label?.map fun label => (label, r)).toList
    -- The end of a task ends the round.
    current? := none
    turnsLeft := 0 }.wakeAll (s.followers id)
  if t.isClient then
    { s' with clock := { s'.clock with clients := s'.clock.clients - 1 } }.wake .clock
  else s'

/-- The turnstile before the policy of a token network. -/
def gate (s : Simulation) (tokenNetwork : Address) : Turnstile :=
  (s.gates.get? tokenNetwork).getD .fresh

/-- Replace a turnstile. -/
def setGate (s : Simulation) (tokenNetwork : Address) (g : Turnstile) : Simulation :=
  { s with gates := s.gates.insert tokenNetwork g }

/-- Let go of the policy of a token network. -/
def release (s : Simulation) (tokenNetwork : Address) : Simulation :=
  let (g, called?) := (s.gate tokenNetwork).release
  (s.setGate tokenNetwork g).wakeAll called?.toList

/-- The wait of a task ends. An operation that does not use the policy any more
    lets go of it. -/
def resume (s : Simulation) (p : Program) (w : Wake) : Simulation × Program :=
  match p with
  | .sleep _ =>
    match w with
    | .ticked ok => (s, .ended (if ok then .awake else .clockless))
    | _ => (s, p)
  | .operate tokenNetwork phase =>
    let (m, phase') := Membership.resume (s.settings tokenNetwork)
      (s.node.membership tokenNetwork) phase w
    let s' := { s with node := s.node.withMembership tokenNetwork m }
    -- An operation that was queued holds the policy from the moment it is granted.
    let held := phase.usesPolicy || decide (phase.wants (s.settings tokenNetwork) = .policy)
    (if held && !phase'.usesPolicy then s'.release tokenNetwork else s',
      .operate tokenNetwork phase')
  | .submit call state => (s, .submit call (state.resume call w))
  | .watch state =>
    let (state', event?) := state.resume w
    (event?.elim s s.note, .watch state')
  | _ => (s, p)

/-- The wait of a task ends, and it goes on. -/
def proceed (s : Simulation) (id : Nat) (t : Task) (w : Wake) : Simulation :=
  let (s', program) := s.resume t.program w
  s'.put id { t with program := program, stage := .idle }

/-- The stream that a task asked for is open. -/
def streamOpened (s : Simulation) (id : Nat) (t : Task) (stream left : Nat) : Simulation :=
  match t.program with
  | .askForStream =>
    { s with
      clock := s.clock.hold stream
      held := s.held ++ [(t.label?.getD 0, stream)] }.put id { t with program := .ended .opened }
  | _ =>
    -- A sleep of no ticks is over as soon as its stream is open.
    if left = 0 then (s.dropStream stream).proceed id t (.ticked true)
    else match s.clock.sight stream with
      | .tick => (s.readTick stream).put id { t with stage := .counting stream (left - 1) }
      | .ended => (s.dropStream stream).proceed id t (.ticked true)
      | _ => s.park id t

/-- A task looks at the stream of ticks that it asked for. -/
def count (s : Simulation) (id : Nat) (t : Task) (stream left : Nat) : Simulation :=
  match s.clock.streams.get? stream with
  | some ⟨.requested, _, _⟩ =>
    -- Without a clock the request is never answered.
    if s.clock.isRunning then s.park id t
    else match t.program with
      | .askForStream => s.put id { t with program := .ended .unanswered }
      | _ => s.proceed id t (.ticked false)
  | _ => s.streamOpened id t stream left

/-- A task asks for what it waits for. -/
def ask (s : Simulation) (id : Nat) (t : Task) : Want → Simulation
  | .policy =>
    match t.program with
    | .operate tokenNetwork _ =>
      let g := s.gate tokenNetwork
      if g.isTaken then
        let (slot, g') := g.wait id
        (s.setGate tokenNetwork g').park id { t with stage := .inSlot slot }
      else (s.setGate tokenNetwork g.take).proceed id t .granted
    | _ => s.yield
  | .ledger r =>
    let (answer, s') := s.exchange r
    s'.proceed id t (.answered answer)
  | .ticks n =>
    match s.clock.ask id, t.program with
    | none, .askForStream => s.put id { t with program := .ended .unsent }
    | none, _ => s.proceed id t (.ticked false)
    | some (stream, clock), _ =>
      ({ s with clock := clock }.wake .clock).park id { t with stage := .counting stream n.val }
  | .head stream =>
    match s.heads[stream]? with
    | none => s.proceed id t (.arrived none)
    | some h =>
      match h.height? with
      | some height =>
        (s.changeHeads stream fun h => { h with height? := none }).proceed id t
          (.arrived (some height))
      | none =>
        if h.isFed then s.yield
        else
          (s.changeHeads stream fun h => { h with hasReader := false }).proceed id t
            (.arrived none)
  | .nothing => s.yield

/-- A task that stands in a slot tries again. -/
def tryGate (s : Simulation) (id : Nat) (t : Task) (slot : Nat) : Simulation :=
  match t.program with
  | .operate tokenNetwork _ =>
    let g := s.gate tokenNetwork
    if g.isTaken then (s.setGate tokenNetwork (g.stay slot id)).yield
    else (s.setGate tokenNetwork (g.leave slot).take).proceed id t .granted
  | _ => s.yield

/-- The watch stops. Nobody reads its streams any more. -/
def endWatch (s : Simulation) (id : Nat) (t : Task) : Simulation :=
  let s' := match t.program with
    | .watch (.following stream) => s.changeHeads stream fun h => { h with hasReader := false }
    | _ => s
  match t.stage with
  | .counting stream _ => (s'.dropStream stream).finish id t .stopped
  | _ => s'.finish id t .stopped

/-- Is this the watch, and is it told to stop? -/
def mustStop (s : Simulation) (t : Task) : Bool :=
  s.isStopping && match t.program with
    | .watch _ => true
    | _ => false

/-- One move of a task. -/
def moveTask (s : Simulation) (id : Nat) (t : Task) : Simulation :=
  if s.mustStop t then s.endWatch id t
  else match t.program.result? with
    | some r => s.finish id t r
    | none =>
      match t.program, t.stage with
      | .start tokenNetwork op, _ =>
        let node := s.node.manage tokenNetwork
        let (m, phase) := Membership.begin (s.settings tokenNetwork)
          (node.membership tokenNetwork) op
        { s with node := node.withMembership tokenNetwork m }.put id
          { t with program := .operate tokenNetwork phase }
      | .stopWatch task, _ =>
        ({ s with isStopping := true }.wake (.task task)).put id
          { t with program := .follow task }
      | .follow task, _ =>
        match s.results.get? task with
        | some r => s.put id { t with program := .ended r }
        | none => s.yield
      | _, .inSlot slot => s.tryGate id t slot
      | _, .counting stream left => s.count id t stream left
      | p, .idle => s.ask id t (p.wants s.node.config)

/-- One move of the clock. -/
def moveClock (s : Simulation) : Simulation :=
  match s.clock.move? with
  | none => s.yield
  | some (clock, woken) =>
    let s' := { s with clock := clock }.wakeAll woken
    -- The clock counts among the players, so its end ends the round as well.
    if clock.isRunning then s' else { s' with current? := none, turnsLeft := 0 }

/-- The number of those who take turns. -/
def players (s : Simulation) : Nat := s.tasks.size + if s.clock.isRunning then 1 else 0

/-- Can somebody still take a turn? -/
def isPlaying (s : Simulation) : Player → Bool
  | .clock => s.clock.isRunning
  | .task id => s.tasks.contains id

/-- A new round. The tasks that were started join it. -/
def newRound (s : Simulation) : Simulation :=
  { s with
    line := s.line ++ s.started.map .task
    started := []
    turnsLeft := s.players }

/-- One move of whoever has the turn, or the next turn or round. Nothing if
    nobody can go on. -/
def move? (s : Simulation) : Option Simulation :=
  match s.current? with
  | some .clock => some s.moveClock
  | some (.task id) =>
    match s.tasks.get? id with
    | none => some s.yield
    | some t => some (s.moveTask id t)
  | none =>
    match s.line with
    | [] => if s.started.isEmpty then none else some s.newRound
    | p :: rest =>
      -- Somebody who is through may still stand in the line.
      if !s.isPlaying p then some { s with line := rest }
      else if s.turnsLeft = 0 then some s.newRound
      else some { s with current? := some p, line := rest, turnsLeft := s.turnsLeft - 1 }

/-- At most `limit` moves. -/
def runFor : Nat → Simulation → Simulation
  | 0, s => s
  | limit + 1, s =>
    match s.move? with
    | none => s
    | some s' => runFor limit s'

/-- Moves until nobody can go on. -/
def run (s : Simulation) : Simulation := runFor 1000000 s

/-! ### Streams held outside -/

/-- What is seen on a stream that is held outside. -/
structure Sighting where
  label : Nat
  isTick : Bool
deriving DecidableEq

/-- Look once at some streams that are held outside. -/
def lookAt (s : Simulation) : List (Nat × Nat) → Simulation × List Sighting
  | [] => (s, [])
  | (label, stream) :: rest =>
    match s.clock.sight stream with
    | .tick =>
      let (s', seen) := (s.readTick stream).lookAt rest
      (s', ⟨label, true⟩ :: seen)
    | .ended =>
      let s₁ := { s with held := s.held.filter fun h => decide (h.1 ≠ label) }
      let (s', seen) := (s₁.dropStream stream).lookAt rest
      (s', ⟨label, false⟩ :: seen)
    | _ => s.lookAt rest

/-- Take everything out of the streams that are held outside, with at most
    `limit` looks at each of them. -/
def collectFor : Nat → Simulation → Simulation × List Sighting
  | 0, s => (s, [])
  | limit + 1, s =>
    match s.lookAt s.held with
    | (s', []) => (s', [])
    | (s', seen) =>
      let (s'', more) := collectFor limit s'.run
      (s'', seen ++ more)

/-- Take everything out of the streams that are held outside. -/
def collect (s : Simulation) : Simulation × List Sighting := collectFor 1000 s

end Simulation

end PaymentNetwork

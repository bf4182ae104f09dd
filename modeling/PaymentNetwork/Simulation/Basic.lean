import PaymentNetwork.Mailbox
import PaymentNetwork.Simulation.Clock
import PaymentNetwork.Simulation.Task
import PaymentNetwork.Simulation.Turnstile

/-!
# A Simulated Node

A node with everything around it: a ledger and a clock that are moved by hand,
the tasks that run, and what the node sent and reported.

Tasks take turns. A task that was woken waits in a line, and a turn lasts until
the task has to wait for something. Turns come in rounds: a round ends when a task
is over, when nobody is left in the line, or when as many turns were taken as
there are tasks. Tasks that were started join the line between rounds.

The ledger may be an instant one. Then its calls become visible in the view at once.

## Main definitions

* `Simulation`: The state of everything.
* `Simulation.spawn`, `Simulation.wake`: Start a task, and put one in the line.
* `Simulation.perform`: Do what the node asks for.
* `Simulation.exchange`: Ask the ledger.
* `Simulation.observe`: Tell the watchers of a height.
-/

namespace PaymentNetwork

/-- A stream of heights, which has room for one. -/
structure HeadStream where
  height? : Option Height
  /-- Can more heights come? -/
  isFed : Bool
  hasReader : Bool
deriving DecidableEq

/-- Who can take a turn. -/
inductive Player where
  | clock
  | task (id : Nat)
deriving DecidableEq

/-- A line of a log. -/
inductive LogLine where
  | warning (text : String)
  | error (text : String)
deriving DecidableEq

/-- A node with everything around it. -/
structure Simulation where
  node : Node
  ledger : MemoryLedger
  isInstant : Bool
  heads : List HeadStream
  clock : Clock
  /-- The streams of ticks that are held outside, with the label of the task
      that asked for them. -/
  held : List (Nat × Nat)
  monitor : Monitor Watcher
  /-- The registrations of scripted watchers, the last one first. -/
  registrations : List (String × Nat)
  visits : List (String × Height)
  logs : List LogLine
  /-- The task that watches the ledger. -/
  watch? : Option Nat
  /-- Can the watch be stopped from outside? -/
  hasStopper : Bool
  /-- Is the watch told to stop? -/
  isStopping : Bool
  gates : SortedMap Address Turnstile
  tasks : SortedMap Nat Task
  results : SortedMap Nat TaskResult
  taskCount : Nat
  /-- What came of the tasks that have labels. -/
  done : List (Nat × TaskResult)
  /-- Who takes a turn. -/
  current? : Option Player
  line : List Player
  started : List Nat
  turnsLeft : Nat
  post : Mailbox (Address × Message)
  reports : ReportBox
  random : List UInt8

namespace Simulation

/-- A node that was told nothing, with its surroundings. -/
def fresh (c : NodeConfig) (height : Height) : Simulation where
  node := .fresh c
  ledger := .fresh height
  isInstant := false
  heads := []
  clock := .fresh
  held := []
  monitor := .fresh
  registrations := []
  visits := []
  logs := []
  watch? := none
  hasStopper := false
  isStopping := false
  gates := .empty
  tasks := .empty
  results := .empty
  taskCount := 0
  done := []
  current? := none
  line := [.clock]
  started := []
  turnsLeft := 0
  post := .fresh 64
  reports := .fresh c.notifyBuffer.val
  random := []

instance : Inhabited Simulation := ⟨fresh default 0⟩

/-- The settings for a token network. -/
def settings (s : Simulation) (tokenNetwork : Address) : ConnectionSettings :=
  s.node.config.connectionSettings tokenNetwork

/-- Put somebody in the line. Nobody stands there twice. -/
def wake (s : Simulation) (p : Player) : Simulation :=
  if p ∈ s.line then s else { s with line := s.line ++ [p] }

/-- Put some tasks in the line. -/
def wakeAll (s : Simulation) (ids : List Nat) : Simulation :=
  ids.foldl (fun s id => s.wake (.task id)) s

/-- Start a task. -/
def spawn (s : Simulation) (program : Program) (label? : Option Nat) : Simulation :=
  { s with
    tasks := s.tasks.insert s.taskCount ⟨program, .idle, label?, false⟩
    taskCount := s.taskCount + 1
    started := s.started ++ [s.taskCount] }

/-- Start a task that may ask the clock for streams on its own account. If new
    tasks may not, it is over at once. -/
def spawnClient (s : Simulation) (program : Program) (refusal : TaskResult) (label : Nat) :
    Simulation :=
  if !s.clock.isOffered then s.spawn (.ended refusal) (some label)
  else
    { s with
      clock := { s.clock with clients := s.clock.clients + 1 }
      tasks := s.tasks.insert s.taskCount ⟨program, .idle, some label, true⟩
      taskCount := s.taskCount + 1
      started := s.started ++ [s.taskCount] }

/-- Do what the node asks for. -/
def perform (s : Simulation) : Duty → Simulation
  | .act (.send recipient m) => { s with post := s.post.offer (recipient, m) }
  | .act (.call c) => s.spawn (.submit c .readingHeight) none
  | .act (.report r) => { s with reports := s.reports.offer r }
  | .join tokenNetwork partner deposit =>
    s.spawn (.start tokenNetwork (.joinChannel partner deposit)) none
  | .retry tokenNetwork => s.spawn (.start tokenNetwork .retryConnect) none

/-- The simulation after a step of the node. -/
def follow (s : Simulation) (step : Node × List Duty) : Simulation :=
  step.2.foldl perform { s with node := step.1 }

/-! ### The ledger -/

/-- What a call that was carried out shows in the view, if the ledger is an
    instant one. A deposit into a channel that is not in view fails after all. -/
def reflect (s : Simulation) (r : LedgerRequest) (answer : LedgerAnswer) :
    Except LedgerError NetworkView :=
  let view := s.node.view
  match r, answer with
  | .openChannel tokenNetwork partner settleTimeout, .opened channelId =>
    .ok (view.apply (.channelOpened tokenNetwork channelId view.ourAddress partner settleTimeout
      10))
  | .deposit tokenNetwork channelId amount, _ =>
    -- The call itself was carried out, and is on record.
    match view.channel? channelId with
    | none => .error .channelNotFound
    | some c =>
      .ok (view.apply (.channelNewDeposit tokenNetwork channelId view.ourAddress
        (c.ours.contractBalance.satAdd amount) 11))
  | .closeChannel tokenNetwork channelId _, _ =>
    .ok (view.apply (.channelClosed tokenNetwork channelId view.ourAddress 12))
  | _, _ => .ok view

/-- Ask the ledger. -/
def exchange (s : Simulation) (r : LedgerRequest) :
    Except LedgerError LedgerAnswer × Simulation :=
  let (answer, ledger) := s.ledger.request r
  let s' := { s with ledger := ledger }
  match answer with
  | .error e => (.error e, s')
  | .ok a =>
    if s.isInstant then
      match s'.reflect r a with
      | .error e => (.error e, s')
      | .ok view => (.ok a, { s' with node := s'.node.setView view })
    else (.ok a, s')

/-! ### Heights -/

/-- What a scripted watcher asks for. -/
def ScriptLine.requests (line : ScriptLine) (registrations : List (String × Nat)) :
    List (MonitorRequest Watcher) :=
  ((line.remove?.bind fun name => List.lookup name registrations).map .remove).toList
    ++ (line.register?.map fun name => .register (.scripted name [])).toList

/-- What comes of telling a watcher of a height. -/
def react (s : Simulation) (w : Watcher) (height : Height) (nextId : Nat) :
    Reaction Simulation Watcher :=
  match w with
  | .node => ⟨s.follow (s.node.advance height), .node, [], false⟩
  | .scripted name script =>
    let s' := { s with visits := s.visits ++ [(name, height)] }
    match script with
    | [] => ⟨s', w, [], false⟩
    -- A removal is looked up before the registration of the same line counts.
    | line :: rest =>
      let added := (line.register?.map fun name => (name, nextId)).toList
      ⟨{ s' with registrations := added ++ s.registrations }, .scripted name rest,
        ScriptLine.requests line s.registrations, line.fails⟩

/-- Tell the watchers of a height. -/
def observe (s : Simulation) (height : Height) : Simulation :=
  let (monitor, s', warning?) := s.monitor.observe react s height
  { s' with
    monitor := monitor
    logs := s'.logs ++ (warning?.map fun w => .warning w.message).toList }

/-- Register a scripted watcher. -/
def register (s : Simulation) (name : String) (script : List ScriptLine) : Simulation :=
  { s with
    registrations := (name, s.monitor.nextId) :: s.registrations
    monitor := s.monitor.register (.scripted name script) }

/-- Remove the watcher that was registered last by a name. -/
def remove (s : Simulation) (name : String) : Simulation :=
  match List.lookup name s.registrations with
  | none => s
  | some id => { s with monitor := s.monitor.remove id }

/-- Change a stream of heights. -/
def changeHeads (s : Simulation) (stream : Nat) (f : HeadStream → HeadStream) : Simulation :=
  { s with heads := s.heads.modify stream f }

/-- What came up while watching. -/
def note (s : Simulation) : WatchEvent → Simulation
  | .height h => s.observe h
  | e =>
    let text := (e.message? s.node.config.chainBackoffTicks).getD ""
    { s with logs := s.logs ++ [if e = .clockStopped then .error text else .warning text] }

end Simulation

end PaymentNetwork

import PaymentNetwork.Proofs.Connection.Stints
import PaymentNetwork.Proofs.Simulation.Acts

/-!
# The Waits of a Task

What one task waits for in a simulation, one wait after the other, and how each wait ends.

The tasks that matter to a node are machines: operations on a membership, and calls to the
ledger. All that such a task does is determined by the ends of its waits and by what it finds
then. So its journal lists them, with the number of ticks that it took out of its stream during
each wait and with everything as it is at the end. The journal is kept by looking at the moves
of a run; nothing in the run depends on it.

A wait for ticks is the only one whose end is not one answer. The task asks for a stream, takes
its ticks out of it one at a time, and is content when it has as many as it wanted. If the clock
ends while it reads, the stream ends, and the task is content as well; if the clock ends before
the stream is opened, or ended before it was asked for one, the task learns that there is no
clock. So a wait is only cut short by the end of the clock, and a clock that ended can cut short
one wait of a task at most: the next one does not even begin.

## Main definitions

* `Clock.look`: What a task does when it looks at its stream.
* `Simulation.ending?`, `Simulation.Ends`: How a move of a task ends its wait, if it does.
* `Simulation.Wait`, `Simulation.journal`: A wait that ended, and all of them.
* `Simulation.Wait.Follows`: A wait is one that a program can have after some others.
* `Simulation.Course`: A list of waits leads from a program to another one.
* `Simulation.Standing`: What is known of a task and its journal.

## Theorems

* `Simulation.moveTask_of_ending?`: What the end of a wait comes to.
* `Simulation.moveTask_of_not_ending?`: What else a move of a machine can be.
* `Simulation.standing_through`: The journal of a machine is a course, whatever happens.
* `Simulation.Standing.asks`, `Simulation.Standing.turn`: What a machine does in its turn.
-/

namespace PaymentNetwork

/-! ### Machines -/

/-- Where an operation starts. -/
def Operation.start : Operation → Phase
  | connect policy =>
    if policy.isValid then .queued (.connect policy) else .ended (.failed .invalidArgument)
  | openAndDeposit partner funding => .opening partner funding .single
  | op => .queued op

theorem Membership.begin_snd (s : ConnectionSettings) (m : Membership) (op : Operation) :
    (begin s m op).2 = op.start := by
  cases op with
  | connect policy =>
      unfold begin Operation.start
      dsimp only
      split <;> rfl
  | _ => rfl

namespace Program

/-- Is it an operation or a call to the ledger? -/
def isMachine : Program → Bool
  | operate .. => true
  | submit .. => true
  | _ => false

theorem isMachine_cases {p : Program} (h : p.isMachine = true) :
    (∃ tokenNetwork phase, p = operate tokenNetwork phase) ∨ ∃ call s, p = submit call s := by
  cases p with
  | operate tokenNetwork phase => exact Or.inl ⟨tokenNetwork, phase, rfl⟩
  | submit call s => exact Or.inr ⟨call, s, rfl⟩
  | _ => cases h

/-- The program when it has begun. -/
def begun : Program → Program
  | start tokenNetwork op => operate tokenNetwork op.start
  | p => p

theorem begun_of_isMachine {p : Program} (h : p.isMachine = true) : p.begun = p := by
  rcases isMachine_cases h with ⟨tokenNetwork, phase, rfl⟩ | ⟨call, s, rfl⟩ <;> rfl

/-- What becomes a machine when it begins is an operation. -/
theorem eq_start {p : Program} (h : p.isMachine = false) (hbegun : p.begun.isMachine = true) :
    ∃ tokenNetwork op, p = start tokenNetwork op := by
  cases p with
  | start tokenNetwork op => exact ⟨tokenNetwork, op, rfl⟩
  | operate tokenNetwork phase => cases h
  | submit call s => cases h
  | _ => cases hbegun

/-- A machine waits for something until it is over. -/
theorem result?_eq_none_iff {c : NodeConfig} {p : Program} (h : p.isMachine = true) :
    p.result? = none ↔ p.wants c ≠ .nothing := by
  rcases isMachine_cases h with ⟨tokenNetwork, phase, rfl⟩ | ⟨call, s, rfl⟩
  · cases phase <;> simp [result?, wants, Phase.wants]
  · cases s <;> simp [result?, wants, Submission.wants]

/-- Only operations want the policy. -/
theorem of_wants_policy {c : NodeConfig} {p : Program} (h : p.wants c = .policy) :
    ∃ tokenNetwork phase, p = operate tokenNetwork phase := by
  cases p with
  | operate tokenNetwork phase => exact ⟨tokenNetwork, phase, rfl⟩
  | submit call s => cases s <;> cases h
  | watch w => cases w <;> cases h
  | _ => cases h

theorem wants_ne_head {c : NodeConfig} {p : Program} (h : p.isMachine = true) (stream : Nat) :
    p.wants c ≠ .head stream := by
  rcases isMachine_cases h with ⟨tokenNetwork, phase, rfl⟩ | ⟨call, s, rfl⟩
  · cases phase <;> nofun
  · cases s <;> nofun

end Program

/-! ### Looking at a stream of ticks -/

/-- What a task does when it looks at its stream. -/
inductive Look where
  | waits
  | takes
  /-- It does not wait any longer, since the ticks passed or since there is no clock. -/
  | ends (ok : Bool)
deriving DecidableEq

namespace Clock

/-- What a task does that sees a stream which the clock opened. -/
def lookInside (c : Clock) (stream left : Nat) : Look :=
  if left = 0 then .ends true
  else match c.sight stream with
    | .tick => .takes
    | .ended => .ends true
    | _ => .waits

/-- What a task does when it looks at its stream while some ticks are left to wait for. -/
def look (c : Clock) (stream left : Nat) : Look :=
  match c.streams.get? stream with
  | some ⟨.requested, _, _⟩ => if c.isRunning then .waits else .ends false
  | _ => c.lookInside stream left

variable {c : Clock} {task stream left : Nat}

theorem Reads.sight_eq_ended (h : c.Reads task stream) (hended : c.sight stream = .ended) :
    c.isRunning = false := by
  obtain ⟨r, hr, -, hopen⟩ := h
  unfold sight at hended
  rw [hr] at hended
  dsimp only at hended
  split at hended
  · cases hended
  · split at hended
    · rename_i hstopped
      -- A stream that its reader did not drop looks ended only if the clock is.
      simpa [hopen] using hstopped
    · split at hended <;> cases hended

/-- Ticks are missing at the end of a wait only if the clock ended. -/
theorem Reads.look_ends (h : c.Reads task stream) {ok : Bool}
    (hlook : c.look stream left = .ends ok) :
    c.isRunning = false ∨ ok = true ∧ left = 0 := by
  unfold look at hlook
  split at hlook
  · split at hlook
    · cases hlook
    · rename_i hstopped
      exact Or.inl (by simpa using hstopped)
  · unfold lookInside at hlook
    split at hlook
    · rename_i hleft
      cases hlook
      exact Or.inr ⟨rfl, hleft⟩
    · split at hlook
      · cases hlook
      · rename_i hended
        exact Or.inl (h.sight_eq_ended hended)
      · cases hlook

theorem look_takes (hlook : c.look stream left = .takes) : 0 < left := by
  unfold look at hlook
  split at hlook
  · split at hlook <;> cases hlook
  · unfold lookInside at hlook
    split at hlook
    · cases hlook
    · rename_i hleft
      exact Nat.pos_of_ne_zero hleft

theorem sight_of_stopped (h : c.isRunning = false) (stream : Nat) :
    c.sight stream = .tick ∨ c.sight stream = .ended := by
  unfold sight
  split
  · exact Or.inr rfl
  · split
    · exact Or.inl rfl
    · exact Or.inr (if_pos (by simp [h]))

/-- A task only waits for a clock that runs. -/
theorem look_waits (hlook : c.look stream left = .waits) : c.isRunning = true := by
  unfold look at hlook
  split at hlook
  · split at hlook
    · rename_i hrunning
      exact hrunning
    · cases hlook
  · unfold lookInside at hlook
    split at hlook
    · cases hlook
    · split at hlook
      · cases hlook
      · cases hlook
      · rename_i htick hended
        -- After the end of the clock a stream shows its last tick or that it ended. Neither is
        -- waited for.
        by_contra hstopped
        rcases sight_of_stopped (by simpa using hstopped) stream with hsight | hsight
        · exact htick hsight
        · exact hended hsight

end Clock

/-! ### The end of a wait -/

namespace Simulation

/-- How the next move of a task ends its wait, if it does: the simulation at this moment, and
    what the task is told. This is for operations and calls. -/
def ending? (s : Simulation) (t : Task) : Option (Simulation × Wake) :=
  match t.stage with
  | .idle =>
    match t.program.wants s.node.config, t.program with
    | .policy, .operate tokenNetwork _ =>
      if (s.gate tokenNetwork).isTaken then none
      else some (s.setGate tokenNetwork (s.gate tokenNetwork).take, .granted)
    | .ledger r, _ => some ((s.exchange r).2, .answered (s.exchange r).1)
    | .ticks _, _ => if s.clock.isRunning then none else some (s, .ticked false)
    | _, _ => none
  | .inSlot slot =>
    match t.program with
    | .operate tokenNetwork _ =>
      if (s.gate tokenNetwork).isTaken then none
      else some (s.setGate tokenNetwork ((s.gate tokenNetwork).leave slot).take, .granted)
    | _ => none
  | .counting stream left =>
    match s.clock.look stream left with
    | .ends true => some (s.dropStream stream, .ticked true)
    | .ends false => some (s, .ticked false)
    | _ => none

/-- What a look of a task at its stream comes to. -/
def obey (s : Simulation) (id : Nat) (t : Task) (stream left : Nat) : Look → Simulation
  | .waits => s.park id t
  | .takes => (s.readTick stream).put id { t with stage := .counting stream (left - 1) }
  | .ends true => (s.dropStream stream).proceed id t (.ticked true)
  | .ends false => s.proceed id t (.ticked false)

/-- Does the next move of a task take a tick? -/
def takesTick (s : Simulation) (t : Task) : Bool :=
  match t.stage with
  | .counting stream left => decide (s.clock.look stream left = .takes)
  | _ => false

/-- What is known of the stage of a task that waits for something, when it took some ticks out of
    its stream already. -/
def Fits (want : Want) (ticks : Nat) : Stage → Prop
  | .idle => ticks = 0
  | .inSlot _ => want = .policy ∧ ticks = 0
  | .counting _ left => ∃ n, want = .ticks n ∧ ticks + left = n.val

section Moves

variable {s s' : Simulation} {id : Nat} {t : Task} {w : Wake}

/-- Only the watch is told to stop. -/
theorem mustStop_of_begun (h : t.program.begun.isMachine = true) : s.mustStop t = false := by
  obtain ⟨program, stage, label?, isClient⟩ := t
  cases program with
  | start tokenNetwork op => exact Bool.and_false _
  | operate tokenNetwork phase => exact Bool.and_false _
  | submit call state => exact Bool.and_false _
  | _ => cases h

theorem mustStop_of_isMachine (h : t.program.isMachine = true) : s.mustStop t = false :=
  mustStop_of_begun (by rwa [Program.begun_of_isMachine h])

/-- A machine that is not over asks for what it waits for, or it looks after it. -/
theorem moveTask_of_isMachine (h : t.program.isMachine = true)
    (hresult : t.program.result? = none) : s.moveTask id t = match t.stage with
      | .inSlot slot => s.tryGate id t slot
      | .counting stream left => s.count id t stream left
      | .idle => s.ask id t (t.program.wants s.node.config) := by
  unfold moveTask
  rw [mustStop_of_isMachine h, if_neg Bool.false_ne_true, hresult]
  obtain ⟨program, stage, label?, isClient⟩ := t
  rcases Program.isMachine_cases h with ⟨tokenNetwork, phase, rfl⟩ | ⟨call, state, rfl⟩ <;>
    cases stage <;> rfl

/-- A machine counts ticks as its looks tell it. -/
theorem count_of_isMachine (h : t.program.isMachine = true) (stream left : Nat) :
    s.count id t stream left = s.obey id t stream left (s.clock.look stream left) := by
  -- What only asks for a stream is no machine, and its branches do not arise.
  have hne : t.program ≠ .askForStream := by
    intro hprogram
    rw [hprogram] at h
    cases h
  have hopened : s.streamOpened id t stream left
      = s.obey id t stream left (s.clock.lookInside stream left) := by
    unfold streamOpened Clock.lookInside
    split
    · rename_i hprogram
      exact absurd hprogram hne
    · split
      · rfl
      · cases s.clock.sight stream <;> rfl
  unfold count Clock.look
  cases hstream : s.clock.streams.get? stream with
  | none => exact hopened
  | some r =>
      obtain ⟨status, reader?, isFull⟩ := r
      cases status with
      | requested =>
          dsimp only
          split
          · rfl
          · split
            · rename_i hprogram
              exact absurd hprogram hne
            · rfl
      | _ => exact hopened

/-- The ways in which a wait can end. -/
inductive Ends (s : Simulation) (t : Task) : Simulation → Wake → Prop where
  /-- The policy was free. -/
  | free {tokenNetwork : Address} {phase : Phase} : t.stage = .idle →
      t.program.wants s.node.config = .policy → t.program = .operate tokenNetwork phase →
      ¬ (s.gate tokenNetwork).isTaken →
      Ends s t (s.setGate tokenNetwork (s.gate tokenNetwork).take) .granted
  /-- The policy is free now. -/
  | freed {slot : Nat} {tokenNetwork : Address} {phase : Phase} : t.stage = .inSlot slot →
      t.program = .operate tokenNetwork phase → ¬ (s.gate tokenNetwork).isTaken →
      Ends s t (s.setGate tokenNetwork ((s.gate tokenNetwork).leave slot).take) .granted
  | ledger {r : LedgerRequest} : t.stage = .idle → t.program.wants s.node.config = .ledger r →
      Ends s t (s.exchange r).2 (.answered (s.exchange r).1)
  /-- The clock had ended before the task asked for a stream. -/
  | clockless {n : Count} : t.stage = .idle → t.program.wants s.node.config = .ticks n →
      s.clock.isRunning = false → Ends s t s (.ticked false)
  /-- The ticks passed, or the stream was never opened. -/
  | counted {stream left : Nat} {ok : Bool} : t.stage = .counting stream left →
      s.clock.look stream left = .ends ok →
      Ends s t (if ok then s.dropStream stream else s) (.ticked ok)

theorem ends_of_ending? (hending : s.ending? t = some (s', w)) : s.Ends t s' w := by
  unfold ending? at hending
  split at hending
  · rename_i hidle
    split at hending
    · rename_i tokenNetwork phase hwants hprogram
      split at hending
      · cases hending
      · rename_i hfree
        cases hending
        exact .free hidle hwants hprogram hfree
    · rename_i r hwants
      cases hending
      exact .ledger hidle hwants
    · rename_i n hwants
      split at hending
      · cases hending
      · rename_i hstopped
        cases hending
        exact .clockless hidle hwants (by simpa using hstopped)
    · cases hending
  · rename_i slot hslot
    split at hending
    · rename_i tokenNetwork phase hprogram
      split at hending
      · cases hending
      · rename_i hfree
        cases hending
        exact .freed hslot hprogram hfree
    · cases hending
  · rename_i stream left hcounting
    split at hending
    · rename_i hlook
      cases hending
      exact @Ends.counted s t _ _ true hcounting hlook
    · rename_i hlook
      cases hending
      exact @Ends.counted s t _ _ false hcounting hlook
    · cases hending

/-- A task whose wait ends goes on with the answer. -/
theorem moveTask_of_ending? (h : t.program.isMachine = true) (hresult : t.program.result? = none)
    (hending : s.ending? t = some (s', w)) : s.moveTask id t = s'.proceed id t w := by
  rw [moveTask_of_isMachine h hresult]
  cases ends_of_ending? hending with
  | free hidle hwants hprogram hfree =>
      rw [hidle, hwants, ask, hprogram]
      exact if_neg hfree
  | freed hslot hprogram hfree =>
      rw [hslot]
      dsimp only
      rw [tryGate, hprogram]
      exact if_neg hfree
  | ledger hidle hwants =>
      rw [hidle, hwants]
      rfl
  | clockless hidle hwants hstopped =>
      -- There is no stream to be had, and the task is told so at once.
      have hask : s.clock.ask id = none := if_neg (by simp [hstopped])
      rw [hidle, hwants]
      dsimp only
      rw [ask, hask]
      split
      · rename_i hprogram
        rw [hprogram] at h
        cases h
      · rfl
      · rename_i hsome
        cases hsome
  | @counted stream left ok hcounting hlook =>
      rw [hcounting]
      dsimp only
      rw [count_of_isMachine h, hlook]
      cases ok <;> rfl

/-- A wait ends with what fits it, and ticks are missing only if the clock ended. -/
theorem Sound.ending?_fits (h : s.Sound) (ht : s.tasks.get? id = some t)
    (hmachine : t.program.isMachine = true) {ticks : Nat}
    (hfits : Fits (t.program.wants s.node.config) ticks t.stage)
    (hending : s.ending? t = some (s', w)) :
    (t.program.wants s.node.config).isEndedBy w = true ∧
      ∀ n, t.program.wants s.node.config = .ticks n → ticks ≤ n.val ∧
        (s.clock.isRunning = true → w = .ticked true ∧ ticks = n.val) := by
  cases ends_of_ending? hending with
  | free _ hwants =>
      rw [hwants]
      exact ⟨rfl, nofun⟩
  | freed hslot =>
      rw [hslot] at hfits
      rw [hfits.1]
      exact ⟨rfl, nofun⟩
  | ledger _ hwants =>
      rw [hwants]
      exact ⟨rfl, nofun⟩
  | clockless hidle hwants hstopped =>
      rw [hidle] at hfits
      rw [hwants]
      refine ⟨rfl, fun n _ => ⟨?_, fun hrunning => ?_⟩⟩
      · rw [show ticks = 0 from hfits]
        exact Nat.zero_le _
      · rw [hstopped] at hrunning
        cases hrunning
  | @counted stream left ok hcounting hlook =>
      rw [hcounting] at hfits
      obtain ⟨n, hwants, hticks⟩ := hfits
      -- This is the only wait that can end with ticks missing. The stream that is read tells why.
      have hreads : s.clock.Reads id stream := by
        refine h.reads id t stream ht ⟨⟨left, hcounting⟩, fun r hr => ?_⟩
        rw [hr] at hmachine
        cases hmachine
      rw [hwants]
      refine ⟨rfl, fun n' hn => ?_⟩
      cases hn
      refine ⟨Nat.le.intro hticks, fun hrunning => ?_⟩
      rcases hreads.look_ends hlook with hstopped | ⟨rfl, rfl⟩
      · rw [hstopped] at hrunning
        cases hrunning
      · exact ⟨rfl, hticks⟩

theorem ledger_wake (s : Simulation) (p : Player) : (s.wake p).ledger = s.ledger := by
  unfold wake
  split <;> rfl

theorem ledger_wakeAll (s : Simulation) (ids : List Nat) : (s.wakeAll ids).ledger = s.ledger := by
  induction ids generalizing s with
  | nil => rfl
  | cons id rest ih => exact (ih _).trans (s.ledger_wake _)

theorem ledger_nudge (s : Simulation) (stream : Nat) : (s.nudge stream).ledger = s.ledger := by
  unfold nudge
  split
  · exact s.ledger_wake .clock
  · rfl

/-- The end of a wait does not touch the settings, nor whether the clock runs, and the ledger only
    if it was asked. -/
theorem keeps_of_ending? (hending : s.ending? t = some (s', w)) :
    s'.node.config = s.node.config ∧ s'.clock.isRunning = s.clock.isRunning ∧
      (s'.ledger = s.ledger ∨ ∃ r, t.program.wants s.node.config = .ledger r ∧
        w = .answered (s.exchange r).1 ∧ s'.ledger = (s.exchange r).2.ledger) := by
  cases ends_of_ending? hending with
  | free => exact ⟨rfl, rfl, Or.inl rfl⟩
  | freed => exact ⟨rfl, rfl, Or.inl rfl⟩
  | @ledger r _ hwants =>
      have hsame := sameTasks_exchange s r
      exact ⟨hsame.config, congrArg Clock.isRunning hsame.clock, Or.inr ⟨r, hwants, rfl, rfl⟩⟩
  | clockless => exact ⟨rfl, rfl, Or.inl rfl⟩
  | @counted stream left ok =>
      cases ok with
      | false => exact ⟨rfl, rfl, Or.inl rfl⟩
      | true =>
          have hnudged := sameTasks_nudge { s with clock := s.clock.drop stream } stream
          have hclock : (s.dropStream stream).clock = s.clock.drop stream := hnudged.clock
          refine ⟨hnudged.config, ?_, Or.inl (ledger_nudge _ stream)⟩
          rw [if_pos rfl, hclock]
          rfl

/-- Ticks are only told to have passed to a task that reads a stream. -/
theorem counts_of_ending? (hending : s.ending? t = some (s', .ticked true)) :
    ∃ stream left, t.stage = .counting stream left := by
  generalize hw : Wake.ticked true = w at hending
  cases ends_of_ending? hending with
  | counted hcounting => exact ⟨_, _, hcounting⟩
  | _ => cases hw

/-- A task in its turn cannot go on: others have the policy, or its ticks did not come yet. -/
def Delays (s : Simulation) (t : Task) : Prop :=
  (t.program.wants s.node.config = .policy ∧
    ∃ tokenNetwork phase, t.program = .operate tokenNetwork phase ∧
      (s.gate tokenNetwork).isTaken = true) ∨
  ((∃ n, t.program.wants s.node.config = .ticks n) ∧ s.clock.isRunning = true ∧
    ∀ stream left, t.stage = .counting stream left → s.clock.look stream left = .waits)

/-- What a move of a machine comes to that does not end its wait: it changes the stage at most. -/
structure Stays (s s' : Simulation) (id : Nat) (t : Task) (ticks : Nat) (stage : Stage) :
    Prop where
  task : s'.tasks.get? id = some { t with stage := stage }
  fits : Fits (t.program.wants s.node.config) (ticks + (s.takesTick t).toNat) stage
  /-- It begins to count only if the clock runs. -/
  counts : ∀ stream left, stage = .counting stream left →
    s.clock.isRunning = true ∨ ∃ stream left, t.stage = .counting stream left
  /-- It takes a tick, or it has to wait. -/
  delays : s.takesTick t = true ∨ s.Delays t
  ledger : s'.ledger = s.ledger

/-- What is asked for is not there: the policy is taken, or the ticks are to come. -/
theorem stays_ask (hmachine : t.program.isMachine = true) (hresult : t.program.result? = none)
    (hidle : t.stage = .idle) (hending : s.ending? t = none) :
    ∃ stage, s.Stays (s.ask id t (t.program.wants s.node.config)) id t 0 stage := by
  have htakes : s.takesTick t = false := by rw [takesTick, hidle]
  rw [ending?, hidle] at hending
  dsimp only at hending
  cases hwants : t.program.wants s.node.config with
  | policy =>
      obtain ⟨tokenNetwork, phase, hprogram⟩ := Program.of_wants_policy hwants
      rw [hwants, hprogram] at hending
      -- A free policy would have ended the wait.
      have htaken : (s.gate tokenNetwork).isTaken = true := by
        by_contra hfree
        cases (if_neg hfree).symm.trans hending
      have hask : s.ask id t .policy
          = (s.setGate tokenNetwork ((s.gate tokenNetwork).wait id).2).park id
            { t with stage := .inSlot ((s.gate tokenNetwork).wait id).1 } := by
        rw [ask, hprogram]
        exact if_pos htaken
      rw [hask]
      refine ⟨.inSlot ((s.gate tokenNetwork).wait id).1, SortedMap.get?_insert_self .., ?_, nofun,
        Or.inr (Or.inl ⟨hwants, tokenNetwork, phase, hprogram, htaken⟩), rfl⟩
      rw [htakes]
      exact ⟨hwants, rfl⟩
  | ledger r =>
      rw [hwants] at hending
      cases hending
  | ticks n =>
      rw [hwants] at hending
      -- And so would the end of the clock.
      have hrunning : s.clock.isRunning = true := by
        by_contra hstopped
        cases (if_neg hstopped).symm.trans hending
      have hdelays : s.Delays t := by
        refine Or.inr ⟨⟨n, hwants⟩, hrunning, fun stream left hcounting => ?_⟩
        rw [hidle] at hcounting
        cases hcounting
      rw [ask, Clock.ask, if_pos hrunning]
      refine ⟨_, SortedMap.get?_insert_self .., ?_, fun _ _ _ => Or.inl hrunning,
        Or.inr hdelays, ledger_wake _ _⟩
      rw [htakes]
      exact ⟨n, hwants, Nat.zero_add _⟩
  | head stream => exact absurd hwants (Program.wants_ne_head hmachine stream)
  | nothing => exact absurd hwants ((Program.result?_eq_none_iff hmachine).mp hresult)

/-- The policy is still taken. -/
theorem stays_tryGate (ht : s.tasks.get? id = some t) {slot ticks : Nat}
    (hstage : t.stage = .inSlot slot)
    (hfits : Fits (t.program.wants s.node.config) ticks t.stage) (hending : s.ending? t = none) :
    s.Stays (s.tryGate id t slot) id t ticks (.inSlot slot) := by
  have htakes : s.takesTick t = false := by rw [takesTick, hstage]
  rw [hstage] at hfits
  obtain ⟨hwants, hzero⟩ := hfits
  obtain ⟨tokenNetwork, phase, hprogram⟩ := Program.of_wants_policy hwants
  rw [ending?, hstage, hprogram] at hending
  have htaken : (s.gate tokenNetwork).isTaken = true := by
    by_contra hfree
    cases (if_neg hfree).symm.trans hending
  have htry : s.tryGate id t slot
      = (s.setGate tokenNetwork ((s.gate tokenNetwork).stay slot id)).yield := by
    rw [tryGate, hprogram]
    exact if_pos htaken
  rw [htry]
  refine ⟨?_, by rw [htakes]; exact ⟨hwants, hzero⟩, nofun,
    Or.inr (Or.inl ⟨hwants, tokenNetwork, phase, hprogram, htaken⟩), rfl⟩
  rw [← hstage]
  exact ht

/-- A tick is taken, or none came. -/
theorem stays_count (hmachine : t.program.isMachine = true) {stream left ticks : Nat}
    (hstage : t.stage = .counting stream left)
    (hfits : Fits (t.program.wants s.node.config) ticks t.stage) (hending : s.ending? t = none) :
    ∃ stage, s.Stays (s.count id t stream left) id t ticks stage := by
  rw [hstage] at hfits
  obtain ⟨n, hwants, hticks⟩ := hfits
  rw [ending?, hstage] at hending
  dsimp only at hending
  rw [count_of_isMachine hmachine]
  have htakes : s.takesTick t = decide (s.clock.look stream left = .takes) := by
    rw [takesTick, hstage]
  cases hlook : s.clock.look stream left with
  | ends ok =>
      rw [hlook] at hending
      cases ok <;> cases hending
  | waits =>
      rw [hlook] at htakes
      have hdelays : s.Delays t := by
        refine Or.inr ⟨⟨n, hwants⟩, Clock.look_waits hlook, fun stream' left' hcounting => ?_⟩
        rw [hstage] at hcounting
        cases hcounting
        exact hlook
      refine ⟨.counting stream left, ?_, by rw [htakes]; exact ⟨n, hwants, hticks⟩,
        fun _ _ _ => Or.inr ⟨stream, left, hstage⟩, Or.inr hdelays, rfl⟩
      rw [← hstage]
      exact SortedMap.get?_insert_self ..
  | takes =>
      rw [hlook] at htakes
      have hleft := Clock.look_takes hlook
      -- One tick more is behind the task, and one less is left.
      refine ⟨_, SortedMap.get?_insert_self .., ?_, fun _ _ _ => Or.inr ⟨stream, left, hstage⟩,
        Or.inl htakes, ledger_nudge _ stream⟩
      rw [htakes]
      exact ⟨n, hwants, show ticks + 1 + (left - 1) = n.val by omega⟩

/-- A machine whose wait does not end stays in it. -/
theorem moveTask_of_not_ending? (ht : s.tasks.get? id = some t)
    (hmachine : t.program.isMachine = true) (hresult : t.program.result? = none) {ticks : Nat}
    (hfits : Fits (t.program.wants s.node.config) ticks t.stage) (hending : s.ending? t = none) :
    ∃ stage, s.Stays (s.moveTask id t) id t ticks stage := by
  rw [moveTask_of_isMachine hmachine hresult]
  cases hstage : t.stage with
  | idle =>
      rw [hstage] at hfits
      rw [show ticks = 0 from hfits]
      exact stays_ask hmachine hresult hstage hending
  | inSlot slot => exact ⟨_, stays_tryGate ht hstage hfits hending⟩
  | counting stream left => exact stays_count hmachine hstage hfits hending

end Moves

/-! ### The journal of a task -/

/-- A wait that ended. -/
structure Wait where
  want : Want
  wake : Wake
  /-- The ticks that the task took meanwhile. -/
  ticks : Nat
  /-- Everything as it was when the wait ended. -/
  state : Simulation

/-- What is written down about a task. -/
structure Journal where
  waits : List Wait
  /-- The ticks that it took in the wait that goes on. -/
  ticks : Nat

/-- The journal after a move of the task. -/
def Journal.write (j : Journal) (s : Simulation) (t : Task) : Journal :=
  match s.ending? t with
  | some (s', w) => ⟨j.waits ++ [⟨t.program.wants s.node.config, w, j.ticks, s'⟩], 0⟩
  | none => ⟨j.waits, j.ticks + (s.takesTick t).toNat⟩

/-- An act, with the journal of a task. -/
def record (id : Nat) (x : Simulation × Journal) (a : Act) : Simulation × Journal :=
  (x.1.after a, (x.1.mover? id a).elim x.2 (x.2.write x.1))

/-- The journal of a task over some acts. -/
def journal (s : Simulation) (id : Nat) (acts : List Act) : Journal :=
  (acts.foldl (record id) (s, ⟨[], 0⟩)).2

/-- What a task comes to, once this is settled. -/
def outcome? (s : Simulation) (id : Nat) : Option TaskResult :=
  match s.tasks.get? id with
  | some t => t.program.begun.result?
  | none => s.results.get? id

/-- A wait is one that a program can have after some others. -/
structure Wait.Follows (c : NodeConfig) (before : List Wait) (p : Program) (w : Wait) :
    Prop where
  config : w.state.node.config = c
  want : w.want = p.wants c
  ends : w.want.isEndedBy w.wake = true
  /-- As long as the clock runs, all the ticks pass. -/
  ticks : ∀ n, w.want = .ticks n → w.ticks ≤ n.val ∧
    (w.state.clock.isRunning = true → w.wake = .ticked true ∧ w.ticks = n.val)
  /-- After a clock that ended no ticks pass. -/
  stopped : ∀ v ∈ before, v.state.clock.isRunning = false →
    w.state.clock.isRunning = false ∧ w.wake ≠ .ticked true

/-- Some waits lead from a program to another one. -/
inductive Course (c : NodeConfig) (first : Program) : List Wait → Program → Prop where
  | start : Course c first [] first
  | wait {before : List Wait} {p : Program} {w : Wait} : Course c first before p →
    w.Follows c before p → Course c first (before ++ [w]) (w.state.resume p w.wake).2

/-- Where a task stands in its program, with some ticks of the wait behind it. -/
def Stands (s : Simulation) (id : Nat) (p : Program) (ticks : Nat) : Prop :=
  (∃ t, s.tasks.get? id = some t ∧ t.program.begun = p ∧
    Fits (t.program.wants s.node.config) ticks t.stage) ∨
  (s.tasks.get? id = none ∧ p.result?.isSome = true ∧ s.results.get? id = p.result?)

/-- What is known of a task and its journal. -/
structure Standing (c : NodeConfig) (id : Nat) (first : Program) (s : Simulation) (j : Journal) :
    Prop where
  sound : s.Sound
  config : s.node.config = c
  known : id < s.taskCount
  place : ∃ p, p.isMachine = true ∧ Course c first j.waits p ∧ s.Stands id p j.ticks
  /-- If the clock ended during a wait, the task did not ask for a stream since. -/
  stopped : ∀ v ∈ j.waits, v.state.clock.isRunning = false → s.clock.isRunning = false ∧
    ∀ t stream left, s.tasks.get? id = some t → t.stage ≠ .counting stream left

section Journals

variable {c : NodeConfig} {id : Nat} {first p : Program} {s : Simulation} {j : Journal} {t : Task}

theorem record_fold (s : Simulation) (id : Nat) (acts : List Act) :
    acts.foldl (record id) (s, ⟨[], 0⟩) = (s.through acts, s.journal id acts) := by
  induction acts using List.reverseRecOn with
  | nil => rfl
  | append_singleton acts a ih =>
      rw [journal, through_append_singleton, List.foldl_append, ih]
      rfl

theorem journal_append_singleton (s : Simulation) (id : Nat) (acts : List Act) (a : Act) :
    s.journal id (acts ++ [a]) = ((s.through acts).mover? id a).elim (s.journal id acts)
      ((s.journal id acts).write (s.through acts)) := by
  rw [journal, List.foldl_append, record_fold]
  rfl

theorem Stands.outcome?_eq {ticks : Nat} (h : s.Stands id p ticks) :
    s.outcome? id = p.result? := by
  unfold outcome?
  rcases h with ⟨t, ht, rfl, -⟩ | ⟨hnone, -, hresults⟩
  · rw [ht]
  · rw [hnone]
    exact hresults

/-- The program that follows a wait of a machine is a machine. -/
theorem isMachine_resume (h : p.isMachine = true) (s : Simulation) (w : Wake) :
    (s.resume p w).2.isMachine = true := by
  rcases Program.isMachine_cases h with ⟨tokenNetwork, phase, rfl⟩ | ⟨call, state, rfl⟩ <;> rfl

/-- A task that is over leaves its result behind. -/
theorem get?_finish (s : Simulation) (id : Nat) (t : Task) (r : TaskResult) :
    (s.finish id t r).tasks.get? id = none ∧ (s.finish id t r).results.get? id = some r ∧
      (s.finish id t r).ledger = s.ledger := by
  have hover : ∀ s' : Simulation, s'.tasks = s.tasks.erase id →
      s'.results = s.results.insert id r → s'.ledger = s.ledger →
      s'.tasks.get? id = none ∧ s'.results.get? id = some r ∧ s'.ledger = s.ledger := by
    intro s' htasks hresults hledger
    rw [htasks, hresults]
    exact ⟨by simp, SortedMap.get?_insert_self .., hledger⟩
  -- Waking the followers moves no task and no result.
  have hwoken := sameTasks_wakeAll { s with
    tasks := s.tasks.erase id
    results := s.results.insert id r
    done := s.done ++ (t.label?.map fun label => (label, r)).toList
    current? := none
    turnsLeft := 0 } (s.followers id)
  unfold finish
  dsimp only
  split
  · exact hover _ ((sameTasks_wake _ .clock).tasks.trans hwoken.tasks)
      ((sameTasks_wake _ .clock).results.trans hwoken.results)
      ((ledger_wake _ .clock).trans (ledger_wakeAll _ _))
  · exact hover _ hwoken.tasks hwoken.results (ledger_wakeAll _ _)

/-- What a machine does with the end of its wait does not concern the ledger. -/
theorem ledger_resume (h : p.isMachine = true) (s : Simulation) (w : Wake) :
    (s.resume p w).1.ledger = s.ledger := by
  rcases Program.isMachine_cases h with ⟨tokenNetwork, phase, rfl⟩ | ⟨call, state, rfl⟩
  · unfold resume
    dsimp only
    split
    · exact ledger_wakeAll _ _
    · rfl
  · rfl

/-- A task that does not move stays where it is. -/
theorem Standing.of_leaves (h : Standing c id first s j) {s' : Simulation} (hsound : s'.Sound)
    (hleaves : s.Leaves id s') : Standing c id first s' j := by
  obtain ⟨p, hmachine, hcourse, hstands⟩ := h.place
  refine ⟨hsound, hleaves.config.trans h.config, Nat.lt_of_lt_of_le h.known hleaves.count,
    ⟨p, hmachine, hcourse, ?_⟩, fun v hv hstopped => ?_⟩
  · unfold Stands
    rw [hleaves.tasks, hleaves.results, hleaves.config]
    exact hstands
  · obtain ⟨hclock, hcounting⟩ := h.stopped v hv hstopped
    rw [hleaves.tasks]
    refine ⟨?_, hcounting⟩
    -- A clock that ended does not start again.
    by_contra hrunning
    rw [hleaves.running (by simpa using hrunning)] at hclock
    cases hclock

/-- An operation that did not begin yet begins. -/
theorem moveTask_start {tokenNetwork : Address} {op : Operation}
    (hprogram : t.program = .start tokenNetwork op) : (s.moveTask id t).tasks.get? id
      = some { t with program := .operate tokenNetwork op.start } ∧
      (s.moveTask id t).ledger = s.ledger := by
  have hstop : s.mustStop t = false := mustStop_of_begun (by rw [hprogram]; rfl)
  unfold moveTask
  rw [hstop, if_neg Bool.false_ne_true, hprogram, ← Membership.begin_snd (s.settings tokenNetwork)
    ((s.node.manage tokenNetwork).membership tokenNetwork) op]
  exact ⟨SortedMap.get?_insert_self .., rfl⟩

/-- A machine that is over leaves its result. -/
theorem moveTask_of_result? (hmachine : t.program.isMachine = true) {r : TaskResult}
    (hresult : t.program.result? = some r) : s.moveTask id t = s.finish id t r := by
  unfold moveTask
  rw [mustStop_of_isMachine hmachine, if_neg Bool.false_ne_true, hresult]

/-- Nothing is written down of a task that waits for nothing. -/
theorem Journal.write_of_wants_nothing {ticks : Nat}
    (hwants : t.program.wants s.node.config = .nothing)
    (hfits : Fits (t.program.wants s.node.config) ticks t.stage) :
    j.write s t = j ∧ t.stage = .idle := by
  rw [hwants] at hfits
  cases hstage : t.stage with
  | idle =>
      have hending : s.ending? t = none := by
        unfold ending?
        rw [hstage]
        dsimp only
        rw [hwants]
      have htakes : s.takesTick t = false := by
        unfold takesTick
        rw [hstage]
      rw [write, hending, htakes]
      exact ⟨rfl, rfl⟩
  | inSlot slot =>
      rw [hstage] at hfits
      cases hfits.1
  | counting stream left =>
      rw [hstage] at hfits
      obtain ⟨n, hn, -⟩ := hfits
      cases hn

/-- A task that is there is on its course. -/
theorem Standing.task (h : Standing c id first s j) (ht : s.tasks.get? id = some t) :
    t.program.begun.isMachine = true ∧ Course c first j.waits t.program.begun ∧
      Fits (t.program.wants s.node.config) j.ticks t.stage := by
  obtain ⟨p, hmachine, hcourse, ⟨t', ht', rfl, hfits⟩ | ⟨hnone, -⟩⟩ := h.place
  · rw [ht, Option.some.injEq] at ht'
    subst ht'
    exact ⟨hmachine, hcourse, hfits⟩
  · rw [hnone] at ht
    cases ht

/-- What is to be shown of a move of a task. -/
theorem Standing.of_move (h : Standing c id first s j) (ht : s.tasks.get? id = some t)
    {j' : Journal} (hplace : ∃ p, p.isMachine = true ∧ Course c first j'.waits p ∧
      (s.moveTask id t).Stands id p j'.ticks)
    (hstopped : ∀ v ∈ j'.waits, v.state.clock.isRunning = false → s.clock.isRunning = false ∧
      ∀ t' stream left, (s.moveTask id t).tasks.get? id = some t' →
        t'.stage ≠ .counting stream left) : Standing c id first (s.moveTask id t) j' := by
  have hworks := h.sound.works_moveTask ht
  refine ⟨h.sound.of_works hworks, hworks.spares.config.trans h.config,
    Nat.lt_of_lt_of_le h.known hworks.spares.count, hplace, fun v hv hv' => ?_⟩
  obtain ⟨hclock, hcounting⟩ := hstopped v hv hv'
  refine ⟨?_, hcounting⟩
  by_contra hrunning
  rw [hworks.spares.clock.running (by simpa using hrunning)] at hclock
  cases hclock

/-- The operation begins. -/
theorem Standing.begin (h : Standing c id first s j) (ht : s.tasks.get? id = some t)
    (hmachine : t.program.begun.isMachine = true) (hcourse : Course c first j.waits t.program.begun)
    (hfits : Fits (t.program.wants s.node.config) j.ticks t.stage)
    (hkind : t.program.isMachine = false) :
    Standing c id first (s.moveTask id t) (j.write s t) := by
  obtain ⟨tokenNetwork, op, hprogram⟩ := Program.eq_start hkind hmachine
  have hwants : t.program.wants s.node.config = .nothing := by rw [hprogram]; rfl
  obtain ⟨hwrite, hidle⟩ := Journal.write_of_wants_nothing (j := j) hwants hfits
  have hmoved : (s.moveTask id t).tasks.get? id
      = some { t with program := .operate tokenNetwork op.start } := (moveTask_start hprogram).1
  have hbegun : t.program.begun = .operate tokenNetwork op.start := by rw [hprogram]; rfl
  rw [hwrite]
  refine h.of_move ht ⟨_, hmachine, hcourse, Or.inl ⟨_, hmoved, hbegun.symm, ?_⟩⟩
    (fun v hv hstopped => ⟨(h.stopped v hv hstopped).1, fun t' stream left ht' => ?_⟩)
  · rw [hidle] at hfits ⊢
    exact hfits
  · rw [hmoved, Option.some.injEq] at ht'
    rw [← ht', hidle]
    nofun

/-- The task is over, and leaves its result behind. -/
theorem Standing.finish (h : Standing c id first s j) (ht : s.tasks.get? id = some t)
    (hmachine : t.program.isMachine = true) (hcourse : Course c first j.waits t.program)
    (hfits : Fits (t.program.wants s.node.config) j.ticks t.stage) {r : TaskResult}
    (hresult : t.program.result? = some r) :
    Standing c id first (s.moveTask id t) (j.write s t) := by
  have hwants : t.program.wants s.node.config = .nothing := by
    by_contra hwants
    rw [(Program.result?_eq_none_iff hmachine).mpr hwants] at hresult
    cases hresult
  obtain ⟨hwrite, -⟩ := Journal.write_of_wants_nothing (j := j) hwants hfits
  obtain ⟨hgone, hover, -⟩ := get?_finish s id t r
  rw [← moveTask_of_result? hmachine hresult] at hgone hover
  rw [hwrite]
  refine h.of_move ht ⟨_, hmachine, hcourse, Or.inr ⟨hgone, ?_, hover.trans hresult.symm⟩⟩
    (fun v hv hstopped => ⟨(h.stopped v hv hstopped).1, fun t' stream left ht' => ?_⟩)
  · rw [hresult]
    rfl
  · rw [hgone] at ht'
    cases ht'

/-- The wait of the task ends. -/
theorem Standing.answer (h : Standing c id first s j) (ht : s.tasks.get? id = some t)
    (hmachine : t.program.isMachine = true) (hcourse : Course c first j.waits t.program)
    (hfits : Fits (t.program.wants s.node.config) j.ticks t.stage)
    (hresult : t.program.result? = none) {s' : Simulation} {w : Wake}
    (hending : s.ending? t = some (s', w)) :
    Standing c id first (s.moveTask id t) (j.write s t) := by
  obtain ⟨hended, hticks⟩ := h.sound.ending?_fits ht hmachine hfits hending
  obtain ⟨hsettings, hrunning, -⟩ := keeps_of_ending? hending
  have hmoved : (s.moveTask id t).tasks.get? id
      = some { t with program := (s'.resume t.program w).2, stage := .idle } := by
    rw [moveTask_of_ending? hmachine hresult hending]
    exact SortedMap.get?_insert_self ..
  have hfollows : Wait.Follows c j.waits t.program
      ⟨t.program.wants s.node.config, w, j.ticks, s'⟩ := by
    refine ⟨hsettings.trans h.config, by rw [h.config], hended, ?_, fun v hv hstopped => ?_⟩
    · rwa [hrunning]
    · obtain ⟨hclock, hcounting⟩ := h.stopped v hv hstopped
      refine ⟨hrunning.trans hclock, ?_⟩
      -- Ticks are only told to have passed to a task that counts, and this one did not begin to.
      rintro rfl
      obtain ⟨stream, left, hstage⟩ := counts_of_ending? hending
      exact hcounting t stream left ht hstage
  have hnext := isMachine_resume hmachine s' w
  rw [Journal.write, hending]
  refine h.of_move ht ⟨_, hnext, hcourse.wait hfollows,
    Or.inl ⟨_, hmoved, Program.begun_of_isMachine hnext, rfl⟩⟩
    (fun v hv hstopped => ⟨?_, fun t' stream left ht' => ?_⟩)
  · -- The wait that just ended is one of those the clock may have ended in.
    rcases List.mem_append.mp hv with hv | hv
    · exact (h.stopped v hv hstopped).1
    · rw [List.mem_singleton.mp hv] at hstopped
      exact hrunning.symm.trans hstopped
  · rw [hmoved, Option.some.injEq] at ht'
    rw [← ht']
    nofun

/-- The task goes on waiting. -/
theorem Standing.stay (h : Standing c id first s j) (ht : s.tasks.get? id = some t)
    (hmachine : t.program.isMachine = true) (hcourse : Course c first j.waits t.program)
    (hfits : Fits (t.program.wants s.node.config) j.ticks t.stage)
    (hresult : t.program.result? = none) (hending : s.ending? t = none) :
    Standing c id first (s.moveTask id t) (j.write s t) := by
  have hconfig := (h.sound.works_moveTask ht).spares.config
  obtain ⟨stage, hstays⟩ := moveTask_of_not_ending? ht hmachine hresult hfits hending
  rw [Journal.write, hending]
  refine h.of_move ht ⟨_, hmachine, hcourse,
    Or.inl ⟨_, hstays.task, Program.begun_of_isMachine hmachine, ?_⟩⟩ (fun v hv hstopped => ?_)
  · rw [hconfig]
    exact hstays.fits
  · obtain ⟨hclock, hnot⟩ := h.stopped v hv hstopped
    refine ⟨hclock, fun t' stream left ht' => ?_⟩
    rw [hstays.task, Option.some.injEq] at ht'
    rw [← ht']
    rintro rfl
    -- It counts now because it asked while the clock ran, or because it counted before.
    rcases hstays.counts stream left rfl with hrunning | ⟨stream', left', hcounts⟩
    · rw [hclock] at hrunning
      cases hrunning
    · exact hnot t stream' left' ht hcounts

/-- A move of the task takes it along its course. -/
theorem Standing.moveTask (h : Standing c id first s j) (ht : s.tasks.get? id = some t) :
    Standing c id first (s.moveTask id t) (j.write s t) := by
  obtain ⟨hmachine, hcourse, hfits⟩ := h.task ht
  -- A move begins the program, is the last one, ends a wait or leaves it going on.
  cases hkind : t.program.isMachine with
  | false => exact h.begin ht hmachine hcourse hfits hkind
  | true =>
      rw [Program.begun_of_isMachine hkind] at hcourse
      cases hresult : t.program.result? with
      | some r => exact h.finish ht hkind hcourse hfits hresult
      | none =>
          cases hending : s.ending? t with
          | some answer => exact h.answer ht hkind hcourse hfits hresult hending
          | none => exact h.stay ht hkind hcourse hfits hresult hending

/-- The journal of a machine is a course, whatever happens. -/
theorem Standing.through (h : Standing c id first s ⟨[], 0⟩) (acts : List Act) :
    Standing c id first (s.through acts) (s.journal id acts) := by
  -- The journal grows at its end, so the acts are taken off from the last.
  induction acts using List.reverseRecOn with
  | nil => exact h
  | append_singleton acts a ih =>
      rw [through_append_singleton, journal_append_singleton]
      cases hmover : (s.through acts).mover? id a with
      | some t =>
          obtain ⟨-, -, ht⟩ := mover?_eq_some_iff.mp hmover
          rw [after_of_mover? hmover]
          exact ih.moveTask ht
      | none => exact ih.of_leaves (ih.sound.after a) (ih.sound.leaves_after ih.known hmover)

/-- A task that did not move yet stands at its start. -/
theorem standing_of_idle (h : s.Sound) (hconfig : s.node.config = c)
    (ht : s.tasks.get? id = some t) (hidle : t.stage = .idle)
    (hmachine : t.program.begun.isMachine = true) :
    Standing c id t.program.begun s ⟨[], 0⟩ where
  sound := h
  config := hconfig
  known := h.ordered.known id t ht
  place := ⟨_, hmachine, .start, Or.inl ⟨t, ht, rfl, by rw [hidle]; rfl⟩⟩
  stopped _ hv := absurd hv List.not_mem_nil

/-- The journal of a machine from its start is a course, in any simulation. -/
theorem standing_through {height : Height} {before : List Act}
    (hs : (fresh c height).through before = s) (ht : s.tasks.get? id = some t)
    (hidle : t.stage = .idle) (hmachine : t.program.begun.isMachine = true) (acts : List Act) :
    Standing c id t.program.begun (s.through acts) (s.journal id acts) := by
  have hfresh := sound_fresh c height
  exact (standing_of_idle (hs ▸ hfresh.through before) (hs ▸ hfresh.config_through before) ht hidle
    hmachine).through acts

/-- A machine in its turn goes on, unless it must wait. -/
theorem Standing.goesOn (h : Standing c id first s j) (ht : s.tasks.get? id = some t)
    (hmachine : t.program.isMachine = true) (hresult : t.program.result? = none) :
    (j.write s t).waits.length = j.waits.length + 1 ∨
      (j.write s t).ticks = j.ticks + 1 ∨ s.Delays t := by
  obtain ⟨-, -, hfits⟩ := h.task ht
  unfold Journal.write
  cases hending : s.ending? t with
  | some answer =>
      left
      exact List.length_append
  | none =>
      right
      obtain ⟨stage, hstays⟩ := moveTask_of_not_ending? ht hmachine hresult hfits hending
      refine hstays.delays.imp_left fun htakes => ?_
      rw [htakes]
      rfl

/-- All that a task asks of the ledger is in its journal. -/
theorem Standing.asks (h : Standing c id first s j) (ht : s.tasks.get? id = some t) :
    (s.moveTask id t).ledger = s.ledger ∨
      ∃ r w, (j.write s t).waits = j.waits ++ [w] ∧ w.want = .ledger r ∧
        w.wake = .answered (s.exchange r).1 ∧
        (s.moveTask id t).ledger = (s.exchange r).2.ledger := by
  obtain ⟨hmachine, -, hfits⟩ := h.task ht
  cases hkind : t.program.isMachine with
  | false =>
      obtain ⟨tokenNetwork, op, hprogram⟩ := Program.eq_start hkind hmachine
      exact Or.inl (moveTask_start hprogram).2
  | true =>
      cases hresult : t.program.result? with
      | some r =>
          rw [moveTask_of_result? hkind hresult]
          exact Or.inl (get?_finish s id t r).2.2
      | none =>
          cases hending : s.ending? t with
          | some answer =>
              obtain ⟨s', w⟩ := answer
              have hledger : (s.moveTask id t).ledger = s'.ledger := by
                rw [moveTask_of_ending? hkind hresult hending]
                exact ledger_resume hkind s' w
              rw [hledger, Journal.write, hending]
              refine (keeps_of_ending? hending).2.2.imp_right ?_
              rintro ⟨r, hwants, hw, hasked⟩
              exact ⟨r, _, rfl, hwants, hw, hasked⟩
          | none =>
              obtain ⟨stage, hstays⟩ := moveTask_of_not_ending? ht hkind hresult hfits hending
              exact Or.inl hstays.ledger

/-- What a task does in its turn, after some acts. -/
structure Turn (s : Simulation) (id : Nat) (acts : List Act) (t : Task) : Prop where
  /-- All that it asks of the ledger is in its journal. -/
  asks : (s.through (acts ++ [.move])).ledger = (s.through acts).ledger ∨
    ∃ r w, (s.journal id (acts ++ [.move])).waits = (s.journal id acts).waits ++ [w] ∧
      w.want = .ledger r ∧ w.wake = .answered ((s.through acts).exchange r).1 ∧
      (s.through (acts ++ [.move])).ledger = ((s.through acts).exchange r).2.ledger
  /-- It goes on, unless it must wait. -/
  goesOn : t.program.isMachine = true → t.program.result? = none →
    (s.journal id (acts ++ [.move])).waits.length = (s.journal id acts).waits.length + 1 ∨
      (s.journal id (acts ++ [.move])).ticks = (s.journal id acts).ticks + 1 ∨
      (s.through acts).Delays t

theorem Standing.turn {acts : List Act}
    (h : Standing c id first (s.through acts) (s.journal id acts))
    (hmover : (s.through acts).mover? id .move = some t) : s.Turn id acts t := by
  obtain ⟨-, -, ht⟩ := mover?_eq_some_iff.mp hmover
  constructor
  · rw [through_append_singleton, journal_append_singleton, hmover, Option.elim_some,
      after_of_mover? hmover]
    exact h.asks ht
  · rw [journal_append_singleton, hmover, Option.elim_some]
    exact h.goesOn ht

end Journals

/-! ### Parts of a course -/

/-- An activity goes on with a wait of some kind, if that ended already. -/
def GoesOn (P : Wait → Prop) (later : List Wait) (outcome? : Option TaskResult) : Prop :=
  (later = [] ∧ outcome? = none) ∨ ∃ w rest, later = w :: rest ∧ P w

/-- An activity ends with a result. -/
def EndsWith (r : TaskResult) (later : List Wait) (outcome? : Option TaskResult) : Prop :=
  later = [] ∧ outcome? = some r

section Courses

variable {c : NodeConfig} {first p : Program} {before later : List Wait} {w : Wait}

theorem Wait.Follows.mono (h : w.Follows c before p) {before' : List Wait}
    (hsub : before' ⊆ before) : w.Follows c before' p :=
  { h with stopped := fun v hv => h.stopped v (hsub hv) }

/-- What follows a wait is a course as well. -/
theorem Course.split (h : Course c first (before ++ w :: later) p) :
    ∃ q, Course c first before q ∧ w.Follows c before q ∧
      Course c (w.state.resume q w.wake).2 later p := by
  -- A course grows by its last wait, so the waits after this one are taken off from the last.
  induction later using List.reverseRecOn generalizing p with
  | nil =>
      generalize hall : before ++ [w] = all at h
      cases h with
      | start => exact absurd hall (by simp)
      | wait hcourse hfollows =>
          obtain ⟨rfl, hw⟩ := List.append_inj' hall rfl
          cases hw
          exact ⟨_, hcourse, hfollows, .start⟩
  | append_singleton later v ih =>
      generalize hall : before ++ w :: (later ++ [v]) = all at h
      rw [← List.cons_append, ← List.append_assoc] at hall
      cases h with
      | start => exact absurd hall (by simp)
      | wait hcourse hfollows =>
          obtain ⟨rfl, hv⟩ := List.append_inj' hall rfl
          cases hv
          obtain ⟨q, hbefore, hw, hlater⟩ := ih hcourse
          refine ⟨q, hbefore, hw, hlater.wait (hfollows.mono fun u hu => ?_)⟩
          exact List.mem_append_right _ (List.mem_cons_of_mem _ hu)

theorem Course.eq_of_nil (h : Course c first [] p) : p = first := by
  generalize hall : [] = all at h
  cases h with
  | start => rfl
  | wait => exact absurd hall (by simp)

/-- The first wait is one of the first program. -/
theorem Course.of_cons (h : Course c first (w :: later) p) :
    w.Follows c [] first ∧ Course c (w.state.resume first w.wake).2 later p := by
  obtain ⟨q, hnone, hfollows, hlater⟩ := (show Course c first ([] ++ w :: later) p from h).split
  rw [hnone.eq_of_nil] at hfollows hlater
  exact ⟨hfollows, hlater⟩

/-- A machine that is over waits for nothing. -/
theorem Course.endsWith (h : Course c first later p) (hmachine : first.isMachine = true)
    {r : TaskResult} (hresult : first.result? = some r) : EndsWith r later p.result? := by
  cases later with
  | nil =>
      rw [h.eq_of_nil]
      exact ⟨rfl, hresult⟩
  | cons w later =>
      -- What has a result wants nothing, and no answer ends a wait for nothing.
      exfalso
      obtain ⟨hfollows, -⟩ := h.of_cons
      have hends := hfollows.ends
      have hwants : first.wants c = .nothing := by
        by_contra hwants
        rw [(Program.result?_eq_none_iff hmachine).mpr hwants] at hresult
        cases hresult
      rw [hfollows.want, hwants] at hends
      cases w.wake <;> cases hends

/-- A machine that is not over goes on with what it waits for. -/
theorem Course.goesOn (h : Course c first later p) (hresult : first.result? = none) :
    GoesOn (fun w => w.Follows c [] first) later p.result? := by
  cases later with
  | nil =>
      rw [h.eq_of_nil]
      exact Or.inl ⟨rfl, hresult⟩
  | cons w later => exact Or.inr ⟨w, later, rfl, h.of_cons.1⟩

/-- After a wait during which the clock ended no more ticks pass. -/
theorem Course.stopped (h : Course c first (before ++ w :: later) p)
    (hstopped : w.state.clock.isRunning = false) : ∀ v ∈ later, v.wake ≠ .ticked true := by
  intro v hv
  obtain ⟨middle, rest, rfl⟩ := List.append_of_mem hv
  have hsplit : before ++ w :: (middle ++ v :: rest) = (before ++ w :: middle) ++ v :: rest := by
    simp
  rw [hsplit] at h
  obtain ⟨q, -, hfollows, -⟩ := h.split
  exact (hfollows.stopped w (by simp) hstopped).2

end Courses

end Simulation

end PaymentNetwork

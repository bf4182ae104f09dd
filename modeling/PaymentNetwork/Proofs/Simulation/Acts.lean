import PaymentNetwork.Proofs.Simulation.Frame

/-!
# Everything That Can Happen

Runs of a simulation in which anything may be done from outside between two moves.

A run of the tasks alone says what happens to one ledger, one clock and one sequence of messages.
A law about a task should hold whatever these are. So between two moves of whoever has the turn,
the clock may tick or end, streams that are held outside may be read or dropped, tasks may be
started, and all the rest of the world may be replaced by another one: the view, the transfers,
the ledger with the outcomes of its calls, the turnstiles, the line of those who wait for a turn.
What cannot be replaced are the tasks, their streams and the settings of the node.

In such a run a task moves when it has the turn, and at no other time does anything happen to it.

## Main definitions

* `Simulation.Act`, `Simulation.after`: Something that happens, and what comes of it.
* `Simulation.through`: The simulation after some acts.
* `Simulation.mover?`: The task whose own move an act is.
* `Simulation.Leaves`: An act leaves a task alone.

## Theorems

* `Simulation.Sound.after`: The invariant of the streams stays.
* `Simulation.Sound.leaves_after`: An act that is no move of a task leaves it alone.
-/

namespace PaymentNetwork

namespace Simulation

/-- Something that happens to a simulation. -/
inductive Act where
  /-- A move of whoever has the turn, if anybody can go on. -/
  | move
  | tick
  | closeClock
  | withdrawClock
  /-- A tick is taken out of a stream that is held outside. -/
  | readHeld (label stream : Nat)
  | dropHeld (label stream : Nat)
  | spawn (program : Program) (label? : Option Nat)
  | spawnClient (program : Program) (refusal : TaskResult) (label : Nat)
  /-- All but the tasks, their streams and the settings becomes what it is in another world. -/
  | surround (world : Simulation)

/-- The simulation in the surroundings of another one. -/
def inside (s world : Simulation) : Simulation :=
  { world with
    node := { world.node with config := s.node.config }
    clock := s.clock
    held := s.held
    tasks := s.tasks
    results := s.results
    taskCount := s.taskCount }

/-- What comes of an act. -/
def after (s : Simulation) : Act → Simulation
  | .move => s.move?.getD s
  | .tick => { s with clock := s.clock.tick.1 }.wake .clock
  | .closeClock => s.closeClock
  | .withdrawClock => s.withdrawClock
  | .readHeld label stream => if (label, stream) ∈ s.held then s.readTick stream else s
  | .dropHeld label stream =>
    if (label, stream) ∈ s.held then
      { s with held := s.held.filter fun h => decide (h.1 ≠ label) }.dropStream stream
    else s
  | .spawn program label? => s.spawn program label?
  | .spawnClient program refusal label => s.spawnClient program refusal label
  | .surround world => s.inside world

/-- The simulation after some acts. -/
def through (s : Simulation) (acts : List Act) : Simulation := acts.foldl after s

theorem through_append_singleton (s : Simulation) (acts : List Act) (a : Act) :
    s.through (acts ++ [a]) = (s.through acts).after a := by
  rw [through, List.foldl_append]
  rfl

/-- A task whose own move an act is, as it stands. -/
def mover? (s : Simulation) (id : Nat) : Act → Option Task
  | .move => if s.current? = some (.task id) then s.tasks.get? id else none
  | _ => none

/-- An act leaves a task alone. It may end the clock. -/
structure Leaves (id : Nat) (s s' : Simulation) : Prop where
  tasks : s'.tasks.get? id = s.tasks.get? id
  results : s'.results.get? id = s.results.get? id
  config : s'.node.config = s.node.config
  running : s'.clock.isRunning = true → s.clock.isRunning = true
  count : s.taskCount ≤ s'.taskCount

section Acts

variable {P : Nat → Prop} {s s' : Simulation} {id : Nat} {t : Task} {a : Act}

theorem Spares.leaves (h : s.Spares P s') (hp : P id) (hid : id < s.taskCount) :
    s.Leaves id s' where
  tasks := h.tasks id hp hid
  results := h.results id hp
  config := h.config
  running := h.clock.running
  count := h.count

theorem mover?_eq_some_iff :
    s.mover? id a = some t ↔ a = .move ∧ s.current? = some (.task id) ∧
      s.tasks.get? id = some t := by
  cases a <;> simp [mover?]

/-- The own move of a task is what it does in its turn. -/
theorem after_of_mover? (h : s.mover? id a = some t) : s.after a = s.moveTask id t := by
  obtain ⟨rfl, hcurrent, ht⟩ := mover?_eq_some_iff.mp h
  rw [after, move?, hcurrent]
  dsimp only
  rw [ht]
  rfl

/-- It is started like any other task, and the clock has one client more. -/
theorem spares_spawnClient (h : s.Ordered) (hfresh : ∀ id, s.taskCount ≤ id → P id)
    (program : Program) (refusal : TaskResult) (label : Nat) :
    s.Spares P (s.spawnClient program refusal label) := by
  unfold spawnClient
  split
  · exact spares_spawn h hfresh _ _
  · have hadded := spares_add h hfresh (t := ⟨program, .idle, some label, true⟩) rfl
    refine hadded.trans (.of_clock hadded.ordered hadded.fresh' rfl rfl rfl rfl ?_
      (fun _ hmem => Or.inl hmem))
    exact Clock.spares_of_streams hadded.ordered.numbered rfl id

/-- It is the turn of a task, or no task moves. -/
theorem Sound.move_cases (h : s.Sound) :
    (∃ k t, s.mover? k .move = some t ∧ s.Works k (s.after .move)) ∨
      s.Spares (fun _ => True) (s.after .move) := by
  have hfresh : ∀ id, s.taskCount ≤ id → True := fun _ _ => trivial
  have hsame : ∀ {s'}, s.SameTasks s' → s.Spares (fun _ => True) s' :=
    fun hsame => hsame.spares h.ordered hfresh
  cases hcurrent : s.current? with
  | none =>
      -- Whoever is next is given the turn, and does not move yet.
      refine Or.inr (hsame ?_)
      rw [after, move?, hcurrent]
      dsimp only
      split
      · split <;> exact ⟨rfl, rfl, rfl, rfl, rfl, rfl⟩
      · split
        · exact ⟨rfl, rfl, rfl, rfl, rfl, rfl⟩
        · split <;> exact ⟨rfl, rfl, rfl, rfl, rfl, rfl⟩
  | some player =>
      cases player with
      | clock =>
          right
          rw [after, move?, hcurrent]
          exact spares_moveClock h.ordered hfresh
      | task k =>
          cases ht : s.tasks.get? k with
          | none =>
              right
              rw [after, move?, hcurrent]
              dsimp only
              rw [ht]
              exact hsame (sameTasks_yield s)
          | some t =>
              have hmover : s.mover? k .move = some t :=
                mover?_eq_some_iff.mpr ⟨rfl, hcurrent, ht⟩
              refine Or.inl ⟨k, t, hmover, ?_⟩
              rw [after_of_mover? hmover]
              exact h.works_moveTask ht

/-- A stream that is held has no reader, so no task notices that it is let go. -/
theorem Sound.spares_dropHeld (h : s.Sound) (label stream : Nat) :
    s.Spares (fun _ => True) (s.after (.dropHeld label stream)) := by
  have hfresh : ∀ id, s.taskCount ≤ id → True := fun _ _ => trivial
  rw [after]
  split
  · rename_i hmem
    have hheld : s.Spares (fun _ => True)
        { s with held := s.held.filter fun h => decide (h.1 ≠ label) } :=
      .of_clock h.ordered hfresh rfl rfl rfl rfl (.refl h.ordered.numbered)
        (fun _ hmem => Or.inl (List.mem_filter.mp hmem).1)
    refine hheld.trans (spares_dropStream hheld.ordered hfresh (fun task _ hreads => ?_))
    obtain ⟨r, hr, hnone⟩ := h.held _ hmem
    obtain ⟨r', hr', hsome, -⟩ := hreads
    rw [hr, Option.some.injEq] at hr'
    rw [← hr', hnone] at hsome
    cases hsome
  · exact .refl h.ordered hfresh

/-- Whatever happens is a move of a task, or it leaves all tasks alone. -/
theorem Sound.after_cases (h : s.Sound) (a : Act) :
    (∃ k t, s.mover? k a = some t ∧ s.Works k (s.after a)) ∨
      s.Spares (fun _ => True) (s.after a) := by
  have hfresh : ∀ id, s.taskCount ≤ id → True := fun _ _ => trivial
  -- The clock can change in any way that leaves its streams to their readers.
  have hclock : ∀ c : Clock, s.clock.Spares (fun _ => True) c →
      s.Spares (fun _ => True) { s with clock := c } := fun c hc =>
    .of_clock h.ordered hfresh rfl rfl rfl rfl hc (fun _ hmem => Or.inl hmem)
  have hstreams : ∀ c : Clock, c.streams = s.clock.streams → c.isRunning = s.clock.isRunning →
      s.Spares (fun _ => True) { s with clock := c } := fun c hstreams hrunning =>
    hclock c (Clock.spares_of_streams h.ordered.numbered hstreams (hrunning ▸ id))
  cases a with
  | move => exact h.move_cases
  | tick =>
      exact Or.inr ((hclock s.clock.tick.1 (Clock.spares_tick h.ordered.numbered)).then
        (sameTasks_wake _ .clock))
  | closeClock =>
      exact Or.inr ((hstreams s.clock.close rfl rfl).then (sameTasks_wake _ .clock))
  | withdrawClock =>
      exact Or.inr ((hstreams { s.clock with isOffered := false } rfl rfl).then
        (sameTasks_wake _ .clock))
  | readHeld label stream =>
      right
      rw [after]
      split
      · exact spares_readTick h.ordered hfresh stream
      · exact .refl h.ordered hfresh
  | dropHeld label stream => exact Or.inr (h.spares_dropHeld label stream)
  | spawn program label? => exact Or.inr (spares_spawn h.ordered hfresh program label?)
  | spawnClient program refusal label =>
      exact Or.inr (spares_spawnClient h.ordered hfresh program refusal label)
  | surround world =>
      have hsame : s.SameTasks (s.after (.surround world)) := ⟨rfl, rfl, rfl, rfl, rfl, rfl⟩
      exact Or.inr (hsame.spares h.ordered hfresh)

/-- Every task that counts ticks goes on reading its stream. -/
theorem Sound.after (h : s.Sound) (a : Act) : (s.after a).Sound := by
  rcases h.after_cases a with ⟨k, t, -, hworks⟩ | hspares
  · exact h.of_works hworks
  · exact h.of_spares hspares

theorem Sound.through (h : s.Sound) (acts : List Act) : (s.through acts).Sound := by
  induction acts generalizing s with
  | nil => exact h
  | cons a rest ih => exact ih (h.after a)

/-- The settings of the node stay. -/
theorem Sound.config_through (h : s.Sound) (acts : List Act) :
    (s.through acts).node.config = s.node.config := by
  induction acts generalizing s with
  | nil => rfl
  | cons a rest ih =>
      refine (ih (h.after a)).trans ?_
      rcases h.after_cases a with ⟨k, t, -, hworks⟩ | hspares
      · exact hworks.spares.config
      · exact hspares.config

/-- Nothing happens to a task but by its own moves. -/
theorem Sound.leaves_after (h : s.Sound) (hid : id < s.taskCount) (hother : s.mover? id a = none) :
    s.Leaves id (s.after a) := by
  rcases h.after_cases a with ⟨k, t, hmover, hworks⟩ | hspares
  · refine hworks.spares.leaves ?_ hid
    rintro rfl
    rw [hmover] at hother
    cases hother
  · exact hspares.leaves trivial hid

end Acts

end Simulation

end PaymentNetwork

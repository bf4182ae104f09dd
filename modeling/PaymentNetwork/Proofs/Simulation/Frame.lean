import PaymentNetwork.Simulation.Control
import PaymentNetwork.Proofs.SortedMap

/-!
# What Others Leave Alone

What happens to a task in a simulation while it does nothing itself.

A simulation is one large state, and whoever makes a move may change any part of it. But a task
has little that is its own: its entry among the tasks, what came of it, and the stream of ticks
that it reads. No move of another task touches these, nor does the clock, nor does anything that
is done from outside. The one thing that others can do to a task is to end the clock, and that
cannot be undone.

Who reads a stream is written at the stream, so a stream has one reader at most. A task that
counts ticks is written at the stream that it counts, and the streams that are held outside have
no reader. These two facts are the invariant. With it, whoever takes a tick out of a stream or
drops it is the reader itself, and the frame follows for each function by going through what it
calls.

## Main definitions

* `Clock.Reads`, `Clock.IsHeld`: A stream has this reader, or none.
* `Clock.Spares`, `Simulation.Spares`: A step leaves the tasks with a property alone.
* `Simulation.Sound`: Every task that counts ticks reads its stream.
* `Simulation.Works`: What a move of one task does.

## Theorems

* `Clock.spares_move?`: The clock leaves everybody alone.
* `Simulation.spares_resume`: So does the end of a wait, apart from the task itself.
* `Simulation.Sound.works_moveTask`: A move of a task leaves the others alone.
* `Simulation.spares_moveClock`: A move of the clock leaves all of them alone.
* `Simulation.Sound.of_works`, `Simulation.Sound.of_spares`: Either keeps the invariant.
-/

namespace PaymentNetwork

namespace SortedMap

section Adjust

variable {κ α : Type} [Ord κ] [Std.TransOrd κ] [Std.LawfulEqOrd κ]

theorem get?_adjust_self (m : SortedMap κ α) (k : κ) (f : α → α) :
    (m.adjust k f).get? k = (m.get? k).map f := by
  unfold adjust
  split
  · rename_i hnone
    rw [hnone, Option.map_none]
  · rename_i v hv
    rw [get?_insert_self, hv, Option.map_some]

theorem get?_adjust_of_ne {m : SortedMap κ α} {k k' : κ} (f : α → α) (h : k' ≠ k) :
    (m.adjust k f).get? k' = m.get? k' := by
  unfold adjust
  split
  · rfl
  · exact get?_insert_of_ne h

theorem size_le_size_insert (m : SortedMap κ α) (k : κ) (v : α) :
    m.size ≤ (m.insert k v).size := by
  change m.entries.length ≤ (insertEntry k v m.entries).length
  induction m.entries with
  | nil => exact Nat.zero_le _
  | cons e rest ih =>
      unfold insertEntry
      split
      · exact Nat.le_succ _
      · exact Nat.le_refl _
      · exact Nat.succ_le_succ ih

/-- A new key makes the map larger. -/
theorem size_insert_of_get?_eq_none {m : SortedMap κ α} {k : κ} (v : α) (h : m.get? k = none) :
    (m.insert k v).size = m.size + 1 :=
  (insertEntry_perm h).length_eq

theorem size_le_size_adjust (m : SortedMap κ α) (k : κ) (f : α → α) :
    m.size ≤ (m.adjust k f).size := by
  unfold adjust
  split
  · exact Nat.le_refl _
  · exact m.size_le_size_insert k _

end Adjust

end SortedMap

/-! ### Streams of ticks -/

namespace Clock

/-- The task reads the stream. -/
def Reads (c : Clock) (task stream : Nat) : Prop :=
  ∃ r, c.streams.get? stream = some r ∧ r.reader? = some task ∧ r.status ≠ .dropped

/-- The stream has no reader. -/
def IsHeld (c : Clock) (stream : Nat) : Prop :=
  ∃ r, c.streams.get? stream = some r ∧ r.reader? = none

/-- The streams have numbers below their number, so the next one is new. -/
def Numbered (c : Clock) : Prop := ∀ stream r, c.streams.get? stream = some r →
  stream < c.streams.size

/-- The readers with a property keep their streams, and so does the outside. The clock goes on,
    or it ends for good. -/
structure Spares (P : Nat → Prop) (c c' : Clock) : Prop where
  numbered : c'.Numbered
  running : c'.isRunning = true → c.isRunning = true
  reads : ∀ task stream, P task → c.Reads task stream → c'.Reads task stream
  held : ∀ stream, c.IsHeld stream → c'.IsHeld stream

section Spares

variable {P : Nat → Prop} {c c' c'' : Clock}

/-- A stream has one reader at most. -/
theorem Reads.eq {task task' stream : Nat} (h : c.Reads task stream)
    (h' : c.Reads task' stream) : task = task' := by
  obtain ⟨r, hr, hreader, -⟩ := h
  obtain ⟨r', hr', hreader', -⟩ := h'
  rw [hr, Option.some.injEq] at hr'
  rwa [← hr', hreader, Option.some.injEq] at hreader'

theorem Spares.refl (h : c.Numbered) : c.Spares P c := ⟨h, id, fun _ _ _ => id, fun _ => id⟩

theorem Spares.trans (h : c.Spares P c') (h' : c'.Spares P c'') : c.Spares P c'' where
  numbered := h'.numbered
  running := fun hrunning => h.running (h'.running hrunning)
  reads := fun task stream hp hreads => h'.reads task stream hp (h.reads task stream hp hreads)
  held := fun stream hheld => h'.held stream (h.held stream hheld)

/-- A clock with the same streams leaves everybody alone. -/
theorem spares_of_streams (h : c.Numbered) (hstreams : c'.streams = c.streams)
    (hrunning : c'.isRunning = true → c.isRunning = true) : c.Spares P c' where
  numbered := by rwa [Numbered, hstreams]
  running := hrunning
  reads := fun _ _ _ => by rw [Reads, Reads, hstreams]; exact id
  held := fun _ => by rw [IsHeld, IsHeld, hstreams]; exact id

theorem numbered_change (h : c.Numbered) (stream : Nat) (f : TickStream → TickStream) :
    (c.change stream f).Numbered := by
  intro other r hr
  refine Nat.lt_of_lt_of_le ?_ (c.streams.size_le_size_adjust stream f)
  by_cases hother : other = stream
  · subst hother
    rw [show (c.change other f).streams.get? other = _ from SortedMap.get?_adjust_self ..,
      Option.map_eq_some_iff] at hr
    obtain ⟨r', hr', -⟩ := hr
    exact h other r' hr'
  · rw [show (c.change stream f).streams.get? other = _ from
      SortedMap.get?_adjust_of_ne f hother] at hr
    exact h other r hr

/-- A change of one stream leaves everybody alone who does not read it. -/
theorem spares_change_of_unread (h : c.Numbered) {stream : Nat} {f : TickStream → TickStream}
    (hreader : ∀ r, (f r).reader? = none) (hunread : ∀ task, P task → ¬ c.Reads task stream) :
    c.Spares P (c.change stream f) where
  numbered := numbered_change h stream f
  running := id
  reads task other hp hreads := by
    have hother : other ≠ stream := by
      rintro rfl
      exact hunread task hp hreads
    obtain ⟨r, hr, hreader'⟩ := hreads
    exact ⟨r, (SortedMap.get?_adjust_of_ne f hother).trans hr, hreader'⟩
  held other hheld := by
    obtain ⟨r, hr, hnone⟩ := hheld
    by_cases hother : other = stream
    · subst hother
      exact ⟨f r, (SortedMap.get?_adjust_self ..).trans (by rw [hr, Option.map_some]), hreader r⟩
    · exact ⟨r, (SortedMap.get?_adjust_of_ne f hother).trans hr, hnone⟩

/-- A change that keeps the readers leaves everybody alone. -/
theorem spares_change (h : c.Numbered) (stream : Nat) {f : TickStream → TickStream}
    (hreader : ∀ r, (f r).reader? = r.reader?)
    (hstatus : ∀ r, r.status ≠ .dropped → (f r).status ≠ .dropped) :
    c.Spares P (c.change stream f) where
  numbered := numbered_change h stream f
  running := id
  reads task other _ hreads := by
    obtain ⟨r, hr, htask, hopen⟩ := hreads
    by_cases hother : other = stream
    · subst hother
      exact ⟨f r, (SortedMap.get?_adjust_self ..).trans (by rw [hr, Option.map_some]),
        (hreader r).trans htask, hstatus r hopen⟩
    · exact ⟨r, (SortedMap.get?_adjust_of_ne f hother).trans hr, htask, hopen⟩
  held other hheld := by
    obtain ⟨r, hr, hnone⟩ := hheld
    by_cases hother : other = stream
    · subst hother
      exact ⟨f r, (SortedMap.get?_adjust_self ..).trans (by rw [hr, Option.map_some]),
        (hreader r).trans hnone⟩
    · exact ⟨r, (SortedMap.get?_adjust_of_ne f hother).trans hr, hnone⟩

theorem spares_read (h : c.Numbered) (stream : Nat) : c.Spares P (c.read stream) :=
  spares_change h stream (fun _ => rfl) (fun _ => id)

theorem spares_drop (h : c.Numbered) {stream : Nat}
    (hunread : ∀ task, P task → ¬ c.Reads task stream) : c.Spares P (c.drop stream) :=
  spares_change_of_unread h (fun _ => rfl) hunread

theorem spares_hold (h : c.Numbered) {stream : Nat}
    (hunread : ∀ task, P task → ¬ c.Reads task stream) : c.Spares P (c.hold stream) :=
  spares_change_of_unread h (fun _ => rfl) hunread

/-- A stream that is asked for is new, and has its reader. -/
theorem spares_ask (h : c.Numbered) {reader stream : Nat}
    (hask : c.ask reader = some (stream, c')) : c.Spares P c' ∧ c'.Reads reader stream := by
  unfold ask at hask
  split at hask
  · cases hask
    -- The identifiers of streams are counted up, so the new one hides no other.
    have hnew : c.streams.get? c.streams.size = none := by
      cases hfound : c.streams.get? c.streams.size with
      | none => rfl
      | some r => exact absurd (h _ r hfound) (Nat.lt_irrefl _)
    have hkept : ∀ other r, c.streams.get? other = some r →
        (c.streams.insert c.streams.size ⟨.requested, some reader, false⟩).get? other = some r := by
      intro other r hr
      rw [SortedMap.get?_insert_of_ne (Nat.ne_of_lt (h other r hr)), hr]
    refine ⟨⟨?_, id, ?_, ?_⟩, _, SortedMap.get?_insert_self .., rfl, nofun⟩
    · intro other r hr
      dsimp only at hr ⊢
      rw [SortedMap.size_insert_of_get?_eq_none _ hnew]
      by_cases hother : other = c.streams.size
      · exact hother ▸ Nat.lt_succ_self _
      · rw [SortedMap.get?_insert_of_ne hother] at hr
        exact Nat.lt_succ_of_lt (h other r hr)
    · rintro task other - ⟨r, hr, hreads⟩
      exact ⟨r, hkept other r hr, hreads⟩
    · rintro other ⟨r, hr, hheld⟩
      exact ⟨r, hkept other r hr, hheld⟩
  · cases hask

theorem spares_tick (h : c.Numbered) : c.Spares P c.tick.1 := by
  unfold tick
  split
  · exact spares_of_streams h rfl id
  · exact .refl h

/-- Whatever the clock does by itself leaves everybody alone. -/
theorem spares_move? (h : c.Numbered) {woken : List Nat} (hmove : c.move? = some (c', woken)) :
    c.Spares P c' := by
  have hhandOut : ∀ stream rest, c.Spares P (c.handOut stream rest).1 := by
    intro stream rest
    unfold handOut
    split
    · have hfull : c.Spares P (c.change stream fun s => { s with isFull := true }) :=
        spares_change h stream (fun _ => rfl) (fun _ => id)
      exact hfull.trans (spares_of_streams hfull.numbered rfl id)
    · exact spares_of_streams h rfl id
  have hopenStream : ∀ stream rest, c.Spares P (c.openStream stream rest).1 := by
    intro stream rest
    have hopen : c.Spares P (c.change stream fun s =>
        if s.status = .requested then { s with status := .isOpen } else s) := by
      refine spares_change h stream (fun r => ?_) (fun r hr => ?_)
      · split <;> rfl
      · split
        · nofun
        · exact hr
    exact hopen.trans (spares_of_streams hopen.numbered rfl id)
  have hstop : c.Spares P c.stop.1 := spares_of_streams h rfl nofun
  have hdone : ∀ step : Clock × List Nat, some step = some (c', woken) → c.Spares P step.1 →
      c.Spares P c' := by
    intro step hstep hspares
    rwa [Option.some.inj hstep] at hspares
  unfold move? at hmove
  split at hmove
  · cases hmove
  · split at hmove
    · split at hmove
      · cases hmove
      · exact hdone _ hmove (spares_of_streams h rfl id)
    · exact hdone _ hmove (hhandOut _ _)
    · exact hdone _ hmove (spares_of_streams h rfl id)
    · split at hmove
      · exact hdone _ hmove hstop
      · split at hmove
        · exact hdone _ hmove (spares_of_streams h rfl id)
        · split at hmove
          · exact hdone _ hmove (hopenStream _ _)
          · split at hmove
            · cases hmove
            · exact hdone _ hmove hstop

end Spares

end Clock

/-! ### The settings of a node -/

namespace Node

variable (n : Node)

theorem config_manage (tokenNetwork : Address) : (n.manage tokenNetwork).config = n.config := by
  unfold manage
  split <;> rfl

theorem config_handleAll (events : List ChainEvent) :
    (n.handleAll events).1.config = n.config := by
  induction events generalizing n with
  | nil => rfl
  | cons e rest ih => exact ih _

/-- A block does not change the settings. -/
theorem config_advance (block : Height) : (n.advance block).1.config = n.config :=
  config_handleAll _ _

end Node

/-- What the callbacks do to the world is a sequence of what one of them does. -/
theorem Monitor.invoke_world {σ κ : Type} {react : σ → κ → Height → Nat → Reaction σ κ}
    {R : σ → σ → Prop} (hrefl : ∀ world, R world world)
    (htrans : ∀ world world' world'', R world world' → R world' world'' → R world world'')
    (hreact : ∀ world callback height next, R world (react world callback height next).world)
    (height : Height) (m : Monitor κ) (world : σ) (callbacks : List (Nat × κ)) :
    R world (invoke react height m world callbacks).world := by
  induction callbacks generalizing m world with
  | nil => exact hrefl world
  | cons c rest ih =>
      exact htrans _ _ _ (hreact world c.2 height m.nextId) (ih _ _)

/-! ### Tasks -/

namespace Simulation

/-- Streams and tasks have numbers below the next ones, and so do tasks that are over. -/
structure Ordered (s : Simulation) : Prop where
  numbered : s.clock.Numbered
  known : ∀ id t, s.tasks.get? id = some t → id < s.taskCount
  finished : ∀ id r, s.results.get? id = some r → id < s.taskCount

/-- A step leaves the tasks with a property alone. It may start new ones. -/
structure Spares (P : Nat → Prop) (s s' : Simulation) : Prop where
  ordered : s'.Ordered
  /-- The tasks that are not there yet have the property. -/
  fresh : ∀ id, s.taskCount ≤ id → P id
  count : s.taskCount ≤ s'.taskCount
  tasks : ∀ id, P id → id < s.taskCount → s'.tasks.get? id = s.tasks.get? id
  idle : ∀ id t, s.taskCount ≤ id → s'.tasks.get? id = some t → t.stage = .idle
  results : ∀ id, P id → s'.results.get? id = s.results.get? id
  config : s'.node.config = s.node.config
  clock : s.clock.Spares P s'.clock
  held : ∀ h ∈ s'.held, h ∈ s.held ∨ s'.clock.IsHeld h.2

/-- A step leaves all tasks and all streams as they are. -/
structure SameTasks (s s' : Simulation) : Prop where
  tasks : s'.tasks = s.tasks
  taskCount : s'.taskCount = s.taskCount
  results : s'.results = s.results
  config : s'.node.config = s.node.config
  clock : s'.clock = s.clock
  held : s'.held = s.held

section Spares

variable {P : Nat → Prop} {s s' s'' : Simulation}

theorem SameTasks.refl (s : Simulation) : s.SameTasks s := ⟨rfl, rfl, rfl, rfl, rfl, rfl⟩

theorem SameTasks.trans (h : s.SameTasks s') (h' : s'.SameTasks s'') : s.SameTasks s'' :=
  ⟨h'.tasks.trans h.tasks, h'.taskCount.trans h.taskCount, h'.results.trans h.results,
    h'.config.trans h.config, h'.clock.trans h.clock, h'.held.trans h.held⟩

/-- A step that changes the clock and what is held at most. -/
theorem Spares.of_clock (h : s.Ordered) (hfresh : ∀ id, s.taskCount ≤ id → P id)
    (htasks : s'.tasks = s.tasks) (hcount : s'.taskCount = s.taskCount)
    (hresults : s'.results = s.results) (hconfig : s'.node.config = s.node.config)
    (hclock : s.clock.Spares P s'.clock)
    (hheld : ∀ h ∈ s'.held, h ∈ s.held ∨ s'.clock.IsHeld h.2) : s.Spares P s' where
  ordered := ⟨hclock.numbered, by rw [htasks, hcount]; exact h.known,
    by rw [hresults, hcount]; exact h.finished⟩
  fresh := hfresh
  count := Nat.le_of_eq hcount.symm
  tasks _ _ _ := by rw [htasks]
  idle id t hid ht := by
    rw [htasks] at ht
    exact absurd (h.known id t ht) (Nat.not_lt.mpr hid)
  results _ _ := by rw [hresults]
  config := hconfig
  clock := hclock
  held := hheld

theorem SameTasks.spares (hsame : s.SameTasks s') (h : s.Ordered)
    (hfresh : ∀ id, s.taskCount ≤ id → P id) : s.Spares P s' :=
  .of_clock h hfresh hsame.tasks hsame.taskCount hsame.results hsame.config
    (by rw [hsame.clock]; exact .refl h.numbered) (fun _ hh => Or.inl (hsame.held ▸ hh))

theorem Spares.refl (h : s.Ordered) (hfresh : ∀ id, s.taskCount ≤ id → P id) : s.Spares P s :=
  (SameTasks.refl s).spares h hfresh

theorem Spares.trans (h : s.Spares P s') (h' : s'.Spares P s'') : s.Spares P s'' where
  ordered := h'.ordered
  fresh := h.fresh
  count := Nat.le_trans h.count h'.count
  tasks id hp hid := (h'.tasks id hp (Nat.lt_of_lt_of_le hid h.count)).trans (h.tasks id hp hid)
  idle id t hid ht := by
    -- What the first step started is new to it, so the second one leaves it alone.
    by_cases hnew : s'.taskCount ≤ id
    · exact h'.idle id t hnew ht
    · rw [h'.tasks id (h.fresh id hid) (Nat.lt_of_not_le hnew)] at ht
      exact h.idle id t hid ht
  results id hp := (h'.results id hp).trans (h.results id hp)
  config := h'.config.trans h.config
  clock := h.clock.trans h'.clock
  held hh hmem := by
    rcases h'.held hh hmem with hmem | hheld
    · exact (h.held hh hmem).imp_right (h'.clock.held hh.2)
    · exact Or.inr hheld

theorem Spares.fresh' (h : s.Spares P s') : ∀ id, s'.taskCount ≤ id → P id :=
  fun id hid => h.fresh id (Nat.le_trans h.count hid)

/-- A step that leaves the tasks alone may follow. -/
theorem Spares.then (h : s.Spares P s') (hsame : s'.SameTasks s'') : s.Spares P s'' :=
  h.trans (hsame.spares h.ordered h.fresh')

theorem sameTasks_wake (s : Simulation) (p : Player) : s.SameTasks (s.wake p) := by
  unfold wake
  split
  · exact .refl s
  · exact ⟨rfl, rfl, rfl, rfl, rfl, rfl⟩

theorem sameTasks_wakeAll (s : Simulation) (ids : List Nat) : s.SameTasks (s.wakeAll ids) := by
  induction ids generalizing s with
  | nil => exact .refl s
  | cons id rest ih => exact (s.sameTasks_wake (.task id)).trans (ih _)

theorem sameTasks_setGate (s : Simulation) (tokenNetwork : Address) (g : Turnstile) :
    s.SameTasks (s.setGate tokenNetwork g) := ⟨rfl, rfl, rfl, rfl, rfl, rfl⟩

theorem sameTasks_yield (s : Simulation) : s.SameTasks s.yield := ⟨rfl, rfl, rfl, rfl, rfl, rfl⟩

theorem sameTasks_changeHeads (s : Simulation) (stream : Nat) (f : HeadStream → HeadStream) :
    s.SameTasks (s.changeHeads stream f) := ⟨rfl, rfl, rfl, rfl, rfl, rfl⟩

theorem sameTasks_release (s : Simulation) (tokenNetwork : Address) :
    s.SameTasks (s.release tokenNetwork) :=
  (s.sameTasks_setGate tokenNetwork _).trans (sameTasks_wakeAll _ _)

theorem sameTasks_exchange (s : Simulation) (r : LedgerRequest) :
    s.SameTasks (s.exchange r).2 := by
  have hledger : s.SameTasks { s with ledger := (s.ledger.request r).2 } :=
    ⟨rfl, rfl, rfl, rfl, rfl, rfl⟩
  unfold exchange
  dsimp only
  split
  · exact hledger
  · split
    · split
      · exact hledger
      · exact ⟨rfl, rfl, rfl, rfl, rfl, rfl⟩
    · exact hledger

/-! ### What a node starts -/

/-- A new task has a number of its own. -/
theorem spares_add (h : s.Ordered) (hfresh : ∀ id, s.taskCount ≤ id → P id) {t : Task}
    (ht : t.stage = .idle) :
    s.Spares P { s with
      tasks := s.tasks.insert s.taskCount t
      taskCount := s.taskCount + 1
      started := s.started ++ [s.taskCount] } where
  ordered := by
    refine ⟨h.numbered, fun id t' ht' => ?_, fun id r hr => Nat.lt_succ_of_lt (h.finished id r hr)⟩
    by_cases hid : id = s.taskCount
    · exact hid ▸ Nat.lt_succ_self _
    · rw [SortedMap.get?_insert_of_ne hid] at ht'
      exact Nat.lt_succ_of_lt (h.known id t' ht')
  fresh := hfresh
  count := Nat.le_succ _
  tasks id _ hid := SortedMap.get?_insert_of_ne (Nat.ne_of_lt hid)
  idle id t' hid ht' := by
    by_cases hnew : id = s.taskCount
    · rw [hnew, SortedMap.get?_insert_self, Option.some.injEq] at ht'
      exact ht' ▸ ht
    · rw [SortedMap.get?_insert_of_ne hnew] at ht'
      exact absurd (h.known id t' ht') (Nat.not_lt.mpr hid)
  results _ _ := rfl
  config := rfl
  clock := .refl h.numbered
  held _ hh := Or.inl hh

theorem spares_spawn (h : s.Ordered) (hfresh : ∀ id, s.taskCount ≤ id → P id) (program : Program)
    (label? : Option Nat) : s.Spares P (s.spawn program label?) :=
  spares_add h hfresh rfl

theorem spares_perform (h : s.Ordered) (hfresh : ∀ id, s.taskCount ≤ id → P id) (d : Duty) :
    s.Spares P (s.perform d) := by
  have hsame : ∀ s', s.SameTasks s' → s.Spares P s' := fun s' hsame => hsame.spares h hfresh
  cases d with
  | act a =>
      cases a with
      | send recipient m => exact hsame _ ⟨rfl, rfl, rfl, rfl, rfl, rfl⟩
      | call c => exact spares_spawn h hfresh _ _
      | report r => exact hsame _ ⟨rfl, rfl, rfl, rfl, rfl, rfl⟩
  | join tokenNetwork partner deposit => exact spares_spawn h hfresh _ _
  | retry tokenNetwork => exact spares_spawn h hfresh _ _

theorem spares_follow (h : s.Ordered) (hfresh : ∀ id, s.taskCount ≤ id → P id)
    {step : Node × List Duty} (hconfig : step.1.config = s.node.config) :
    s.Spares P (s.follow step) := by
  have hduties : ∀ (duties : List Duty) (s : Simulation), s.Ordered →
      (∀ id, s.taskCount ≤ id → P id) → s.Spares P (duties.foldl perform s) := by
    intro duties
    induction duties with
    | nil => exact fun s h hfresh => .refl h hfresh
    | cons d rest ih =>
        intro s h hfresh
        have hfirst := spares_perform h hfresh d
        exact hfirst.trans (ih _ hfirst.ordered hfirst.fresh')
  have hnode : s.Spares P { s with node := step.1 } :=
    SameTasks.spares ⟨rfl, rfl, rfl, hconfig, rfl, rfl⟩ h hfresh
  exact hnode.trans (hduties step.2 _ hnode.ordered hnode.fresh')

theorem spares_react (h : s.Ordered) (hfresh : ∀ id, s.taskCount ≤ id → P id) (w : Watcher)
    (height : Height) (next : Nat) : s.Spares P (s.react w height next).world := by
  cases w with
  | node => exact spares_follow h hfresh (s.node.config_advance height)
  | scripted name script =>
      cases script with
      | nil => exact SameTasks.spares ⟨rfl, rfl, rfl, rfl, rfl, rfl⟩ h hfresh
      | cons line rest => exact SameTasks.spares ⟨rfl, rfl, rfl, rfl, rfl, rfl⟩ h hfresh

/-- Watchers may start tasks. -/
theorem spares_observe (h : s.Ordered) (hfresh : ∀ id, s.taskCount ≤ id → P id) (height : Height) :
    s.Spares P (s.observe height) := by
  have hworld : s.Spares P (s.monitor.observe react s height).2.1 := by
    unfold Monitor.observe
    split
    · exact .refl h hfresh
    · refine Monitor.invoke_world (R := fun (s s' : Simulation) => s.Ordered →
        (∀ id, s.taskCount ≤ id → P id) → s.Spares P s') (fun _ => Spares.refl)
        (fun s₁ s₂ s₃ h₁ h₂ hordered hnew => ?_)
        (fun s w height next h hfresh => spares_react h hfresh w height next) _ _ _ _ h hfresh
      have hfirst := h₁ hordered hnew
      exact hfirst.trans (h₂ hfirst.ordered hfirst.fresh')
  exact hworld.then ⟨rfl, rfl, rfl, rfl, rfl, rfl⟩

theorem spares_note (h : s.Ordered) (hfresh : ∀ id, s.taskCount ≤ id → P id) (e : WatchEvent) :
    s.Spares P (s.note e) := by
  cases e with
  | height height => exact spares_observe h hfresh height
  | _ => exact SameTasks.spares ⟨rfl, rfl, rfl, rfl, rfl, rfl⟩ h hfresh

/-- The end of a wait concerns no other task, and may start some. -/
theorem spares_resume (h : s.Ordered) (hfresh : ∀ id, s.taskCount ≤ id → P id) (p : Program)
    (w : Wake) : s.Spares P (s.resume p w).1 := by
  cases p with
  | sleep n => cases w <;> exact .refl h hfresh
  | operate tokenNetwork phase =>
      have hnode : ∀ m, s.SameTasks { s with node := s.node.withMembership tokenNetwork m } :=
        fun _ => ⟨rfl, rfl, rfl, rfl, rfl, rfl⟩
      refine SameTasks.spares ?_ h hfresh
      unfold resume
      dsimp only
      split
      · exact (hnode _).trans (sameTasks_release _ tokenNetwork)
      · exact hnode _
  | watch state =>
      unfold resume
      dsimp only
      cases (state.resume w).2 with
      | none => exact .refl h hfresh
      | some e => exact spares_note h hfresh e
  | _ => exact .refl h hfresh

end Spares

/-! ### Who counts the ticks of which stream -/

/-- The task waits for ticks of the stream. -/
def Counts (t : Task) (stream : Nat) : Prop :=
  (∃ left, t.stage = .counting stream left) ∧ ∀ r, t.program ≠ .ended r

/-- Tasks and streams are numbered, every task that counts ticks reads its stream, and what is
    held outside has no reader. -/
structure Sound (s : Simulation) : Prop where
  ordered : s.Ordered
  reads : ∀ id t stream, s.tasks.get? id = some t → Counts t stream → s.clock.Reads id stream
  held : ∀ h ∈ s.held, s.clock.IsHeld h.2

/-- What a move of one task does: the others are left alone, and if the task counts ticks then it
    reads its stream. -/
structure Works (k : Nat) (s s' : Simulation) : Prop where
  spares : s.Spares (· ≠ k) s'
  reads : ∀ t stream, s'.tasks.get? k = some t → Counts t stream → s'.clock.Reads k stream

theorem sound_fresh (c : NodeConfig) (height : Height) : (fresh c height).Sound := by
  have hstreams (stream : Nat) : (fresh c height).clock.streams.get? stream = none := rfl
  have htasks (id : Nat) : (fresh c height).tasks.get? id = none := rfl
  have hresults (id : Nat) : (fresh c height).results.get? id = none := rfl
  refine ⟨⟨fun stream r h => ?_, fun id t h => ?_, fun id r h => ?_⟩, fun id t stream h _ => ?_,
    fun h hh => absurd hh List.not_mem_nil⟩
  · cases (hstreams stream).symm.trans h
  · cases (htasks id).symm.trans h
  · cases (hresults id).symm.trans h
  · cases (htasks id).symm.trans h

section Works

variable {s s' : Simulation} {k : Nat} {t : Task}

theorem Sound.of_spares (h : s.Sound) (hspares : s.Spares (fun _ => True) s') : s'.Sound where
  ordered := hspares.ordered
  reads id t stream ht hcounts := by
    by_cases hid : id < s.taskCount
    · rw [hspares.tasks id trivial hid] at ht
      exact hspares.clock.reads id stream trivial (h.reads id t stream ht hcounts)
    · obtain ⟨⟨left, hstage⟩, -⟩ := hcounts
      rw [hspares.idle id t (Nat.le_of_not_lt hid) ht] at hstage
      cases hstage
  held hh hmem := (hspares.held hh hmem).elim
    (fun hmem => hspares.clock.held hh.2 (h.held hh hmem)) id

theorem Sound.of_works (h : s.Sound) (hworks : s.Works k s') : s'.Sound where
  ordered := hworks.spares.ordered
  reads id t stream ht hcounts := by
    by_cases hk : id = k
    · subst hk
      exact hworks.reads t stream ht hcounts
    · by_cases hid : id < s.taskCount
      · rw [hworks.spares.tasks id hk hid] at ht
        exact hworks.spares.clock.reads id stream hk (h.reads id t stream ht hcounts)
      · obtain ⟨⟨left, hstage⟩, -⟩ := hcounts
        rw [hworks.spares.idle id t (Nat.le_of_not_lt hid) ht] at hstage
        cases hstage
  held hh hmem := (hworks.spares.held hh hmem).elim
    (fun hmem => hworks.spares.clock.held hh.2 (h.held hh hmem)) id

/-- A task that is there is older than those that are not. -/
theorem Sound.fresh_ne (h : s.Sound) (ht : s.tasks.get? k = some t) :
    ∀ id, s.taskCount ≤ id → id ≠ k := by
  rintro id hid rfl
  exact absurd (h.ordered.known id t ht) (Nat.not_lt.mpr hid)

theorem Spares.put (h : s.Spares (· ≠ k) s') (t : Task) : s.Spares (· ≠ k) (s'.put k t) := by
  have hk : k < s'.taskCount := Nat.lt_of_not_le (fun hle => h.fresh' k hle rfl)
  refine h.trans ?_
  refine ⟨⟨h.ordered.numbered, fun id t' ht' => ?_, h.ordered.finished⟩, h.fresh', Nat.le_refl _,
    fun id hid _ => ?_, fun id t' hid ht' => ?_, fun _ _ => rfl, rfl, .refl h.ordered.numbered,
    fun _ hmem => Or.inl hmem⟩
  · by_cases hid : id = k
    · exact hid ▸ hk
    · rw [Simulation.put, SortedMap.get?_insert_of_ne hid] at ht'
      exact h.ordered.known id t' ht'
  · exact SortedMap.get?_insert_of_ne hid
  · have hne : id ≠ k := h.fresh' id hid
    rw [Simulation.put, SortedMap.get?_insert_of_ne hne] at ht'
    exact absurd (h.ordered.known id t' ht') (Nat.not_lt.mpr hid)

/-- A task does not count ticks. -/
theorem Spares.works_put (h : s.Spares (· ≠ k) s')
    (hcounts : ∀ stream, Counts t stream → s'.clock.Reads k stream) :
    s.Works k (s'.put k t) where
  spares := h.put t
  reads t' stream ht' hcounts' := by
    rw [Simulation.put, SortedMap.get?_insert_self, Option.some.injEq] at ht'
    exact hcounts stream (ht' ▸ hcounts')

theorem Works.then {s'' : Simulation} (h : s.Works k s') (hsame : s'.SameTasks s'') :
    s.Works k s'' where
  spares := h.spares.then hsame
  reads t stream ht hcounts := by
    rw [hsame.tasks] at ht
    rw [hsame.clock]
    exact h.reads t stream ht hcounts

theorem not_counts_idle {program : Program} {label? : Option Nat} {isClient : Bool}
    {stream : Nat} : ¬ Counts ⟨program, .idle, label?, isClient⟩ stream :=
  fun h => nomatch h.1.choose_spec

theorem Spares.works_proceed (h : s.Spares (· ≠ k) s') (t : Task) (w : Wake) :
    s.Works k (s'.proceed k t w) :=
  (h.trans (spares_resume h.ordered h.fresh' t.program w)).works_put
    (fun _ hcounts => absurd hcounts not_counts_idle)

/-- A task that does not move stays as it is. -/
theorem Sound.works_of_same (h : s.Sound) (ht : s.tasks.get? k = some t) (hsame : s.SameTasks s') :
    s.Works k s' where
  spares := hsame.spares h.ordered (h.fresh_ne ht)
  reads t' stream ht' hcounts := by
    rw [hsame.tasks] at ht'
    rw [hsame.clock]
    exact h.reads k t' stream ht' hcounts

theorem sameTasks_nudge (s : Simulation) (stream : Nat) : s.SameTasks (s.nudge stream) := by
  unfold nudge
  split
  · exact s.sameTasks_wake .clock
  · exact .refl s

theorem spares_readTick {P : Nat → Prop} (h : s.Ordered) (hfresh : ∀ id, s.taskCount ≤ id → P id)
    (stream : Nat) : s.Spares P (s.readTick stream) := by
  have hread : s.Spares P { s with clock := s.clock.read stream } :=
    .of_clock h hfresh rfl rfl rfl rfl (Clock.spares_read h.numbered stream)
      (fun _ hmem => Or.inl hmem)
  exact hread.then (sameTasks_nudge _ stream)

theorem spares_dropStream {P : Nat → Prop} (h : s.Ordered)
    (hfresh : ∀ id, s.taskCount ≤ id → P id) {stream : Nat}
    (hunread : ∀ task, P task → ¬ s.clock.Reads task stream) :
    s.Spares P (s.dropStream stream) := by
  have hdrop : s.Spares P { s with clock := s.clock.drop stream } :=
    .of_clock h hfresh rfl rfl rfl rfl (Clock.spares_drop h.numbered hunread)
      (fun _ hmem => Or.inl hmem)
  exact hdrop.then (sameTasks_nudge _ stream)

/-- The reader of a stream drops it, or lets others hold it. -/
theorem Sound.unread (h : s.clock.Reads k stream) :
    ∀ task, task ≠ k → ¬ s.clock.Reads task stream :=
  fun _ hne hreads => hne (hreads.eq h)

/-- A task that is over is not there any more. -/
theorem Spares.works_finish (h : s.Spares (· ≠ k) s') (t : Task) (r : TaskResult) :
    s.Works k (s'.finish k t r) := by
  have hover : s.Works k { s' with
      tasks := s'.tasks.erase k
      results := s'.results.insert k r
      done := s'.done ++ (t.label?.map fun label => (label, r)).toList
      current? := none
      turnsLeft := 0 } := by
    refine ⟨h.trans ⟨⟨h.ordered.numbered, fun id t' ht' => ?_, fun id r' hr' => ?_⟩, h.fresh',
      Nat.le_refl _, fun id hid _ => SortedMap.get?_erase_of_ne hid, fun id t' hid ht' => ?_,
      fun id hid => SortedMap.get?_insert_of_ne hid, rfl, .refl h.ordered.numbered,
      fun _ hmem => Or.inl hmem⟩, fun t' stream ht' => ?_⟩
    · exact h.ordered.known id t' (SortedMap.get?_of_get?_erase ht')
    · by_cases hid : id = k
      · exact Nat.lt_of_not_le (fun hle => h.fresh' id hle hid)
      · exact h.ordered.finished id r' ((SortedMap.get?_insert_of_ne hid).symm.trans hr')
    · exact absurd (h.ordered.known id t' (SortedMap.get?_of_get?_erase ht')) (Nat.not_lt.mpr hid)
    · exact absurd ht' (by simp)
  have hwoken := hover.then (sameTasks_wakeAll _ (s'.followers k))
  unfold finish
  dsimp only
  split
  · -- One client less does not matter to the streams.
    refine Works.then ?_ (sameTasks_wake _ .clock)
    refine ⟨hwoken.spares.trans (.of_clock hwoken.spares.ordered hwoken.spares.fresh' rfl rfl rfl
      rfl ?_ (fun _ hmem => Or.inl hmem)), hwoken.reads⟩
    exact Clock.spares_of_streams hwoken.spares.ordered.numbered rfl id
  · exact hwoken

end Works

section Moves

variable {s : Simulation} {k : Nat} {t : Task}

theorem Sound.spares_same {s' : Simulation} (h : s.Sound) (ht : s.tasks.get? k = some t)
    (hsame : s.SameTasks s') : s.Spares (· ≠ k) s' :=
  hsame.spares h.ordered (h.fresh_ne ht)

/-- A task that does not count ticks yet may be put in place of one that moves. -/
theorem Sound.works_put {s' : Simulation} (h : s.Sound) (ht : s.tasks.get? k = some t)
    (hsame : s.SameTasks s') {t' : Task} (hcounts : ∀ stream, ¬ Counts t' stream) :
    s.Works k (s'.put k t') :=
  (h.spares_same ht hsame).works_put (fun stream hc => absurd hc (hcounts stream))

theorem Sound.works_endWatch (h : s.Sound) (ht : s.tasks.get? k = some t)
    (hwatch : ∃ w, t.program = .watch w) : s.Works k (s.endWatch k t) := by
  obtain ⟨w, hw⟩ := hwatch
  have hstops : ∀ s', s.SameTasks s' → s.Works k (s'.finish k t .stopped) :=
    fun s' hsame => (h.spares_same ht hsame).works_finish t .stopped
  have hdrops : ∀ s' stream left, t.stage = .counting stream left → s.SameTasks s' →
      s.Works k ((s'.dropStream stream).finish k t .stopped) := by
    intro s' stream left hstage hsame
    have hspares := h.spares_same ht hsame
    have hreads : s'.clock.Reads k stream := by
      rw [hsame.clock]
      exact h.reads k t stream ht ⟨⟨left, hstage⟩, by simp [hw]⟩
    exact (hspares.trans (spares_dropStream hspares.ordered hspares.fresh'
      (Sound.unread hreads))).works_finish t .stopped
  have hheads (stream : Nat) : s.SameTasks (s.changeHeads stream fun h =>
      { h with hasReader := false }) := sameTasks_changeHeads s _ _
  unfold endWatch
  split
  · split
    · rename_i stream left hstage
      exact hdrops _ stream left hstage (hheads _)
    · exact hstops _ (hheads _)
  · split
    · rename_i stream left hstage
      exact hdrops s stream left hstage (.refl s)
    · exact hstops s (.refl s)

theorem not_counts_ended {r : TaskResult} {stage : Stage} {label? : Option Nat} {isClient : Bool}
    {stream : Nat} : ¬ Counts ⟨.ended r, stage, label?, isClient⟩ stream :=
  fun h => h.2 r rfl

theorem Sound.works_streamOpened (h : s.Sound) (ht : s.tasks.get? k = some t) {stream : Nat}
    (left : Nat) (hreads : s.clock.Reads k stream) :
    s.Works k (s.streamOpened k t stream left) := by
  have hdrop : s.Spares (· ≠ k) (s.dropStream stream) :=
    spares_dropStream h.ordered (h.fresh_ne ht) (Sound.unread hreads)
  unfold streamOpened
  split
  · have hheld : s.Spares (· ≠ k) { s with
        clock := s.clock.hold stream
        held := s.held ++ [(t.label?.getD 0, stream)] } := by
      refine .of_clock h.ordered (h.fresh_ne ht) rfl rfl rfl rfl
        (Clock.spares_hold h.ordered.numbered (Sound.unread hreads)) (fun hh hmem => ?_)
      rcases List.mem_append.mp hmem with hmem | hmem
      · exact Or.inl hmem
      · -- The stream that is handed over has no reader any more.
        obtain ⟨r, hr, -⟩ := hreads
        rw [List.mem_singleton.mp hmem]
        exact Or.inr ⟨_, (SortedMap.get?_adjust_self ..).trans (by rw [hr, Option.map_some]), rfl⟩
    exact hheld.works_put (fun _ hcounts => absurd hcounts not_counts_ended)
  · split
    · exact hdrop.works_proceed t _
    · split
      · -- Its own tick is taken, and the stream stays its own.
        have hread := spares_readTick (P := fun _ => True) h.ordered (fun _ _ => trivial) stream
        have hothers := spares_readTick (P := (· ≠ k)) h.ordered (h.fresh_ne ht) stream
        refine hothers.works_put (fun other hcounts => ?_)
        obtain ⟨⟨left', hstage'⟩, -⟩ := hcounts
        cases hstage'
        exact hread.clock.reads k _ trivial hreads
      · exact hdrop.works_proceed t _
      · refine Works.then ?_ (sameTasks_yield _)
        exact (h.spares_same ht (.refl s)).works_put
          (fun other hcounts => h.reads k t other ht hcounts)

theorem Sound.works_count (h : s.Sound) (ht : s.tasks.get? k = some t) {stream : Nat}
    (left : Nat) (hreads : s.clock.Reads k stream) : s.Works k (s.count k t stream left) := by
  have hspares := h.spares_same ht (.refl s)
  unfold count
  split
  · split
    · refine Works.then ?_ (sameTasks_yield _)
      exact hspares.works_put (fun other hcounts => h.reads k t other ht hcounts)
    · split
      · exact hspares.works_put (fun _ hcounts => absurd hcounts not_counts_ended)
      · exact hspares.works_proceed t _
  · exact h.works_streamOpened ht left hreads

theorem Sound.works_ask (h : s.Sound) (ht : s.tasks.get? k = some t) (w : Want) :
    s.Works k (s.ask k t w) := by
  have hspares := h.spares_same ht (.refl s)
  have hyield : s.Works k s.yield := h.works_of_same ht (sameTasks_yield s)
  unfold ask
  cases w with
  | policy =>
      dsimp only
      split
      · split
        · refine Works.then ?_ (sameTasks_yield _)
          exact h.works_put ht (sameTasks_setGate s _ _) (fun _ hc => nomatch hc.1.choose_spec)
        · exact (h.spares_same ht (sameTasks_setGate s _ _)).works_proceed t _
      · exact hyield
  | ledger r => exact (h.spares_same ht (sameTasks_exchange s r)).works_proceed t _
  | ticks n =>
      dsimp only
      split
      · exact hspares.works_put (fun _ hcounts => absurd hcounts not_counts_ended)
      · exact hspares.works_proceed t _
      · rename_i stream clock hask
        -- The new stream is its own, since it was asked for in its name.
        obtain ⟨hclock, hreads⟩ := Clock.spares_ask (P := (· ≠ k)) h.ordered.numbered hask
        have hasked : s.Spares (· ≠ k) { s with clock := clock } :=
          .of_clock h.ordered (h.fresh_ne ht) rfl rfl rfl rfl hclock (fun _ hmem => Or.inl hmem)
        refine Works.then ?_ (sameTasks_yield _)
        refine (hasked.then (sameTasks_wake _ .clock)).works_put (fun other hcounts => ?_)
        obtain ⟨⟨left, hstage⟩, -⟩ := hcounts
        cases hstage
        rwa [(sameTasks_wake _ .clock).clock]
  | head stream =>
      dsimp only
      split
      · exact hspares.works_proceed t _
      · split
        · exact (h.spares_same ht (sameTasks_changeHeads s _ _)).works_proceed t _
        · split
          · exact hyield
          · exact (h.spares_same ht (sameTasks_changeHeads s _ _)).works_proceed t _
  | nothing => exact hyield

theorem Sound.works_tryGate (h : s.Sound) (ht : s.tasks.get? k = some t) (slot : Nat) :
    s.Works k (s.tryGate k t slot) := by
  unfold tryGate
  split
  · dsimp only
    split
    · exact h.works_of_same ht ((sameTasks_setGate s _ _).trans (sameTasks_yield _))
    · exact (h.spares_same ht (sameTasks_setGate s _ _)).works_proceed t _
  · exact h.works_of_same ht (sameTasks_yield s)

/-- A move of a task leaves the others alone. -/
theorem Sound.works_moveTask (h : s.Sound) (ht : s.tasks.get? k = some t) :
    s.Works k (s.moveTask k t) := by
  have hspares := h.spares_same ht (.refl s)
  have hyield : s.Works k s.yield := h.works_of_same ht (sameTasks_yield s)
  unfold moveTask
  split
  · rename_i hstop
    refine h.works_endWatch ht ?_
    unfold mustStop at hstop
    cases hprogram : t.program with
    | watch w => exact ⟨w, rfl⟩
    | _ => simp [hprogram] at hstop
  · split
    · exact hspares.works_finish t _
    · rename_i hresult
      -- Who has no result yet and counts has its stream, by the invariant.
      have hcounts : ∀ stream left, t.stage = .counting stream left →
          s.clock.Reads k stream := by
        intro stream left hstage
        refine h.reads k t stream ht ⟨⟨left, hstage⟩, fun r hr => ?_⟩
        rw [hr] at hresult
        cases hresult
      have hstays : ∀ (s' : Simulation) (t' : Task), s.SameTasks s' → t'.stage = t.stage →
          s.Works k (s'.put k t') := by
        intro s' t' hsame hstage
        refine (h.spares_same ht hsame).works_put (fun stream hc => ?_)
        obtain ⟨⟨left, hleft⟩, -⟩ := hc
        rw [hsame.clock]
        exact hcounts stream left (hstage ▸ hleft)
      split
      · rename_i tokenNetwork op _
        exact hstays _ _ ⟨rfl, rfl, rfl, s.node.config_manage tokenNetwork, rfl, rfl⟩ rfl
      · have hstopping : s.SameTasks { s with isStopping := true } := ⟨rfl, rfl, rfl, rfl, rfl, rfl⟩
        exact hstays _ _ (hstopping.trans (sameTasks_wake _ _)) rfl
      · split
        · exact hspares.works_put (fun _ hcounts => absurd hcounts not_counts_ended)
        · exact hyield
      · exact h.works_tryGate ht _
      · rename_i stream left hstage _ _ _
        exact h.works_count ht left (hcounts stream left hstage)
      · exact h.works_ask ht _

/-- A move of the clock leaves everybody alone. -/
theorem spares_moveClock {P : Nat → Prop} (h : s.Ordered)
    (hfresh : ∀ id, s.taskCount ≤ id → P id) : s.Spares P s.moveClock := by
  unfold moveClock
  split
  · exact (sameTasks_yield s).spares h hfresh
  · rename_i clock woken hmove
    have hclock : s.Spares P { s with clock := clock } :=
      .of_clock h hfresh rfl rfl rfl rfl (Clock.spares_move? h.numbered hmove)
        (fun _ hmem => Or.inl hmem)
    have hwoken := hclock.then (sameTasks_wakeAll _ woken)
    dsimp only
    split
    · exact hwoken
    · exact hwoken.then ⟨rfl, rfl, rfl, rfl, rfl, rfl⟩

end Moves

end Simulation

end PaymentNetwork

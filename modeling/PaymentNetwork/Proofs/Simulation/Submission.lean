import PaymentNetwork.Proofs.Simulation.Waits

/-!
# A Call That Gets Through Once

Everything that making a call comes to, whatever the ledger answers and however the clock ticks.

A call to the ledger is made again and again until it is done, and two things must not happen:
that it is made once more after it was done, and that it is made after its deadline. Both are
kept because each attempt starts with a look at the height, and because of what follows what. So
the law says, for each kind of wait and each end of it, what comes next: another wait of a certain
kind, or the result. Nothing else is ever waited for, and a result has no other cause.

That the call was done is then the same as that one of the calls that were made succeeded, since
the first success is the last wait. How often the others failed does not matter, and neither does
whether the heights go up: a height that was too large ends the matter even if the next one would
not be.

The pause between two attempts is the only place where the clock comes in. As long as it runs, all
the ticks of a pause pass. If it ends during a pause, the pause is cut short and there is one more
attempt; after this, or if the clock ended before the pause, there is no other.

## Main definitions

* `Wait.IsReading`, `Wait.IsCall`, `Wait.IsPause`: The kinds of waits.
* `Wait.Decides`: A wait settles what a call comes to.
* `SubmissionLaw`: What follows what.

## Theorems

* `Course.step`: Each wait takes a call from place to place.
* `Course.submissionLaw`: A course of a call keeps to the law.
* `through_submissionLaw`: The law for every call that is made in any simulation.
-/

namespace PaymentNetwork

namespace Submission

/-- No call is a look at the height. -/
theorem request_ne_currentHeight (call : ChainCall) : call.request ≠ .currentHeight := by
  cases call <;> nofun

variable {call : ChainCall} {pause : Count} {s : Submission}

theorem eq_readingHeight (h : s.wants call pause = .ledger .currentHeight) :
    s = readingHeight := by
  cases s with
  | readingHeight => rfl
  | calling => exact absurd (Want.ledger.inj h) (request_ne_currentHeight call)
  | _ => cases h

theorem eq_calling (h : s.wants call pause = .ledger call.request) : s = calling := by
  cases s with
  | readingHeight => exact absurd (Want.ledger.inj h).symm (request_ne_currentHeight call)
  | calling => rfl
  | _ => cases h

theorem eq_pausing {n : Count} (h : s.wants call pause = .ticks n) : s = pausing := by
  cases s with
  | pausing => rfl
  | _ => cases h

end Submission

namespace Simulation

namespace Wait

variable (call : ChainCall) (c : NodeConfig) (w : Wait)

/-- The wait for a height. -/
def IsReading : Prop := w.want = .ledger .currentHeight

/-- The wait for the call to be carried out. -/
def IsCall : Prop := w.want = .ledger call.request

/-- The wait between two attempts. -/
def IsPause : Prop := w.want = .ticks c.chainBackoffTicks

/-- The height that was read, if this was a reading and succeeded. -/
def height? : Option Height :=
  match w.want, w.wake with
  | .ledger .currentHeight, .answered (.ok (.height h)) => some h
  | _, _ => none

/-- Is it a call that was carried out? -/
def isSuccess : Bool :=
  decide (w.want = .ledger call.request) && match w.wake with
    | .answered (.ok _) => true
    | _ => false

/-- It is a call into a channel that does not exist. -/
def IsRefusal : Prop := w.IsCall call ∧ w.wake = .answered (.error .channelNotFound)

/-- A reading or a call failed, and this does not end the matter. -/
def Fails : Prop :=
  (w.IsReading ∧ w.height? = none) ∨
    (w.IsCall call ∧ ∃ e, w.wake = .answered (.error e) ∧ e ≠ .channelNotFound)

/-- The wait settles what the call comes to. -/
def Decides : TaskResult → Prop
  | .submitted => w.isSuccess call = true
  | .notSubmitted .deadlinePassed => ∃ h, w.height? = some h ∧ call.deadline < h
  | .notSubmitted (.ledger e) => e = .channelNotFound ∧ w.IsRefusal call
  | .notSubmitted .clockStopped => w.IsPause c ∧ w.wake = .ticked false
  | _ => False

/-- The wait leads from one place to another. -/
inductive Leads : Submission → Submission → Prop where
  | attempt {h : Height} : w.height? = some h → h ≤ call.deadline → Leads .readingHeight .calling
  | late {h : Height} : w.height? = some h → call.deadline < h →
    Leads .readingHeight (.failed .deadlinePassed)
  | unread : w.IsReading → w.height? = none → Leads .readingHeight .pausing
  | success : w.isSuccess call = true → Leads .calling .done
  | refusal : w.IsRefusal call → Leads .calling (.failed (.ledger .channelNotFound))
  | failure {e : LedgerError} : w.IsCall call → w.wake = .answered (.error e) →
    e ≠ .channelNotFound → Leads .calling .pausing
  | pause : w.IsPause c → w.wake = .ticked true → Leads .pausing .readingHeight
  | stopped : w.IsPause c → w.wake = .ticked false → Leads .pausing (.failed .clockStopped)

end Wait

/-- What follows what while a call is made. -/
structure SubmissionLaw (c : NodeConfig) (call : ChainCall) (waits : List Wait)
    (outcome? : Option TaskResult) : Prop where
  kinds : ∀ w ∈ waits, w.IsReading ∨ w.IsCall call ∨ w.IsPause c
  start : GoesOn Wait.IsReading waits outcome?
  /-- A call is made right after a height up to the deadline was read. -/
  made : ∀ before w later, waits = before ++ w :: later → w.IsCall call →
    ∃ earlier v h, before = earlier ++ [v] ∧ v.height? = some h ∧ h ≤ call.deadline
  attempt : ∀ before w later h, waits = before ++ w :: later → w.height? = some h →
    h ≤ call.deadline → GoesOn (Wait.IsCall call) later outcome?
  late : ∀ before w later h, waits = before ++ w :: later → w.height? = some h →
    call.deadline < h → EndsWith (.notSubmitted .deadlinePassed) later outcome?
  success : ∀ before w later, waits = before ++ w :: later → w.isSuccess call = true →
    EndsWith .submitted later outcome?
  refusal : ∀ before w later, waits = before ++ w :: later → w.IsRefusal call →
    EndsWith (.notSubmitted (.ledger .channelNotFound)) later outcome?
  failure : ∀ before w later, waits = before ++ w :: later → w.Fails call →
    GoesOn (Wait.IsPause c) later outcome?
  /-- A pause ends with another attempt, or since there is no clock. -/
  pause : ∀ before w later, waits = before ++ w :: later → w.IsPause c →
    (w.wake = .ticked true ∧ GoesOn Wait.IsReading later outcome?) ∨
      (w.wake = .ticked false ∧ w.state.clock.isRunning = false ∧
        EndsWith (.notSubmitted .clockStopped) later outcome?)
  /-- All ticks of a pause pass as long as the clock runs. -/
  ticks : ∀ w ∈ waits, w.IsPause c → w.ticks ≤ c.chainBackoffTicks.val ∧
    (w.state.clock.isRunning = true → w.ticks = c.chainBackoffTicks.val)
  /-- After a wait during which the clock ended no pause leads to an attempt. -/
  stopped : ∀ before w later, waits = before ++ w :: later → w.state.clock.isRunning = false →
    ∀ v ∈ later, v.wake ≠ .ticked true
  result : ∀ r, outcome? = some r → ∃ before w, waits = before ++ [w] ∧ w.Decides call c r
  once : waits.countP (Wait.isSuccess call) ≤ 1
  submitted : outcome? = some .submitted ↔ waits.countP (Wait.isSuccess call) = 1

section Courses

variable {c : NodeConfig} {call : ChainCall} {first s : Submission} {p : Program}
  {before later waits : List Wait} {w : Wait}

/-- Each wait takes a call from place to place. -/
theorem Course.submission (h : Course c (.submit call first) waits p) :
    ∃ s, p = .submit call s := by
  induction h with
  | start => exact ⟨first, rfl⟩
  | wait _ _ ih =>
      obtain ⟨s, rfl⟩ := ih
      exact ⟨_, rfl⟩

theorem Course.step (h : Course c (.submit call first) (before ++ w :: later) p) :
    ∃ s, Course c (.submit call first) before (.submit call s) ∧
      w.Follows c before (.submit call s) ∧
      Course c (.submit call (s.resume call w.wake)) later p := by
  obtain ⟨q, hbefore, hfollows, hlater⟩ := h.split
  obtain ⟨s, rfl⟩ := hbefore.submission
  exact ⟨s, hbefore, hfollows, hlater⟩

theorem Course.reads (h : Course c (.submit call .readingHeight) waits p) :
    GoesOn Wait.IsReading waits p.result? :=
  (h.goesOn rfl).imp_right (fun ⟨w, rest, hw, hfollows⟩ => ⟨w, rest, hw, hfollows.want⟩)

theorem Course.calls (h : Course c (.submit call .calling) waits p) :
    GoesOn (Wait.IsCall call) waits p.result? :=
  (h.goesOn rfl).imp_right (fun ⟨w, rest, hw, hfollows⟩ => ⟨w, rest, hw, hfollows.want⟩)

theorem Course.pauses (h : Course c (.submit call .pausing) waits p) :
    GoesOn (Wait.IsPause c) waits p.result? :=
  (h.goesOn rfl).imp_right (fun ⟨w, rest, hw, hfollows⟩ => ⟨w, rest, hw, hfollows.want⟩)

theorem Wait.height?_eq_some_iff {h : Height} :
    w.height? = some h ↔ w.IsReading ∧ w.wake = .answered (.ok (.height h)) := by
  obtain ⟨want, wake, ticks, state⟩ := w
  unfold height? IsReading
  constructor
  · intro hheight
    split at hheight
    · rename_i h' hwant hwake
      cases hheight
      exact ⟨hwant, hwake⟩
    · cases hheight
  · rintro ⟨hwant, hwake⟩
    dsimp only at hwant hwake ⊢
    rw [hwant, hwake]

theorem Wait.isSuccess_iff :
    w.isSuccess call = true ↔ w.IsCall call ∧ ∃ a, w.wake = .answered (.ok a) := by
  unfold isSuccess IsCall
  rw [Bool.and_eq_true, decide_eq_true_eq]
  refine and_congr_right fun _ => ?_
  split
  · rename_i a hwake
    exact ⟨fun _ => ⟨a, hwake⟩, fun _ => rfl⟩
  · rename_i hwake
    exact ⟨nofun, fun ⟨a, ha⟩ => absurd ha (hwake a)⟩

/-- A reading is made at one place only, and so is each other kind of wait. -/
theorem Wait.Follows.reading (h : w.Follows c before (.submit call s)) (hw : w.IsReading) :
    s = .readingHeight :=
  Submission.eq_readingHeight (h.want.symm.trans hw)

theorem Wait.Follows.calling (h : w.Follows c before (.submit call s)) (hw : w.IsCall call) :
    s = .calling :=
  Submission.eq_calling (h.want.symm.trans hw)

theorem Wait.Follows.pausing (h : w.Follows c before (.submit call s)) (hw : w.IsPause c) :
    s = .pausing :=
  Submission.eq_pausing (h.want.symm.trans hw)

/-- All that one wait can lead to. -/
theorem Wait.Follows.leads (h : w.Follows c before (.submit call s)) :
    w.Leads call c s (s.resume call w.wake) := by
  have hwant : w.want = s.wants call c.chainBackoffTicks := h.want
  have hends := h.ends
  rw [hwant] at hends
  cases s with
  | readingHeight =>
      have hreading : w.IsReading := hwant
      cases hwake : w.wake with
      | answered answer =>
          -- Whatever is no height leaves the height unread.
          have hunread : (∀ height, answer ≠ .ok (.height height)) → w.height? = none := by
            intro hother
            cases hheight : w.height? with
            | none => rfl
            | some height =>
                have hwake' := (height?_eq_some_iff.mp hheight).2
                rw [hwake, Wake.answered.injEq] at hwake'
                exact absurd hwake' (hother height)
          cases answer with
          | error e => exact .unread hreading (hunread nofun)
          | ok a =>
              cases a with
              | height height =>
                  have hread := height?_eq_some_iff.mpr ⟨hreading, hwake⟩
                  unfold Submission.resume
                  dsimp only
                  split
                  · -- At the deadline itself the call is still in time.
                    rename_i hlate
                    exact .late hread hlate
                  · rename_i hearly
                    exact .attempt hread (Word.not_lt.mp hearly)
              | _ => exact .unread hreading (hunread nofun)
      | _ =>
          rw [hwake] at hends
          cases hends
  | calling =>
      have hcall : w.IsCall call := hwant
      cases hwake : w.wake with
      | answered answer =>
          cases answer with
          | ok a => exact .success (isSuccess_iff.mpr ⟨hcall, a, hwake⟩)
          | error e =>
              cases e with
              | channelNotFound => exact .refusal ⟨hcall, hwake⟩
              | _ => exact .failure hcall hwake nofun
      | _ =>
          rw [hwake] at hends
          cases hends
  | pausing =>
      have hpause : w.IsPause c := hwant
      cases hwake : w.wake with
      | ticked ok =>
          cases ok with
          | true => exact .pause hpause hwake
          | false => exact .stopped hpause hwake
      | _ =>
          rw [hwake] at hends
          cases hends
  -- The other two want nothing, so no wait ends in them.
  | done => cases hwake : w.wake <;> (rw [hwake] at hends; cases hends)
  | failed e => cases hwake : w.wake <;> (rw [hwake] at hends; cases hends)

/-- A call is only made after a height up to the deadline was read. -/
theorem Course.reading_of_calling
    (h : Course c (.submit call .readingHeight) waits (.submit call .calling)) :
    ∃ earlier v height, waits = earlier ++ [v] ∧ v.height? = some height ∧
      height ≤ call.deadline := by
  generalize hp : Program.submit call .calling = p at h
  cases h with
  | start => cases hp
  | @wait earlier q v hcourse hfollows =>
      obtain ⟨s, rfl⟩ := hcourse.submission
      have hleads := hfollows.leads
      rw [← (Program.submit.inj hp).2] at hleads
      -- Of all that a wait leads to, only one thing is a call.
      cases hleads with
      | attempt hread hdeadline => exact ⟨earlier, v, _, rfl, hread, hdeadline⟩

/-- What a call came to was settled by its last wait. -/
theorem Course.decided (h : Course c (.submit call .readingHeight) waits p) {r : TaskResult}
    (hresult : p.result? = some r) :
    ∃ before w, waits = before ++ [w] ∧ w.Decides call c r := by
  cases h with
  | start => cases hresult
  | @wait before q w hcourse hfollows =>
      obtain ⟨s, rfl⟩ := hcourse.submission
      refine ⟨before, w, rfl, ?_⟩
      change (Program.submit call (s.resume call w.wake)).result? = some r at hresult
      have hleads := hfollows.leads
      -- What counts is where the last wait led, not which program it was.
      generalize s.resume call w.wake = s' at hleads hresult
      cases hleads with
      | late hread hdeadline =>
          cases hresult
          exact ⟨_, hread, hdeadline⟩
      | success hsuccess =>
          cases hresult
          exact hsuccess
      | refusal hrefusal =>
          cases hresult
          exact ⟨rfl, hrefusal⟩
      | stopped hpause hwake =>
          cases hresult
          exact ⟨hpause, hwake⟩
      | _ => cases hresult

/-- Only the last wait can be one that nothing follows. -/
theorem countP_le_one {α : Type} {f : α → Bool} {l : List α}
    (h : ∀ before a later, l = before ++ a :: later → f a = true → later = []) :
    l.countP f ≤ 1 := by
  cases hl : l.reverse with
  | nil => simp_all
  | cons a rest =>
      have hsplit : l = rest.reverse ++ [a] := by
        rw [← List.reverse_cons, ← hl, List.reverse_reverse]
      -- An element that passes ends the list, so there is none before the last.
      have hrest : rest.reverse.countP f = 0 := by
        rw [List.countP_eq_zero]
        intro b hb hfb
        obtain ⟨before, later, hsplit'⟩ := List.append_of_mem hb
        have := h before b (later ++ [a]) (by rw [hsplit, hsplit']; simp) hfb
        simp at this
      rw [hsplit, List.countP_append, hrest, Nat.zero_add]
      exact List.countP_le_length

/-- What follows a reading. -/
theorem Course.after_reading (h : Course c (.submit call .readingHeight) (before ++ w :: later) p)
    (hw : w.IsReading) :
    (∀ height, w.height? = some height → height ≤ call.deadline →
      GoesOn (Wait.IsCall call) later p.result?) ∧
    (∀ height, w.height? = some height → call.deadline < height →
      EndsWith (.notSubmitted .deadlinePassed) later p.result?) ∧
    (w.height? = none → GoesOn (Wait.IsPause c) later p.result?) := by
  obtain ⟨s, -, hfollows, hlater⟩ := h.step
  have hs := hfollows.reading hw
  subst hs
  have hleads := hfollows.leads
  generalize Submission.resume call .readingHeight w.wake = s' at hleads hlater
  cases hleads with
  | attempt hread hdeadline =>
      rw [hread]
      refine ⟨fun _ _ _ => hlater.calls, fun height hheight hlate => ?_, nofun⟩
      cases hheight
      exact absurd hdeadline (Word.not_le.mpr hlate)
  | late hread hdeadline =>
      rw [hread]
      refine ⟨fun height hheight hearly => ?_, fun _ _ _ => hlater.endsWith rfl rfl, nofun⟩
      cases hheight
      exact absurd hdeadline (Word.not_lt.mpr hearly)
  | unread _ hunread =>
      rw [hunread]
      exact ⟨nofun, nofun, fun _ => hlater.pauses⟩

/-- What follows a call. -/
theorem Course.after_call (h : Course c (.submit call .readingHeight) (before ++ w :: later) p)
    (hw : w.IsCall call) :
    (∀ a, w.wake = .answered (.ok a) → EndsWith .submitted later p.result?) ∧
    (w.wake = .answered (.error .channelNotFound) →
      EndsWith (.notSubmitted (.ledger .channelNotFound)) later p.result?) ∧
    (∀ e, w.wake = .answered (.error e) → e ≠ .channelNotFound →
      GoesOn (Wait.IsPause c) later p.result?) := by
  obtain ⟨s, -, hfollows, hlater⟩ := h.step
  have hs := hfollows.calling hw
  subst hs
  refine ⟨fun a hwake => ?_, fun hwake => ?_, fun e hwake he => ?_⟩
  · rw [hwake] at hlater
    exact hlater.endsWith rfl rfl
  · rw [hwake] at hlater
    exact hlater.endsWith rfl rfl
  · rw [hwake] at hlater
    -- The error for a missing channel is the one that is not tried again.
    cases e with
    | channelNotFound => exact absurd rfl he
    | _ => exact hlater.pauses

/-- What follows a pause. -/
theorem Course.after_pause (h : Course c (.submit call .readingHeight) (before ++ w :: later) p)
    (hw : w.IsPause c) :
    (w.wake = .ticked true ∧ GoesOn Wait.IsReading later p.result?) ∨
      (w.wake = .ticked false ∧ w.state.clock.isRunning = false ∧
        EndsWith (.notSubmitted .clockStopped) later p.result?) := by
  obtain ⟨s, -, hfollows, hlater⟩ := h.step
  have hs := hfollows.pausing hw
  subst hs
  have hleads := hfollows.leads
  generalize Submission.resume call .pausing w.wake = s' at hleads hlater
  cases hleads with
  | pause _ hwake => exact Or.inl ⟨hwake, hlater.reads⟩
  | stopped _ hwake =>
      refine Or.inr ⟨hwake, ?_, hlater.endsWith rfl rfl⟩
      -- With a clock that runs the pause would have got its ticks.
      by_contra hrunning
      have hticked := ((hfollows.ticks _ hw).2 (by simpa using hrunning)).1
      rw [hwake] at hticked
      cases hticked

theorem Course.kinds (h : Course c (.submit call .readingHeight) waits p) :
    ∀ w ∈ waits, w.IsReading ∨ w.IsCall call ∨ w.IsPause c := by
  intro w hw
  obtain ⟨before, later, rfl⟩ := List.append_of_mem hw
  obtain ⟨s, -, hfollows, -⟩ := h.step
  have hwant : w.want = s.wants call c.chainBackoffTicks := hfollows.want
  have hleads := hfollows.leads
  generalize s.resume call w.wake = s' at hleads
  cases s with
  | readingHeight => exact Or.inl hwant
  | calling => exact Or.inr (Or.inl hwant)
  | pausing => exact Or.inr (Or.inr hwant)
  | done => cases hleads
  | failed e => cases hleads

/-- A course of a call keeps to the law. -/
theorem Course.submissionLaw (h : Course c (.submit call .readingHeight) waits p) :
    SubmissionLaw c call waits p.result? := by
  have hsuccess : ∀ before w later, waits = before ++ w :: later → w.isSuccess call = true →
      EndsWith .submitted later p.result? := by
    rintro before w later rfl hw
    obtain ⟨hcall, a, hwake⟩ := Wait.isSuccess_iff.mp hw
    exact (h.after_call hcall).1 a hwake
  -- A success is the last wait, so there are no two of them.
  have honce := countP_le_one
    (fun before w later hsplit hw => (hsuccess before w later hsplit hw).1)
  constructor
  case kinds => exact h.kinds
  case start => exact h.reads
  case made =>
    rintro before w later rfl hw
    obtain ⟨s, hbefore, hfollows, -⟩ := h.step
    rw [hfollows.calling hw] at hbefore
    exact hbefore.reading_of_calling
  case attempt =>
    rintro before w later height rfl hread
    exact (h.after_reading (Wait.height?_eq_some_iff.mp hread).1).1 height hread
  case late =>
    rintro before w later height rfl hread
    exact (h.after_reading (Wait.height?_eq_some_iff.mp hread).1).2.1 height hread
  case success => exact hsuccess
  case refusal =>
    rintro before w later rfl ⟨hcall, hwake⟩
    exact (h.after_call hcall).2.1 hwake
  case failure =>
    rintro before w later rfl (⟨hreading, hunread⟩ | ⟨hcall, e, hwake, he⟩)
    · exact (h.after_reading hreading).2.2 hunread
    · exact (h.after_call hcall).2.2 e hwake he
  case pause =>
    rintro before w later rfl hw
    exact h.after_pause hw
  case ticks =>
    intro w hmem hw
    obtain ⟨before, later, rfl⟩ := List.append_of_mem hmem
    obtain ⟨s, -, hfollows, -⟩ := h.step
    obtain ⟨hle, hall⟩ := hfollows.ticks _ hw
    exact ⟨hle, fun hrunning => (hall hrunning).2⟩
  case stopped =>
    rintro before w later rfl hstopped
    exact h.stopped hstopped
  case result => exact fun r hresult => h.decided hresult
  case once => exact honce
  case submitted =>
    constructor
    · intro hresult
      obtain ⟨before, w, rfl, hw⟩ := h.decided hresult
      refine Nat.le_antisymm honce (List.countP_pos_iff.mpr ⟨w, ?_, hw⟩)
      exact List.mem_append_right _ List.mem_cons_self
    · -- Conversely, a success among the waits is followed by nothing but the result.
      intro hcount
      obtain ⟨w, hmem, hw⟩ := List.countP_pos_iff.mp (by rw [hcount]; exact Nat.one_pos)
      obtain ⟨before, later, hsplit⟩ := List.append_of_mem hmem
      exact (hsuccess before w later hsplit hw).2

end Courses

/-- Every call that is made keeps to the law, whatever happens around it, and does what its journal
    says. -/
theorem through_submissionLaw {c : NodeConfig} {height : Height} {before : List Act}
    {s : Simulation} (hs : (fresh c height).through before = s) {id : Nat} {t : Task}
    {call : ChainCall} (ht : s.tasks.get? id = some t)
    (hprogram : t.program = .submit call .readingHeight) (hidle : t.stage = .idle)
    (acts : List Act) :
    SubmissionLaw c call (s.journal id acts).waits ((s.through acts).outcome? id) ∧
      ∀ t', (s.through acts).mover? id .move = some t' → s.Turn id acts t' := by
  have hbegun : t.program.begun = .submit call .readingHeight := by rw [hprogram]; rfl
  have hstanding := standing_through hs ht hidle (by rw [hbegun]; rfl) acts
  rw [hbegun] at hstanding
  obtain ⟨p, -, hcourse, hstands⟩ := hstanding.place
  rw [hstands.outcome?_eq]
  exact ⟨hcourse.submissionLaw, fun t' hmover => hstanding.turn hmover⟩

namespace Retry

def call : ChainCall := .registerSecret ⟨List.replicate 32 7, rfl⟩ 10

/-- A call is made to a ledger that cannot be reached for it at first. -/
def before : List Act :=
  [.surround { fresh default 5 with
      ledger := { MemoryLedger.fresh 5 with script := [none, some .unreachable] } },
    .spawn (.submit call .readingHeight) none]

def start : Simulation := (fresh default 5).through before

/-- A tick passes after the first attempt. -/
def acts : List Act := List.replicate 14 .move ++ .tick :: List.replicate 14 .move

/-- There are two attempts, with a pause of one tick. -/
theorem through_submissionLaw_retry :
    start.tasks.get? 0 = some ⟨.submit call .readingHeight, .idle, none, false⟩ ∧
    (start.journal 0 acts).waits.map Wait.want = [.ledger .currentHeight, .ledger call.request,
      .ticks 1, .ledger .currentHeight, .ledger call.request] ∧
    SubmissionLaw default call (start.journal 0 acts).waits ((start.through acts).outcome? 0) :=
  ⟨rfl, rfl, (through_submissionLaw (rfl : (fresh default 5).through before = start)
    (t := ⟨.submit call .readingHeight, .idle, none, false⟩) rfl rfl rfl acts).1⟩

end Retry

end Simulation

end PaymentNetwork

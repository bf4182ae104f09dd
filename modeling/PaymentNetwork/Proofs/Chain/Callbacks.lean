import Mathlib.Data.List.Destutter
import PaymentNetwork.Chain.Monitor

/-!
# Who Is Told of a Height

What a monitor tells its callbacks, whatever they ask of it while they are told.

While callbacks run, their list is not where it usually is. What they register meanwhile
goes into a list that starts out empty, and what they remove is looked for there first. So
a removal has one of three meanings. It takes back a registration of the same round, or it
waits for the list that is away, or it names nobody, and which of them it is has to come out
right for every order in which callbacks ask for things.

It does, because identifiers are given out in increasing order. Those of the callbacks that
run lie below those of the round, so a removal that is found to wait concerns nobody who is
registered later, even if the identifier that it names is given out in the same round. Seen
from outside there is one list and no round at all. The callbacks of the list are told in
its order, each of them once. Then those leave it that failed or were removed, and those
join it that were registered and not removed afterwards.

An identifier is the number of the registrations before it. So 64 bits are enough for fewer
than `2 ^ 64` registrations.

## Main definitions

* `newcomers`: The callbacks that some requests register, and do not remove afterwards.
* `Monitor.Visit`, `Monitor.Consecutive`: One run of a callback, and runs one after the
  other.
* `MonitorInput`, `Monitor.run`: What happens to a monitor, and what becomes of it.
* `Monitor.Tells`, `Monitor.Asked`: What a round and a request come to.
* `Monitor.History`: The rounds of a run.
* `Monitor.CallbackLaw`: What a run keeps to.

## Theorems

* `Monitor.asked_foldl`: What requests come to, during a round and between two of them.
* `Monitor.exists_visits`: The callbacks of a round run one after the other.
* `Monitor.Settled.tells`: What a round comes to.
* `Monitor.run_callbackLaw`: The law for every run and all callbacks.
-/

namespace PaymentNetwork

variable {σ κ : Type}

/-! ### Requests -/

namespace MonitorRequest

/-- Does the request register a callback? -/
def registers : MonitorRequest κ → Bool
  | register _ => true
  | remove _ => false

/-- Does the request remove the callback of this identifier? -/
def removes (id : Nat) : MonitorRequest κ → Bool
  | register _ => false
  | remove i => decide (i = id)

end MonitorRequest

/-- How many callbacks some requests register. -/
def registrations (requests : List (MonitorRequest κ)) : Nat :=
  requests.countP MonitorRequest.registers

/-- Do some requests remove the callback of this identifier? -/
def removal (requests : List (MonitorRequest κ)) (id : Nat) : Bool :=
  requests.any (MonitorRequest.removes id)

/-- The callbacks that some requests register, and do not remove afterwards. The first one
    gets the identifier `next`. -/
def newcomers (next : Nat) : List (MonitorRequest κ) → List (Nat × κ)
  | [] => []
  | .register callback :: rest =>
    if removal rest next then newcomers (next + 1) rest
    else (next, callback) :: newcomers (next + 1) rest
  | .remove _ :: rest => newcomers next rest

theorem registrations_append (first later : List (MonitorRequest κ)) :
    registrations (first ++ later) = registrations first + registrations later :=
  List.countP_append

theorem registrations_register (callback : κ) (rest : List (MonitorRequest κ)) :
    registrations (.register callback :: rest) = registrations rest + 1 :=
  List.countP_cons_of_pos rfl

theorem registrations_remove (id : Nat) (rest : List (MonitorRequest κ)) :
    registrations (.remove id :: rest) = registrations rest :=
  List.countP_cons_of_neg Bool.false_ne_true

/-- Newcomers have the identifiers that the requests give out. -/
theorem mem_newcomers {next : Nat} {requests : List (MonitorRequest κ)} {c : Nat × κ}
    (h : c ∈ newcomers next requests) : next ≤ c.1 ∧ c.1 < next + registrations requests := by
  induction requests generalizing next with
  | nil => cases h
  | cons r rest ih =>
      cases r with
      | register callback =>
          rw [registrations_register]
          rw [newcomers] at h
          split at h
          · have hrest := ih h
            omega
          · rcases List.mem_cons.mp h with rfl | h
            · dsimp only
              omega
            · have hrest := ih h
              omega
      | remove id =>
          rw [registrations_remove]
          exact ih h

theorem newcomers_ordered (next : Nat) (requests : List (MonitorRequest κ)) :
    (newcomers next requests).Pairwise fun c d => c.1 < d.1 := by
  induction requests generalizing next with
  | nil => exact List.Pairwise.nil
  | cons r rest ih =>
      cases r with
      | register callback =>
          rw [newcomers]
          split
          · exact ih (next + 1)
          · exact List.pairwise_cons.mpr ⟨fun c hc => (mem_newcomers hc).1, ih (next + 1)⟩
      | remove id => exact ih next

namespace Monitor

/-- What some requests come to. Who is in the list and is not removed stays, and newcomers
    come last. -/
structure Asked (requests : List (MonitorRequest κ)) (m m' : Monitor κ) : Prop where
  callbacks : m'.callbacks
    = (m.callbacks.filter fun c => !removal requests c.1) ++ newcomers m.nextId requests
  nextId : m'.nextId = m.nextId + registrations requests
  lastHeight : m'.lastHeight? = m.lastHeight?
  invoking : m'.isInvoking = m.isInvoking

theorem callbacks_remove (m : Monitor κ) (id : Nat) :
    (m.remove id).callbacks = m.callbacks.filter fun c => decide (c.1 ≠ id) := by
  rw [remove]
  split
  · -- Nobody has this identifier, so the list is what is left of it.
    rename_i hnobody
    exact (List.filter_eq_self.mpr (List.length_filter_eq_length_iff.mp hnobody.1)).symm
  · rfl

/-- Requests come to the same during a round and between two of them. -/
theorem asked_foldl (requests : List (MonitorRequest κ)) (m : Monitor κ) :
    Asked requests m (requests.foldl ask m) := by
  induction requests generalizing m with
  | nil =>
      refine ⟨?_, rfl, rfl, rfl⟩
      rw [newcomers, List.append_nil]
      exact (List.filter_true m.callbacks).symm
  | cons r rest ih =>
      have hrest := ih (m.ask r)
      cases r with
      | register callback =>
          refine ⟨?_, ?_, hrest.lastHeight, hrest.invoking⟩
          · -- The newcomer is at the end of the list, and the rest of the requests may remove it
            -- again.
            rw [List.foldl_cons, hrest.callbacks]
            change ((m.callbacks ++ [(m.nextId, callback)]).filter fun c => !removal rest c.1)
              ++ newcomers (m.nextId + 1) rest = _
            rw [List.filter_append, List.append_assoc, newcomers]
            congr 1
            by_cases hremoved : removal rest m.nextId = true
            · rw [if_pos hremoved, List.filter_cons_of_neg (by simp [hremoved]), List.filter_nil,
                List.nil_append]
            · rw [if_neg hremoved, List.filter_cons_of_pos (by simp [hremoved]), List.filter_nil,
                List.singleton_append]
          · rw [List.foldl_cons, hrest.nextId, registrations_register]
            change m.nextId + 1 + registrations rest = _
            omega
      | remove id =>
          have hnext : (m.remove id).nextId = m.nextId := by
            rw [remove]
            split <;> rfl
          have hlast : (m.remove id).lastHeight? = m.lastHeight? := by
            rw [remove]
            split <;> rfl
          have hinvoking : (m.remove id).isInvoking = m.isInvoking := by
            rw [remove]
            split <;> rfl
          refine ⟨?_, ?_, hrest.lastHeight.trans hlast, hrest.invoking.trans hinvoking⟩
          · rw [List.foldl_cons, hrest.callbacks, ask, callbacks_remove, hnext, newcomers,
              List.filter_filter]
            congr 1
            refine List.filter_congr fun c _ => ?_
            simp [removal, MonitorRequest.removes, eq_comm, Bool.and_comm]
          · rw [List.foldl_cons, hrest.nextId, registrations_remove, ask, hnext]

/-- Between two rounds no removal has to wait. -/
theorem removals_foldl (requests : List (MonitorRequest κ)) {m : Monitor κ}
    (h : m.isInvoking = false) : (requests.foldl ask m).removals = m.removals := by
  induction requests generalizing m with
  | nil => rfl
  | cons r rest ih =>
      have hr : Asked [r] m (m.ask r) := asked_foldl [r] m
      rw [List.foldl_cons, ih (hr.invoking.trans h)]
      cases r with
      | register callback => rfl
      | remove id => rw [ask, remove, if_neg fun hwait => by simp [h] at hwait]

/-- During a round the removals of those wait who were registered before and are away. -/
theorem mem_removals_foldl (requests : List (MonitorRequest κ)) {m : Monitor κ} {id : Nat}
    (h : m.isInvoking = true) (haway : ∀ c ∈ m.callbacks, c.1 ≠ id) (hid : id < m.nextId) :
    id ∈ (requests.foldl ask m).removals ↔ id ∈ m.removals ∨ removal requests id = true := by
  induction requests generalizing m with
  | nil => simp [removal]
  | cons r rest ih =>
      have hr : Asked [r] m (m.ask r) := asked_foldl [r] m
      -- A newcomer has a larger identifier, so whoever is away stays away.
      have haway' : ∀ c ∈ (m.ask r).callbacks, c.1 ≠ id := by
        intro c hc
        rw [hr.callbacks] at hc
        rcases List.mem_append.mp hc with hc | hc
        · exact haway c (List.mem_of_mem_filter hc)
        · have hnew := mem_newcomers hc
          omega
      have hid' : id < (m.ask r).nextId := by
        rw [hr.nextId]
        omega
      rw [List.foldl_cons, ih (hr.invoking.trans h) haway' hid']
      cases r with
      | register callback => exact Iff.rfl
      | remove i =>
          by_cases hi : i = id
          · subst hi
            have hnobody : (m.callbacks.filter fun c => decide (c.1 ≠ i)) = m.callbacks :=
              List.filter_eq_self.mpr fun c hc => decide_eq_true (haway c hc)
            have hwaits : m.remove i = { m with removals := m.removals ++ [i] } :=
              if_pos ⟨congrArg List.length hnobody, h⟩
            simp [ask, hwaits, removal, MonitorRequest.removes]
          · have hsame : id ∈ (m.ask (.remove i)).removals ↔ id ∈ m.removals := by
              rw [ask, remove]
              split
              · simp [Ne.symm hi]
              · exact Iff.rfl
            simp [hsame, removal, MonitorRequest.removes, hi]

/-! ### Rounds -/

/-- One run of a callback. -/
structure Visit (σ κ : Type) where
  id : Nat
  callback : κ
  reaction : Reaction σ κ

/-- What the callbacks asked for, one after the other. -/
def Visit.requests (visits : List (Visit σ κ)) : List (MonitorRequest κ) :=
  visits.flatMap fun v => v.reaction.requests

/-- The callbacks that did not fail and that none of them removed, as they are now. -/
def Visit.staying (visits : List (Visit σ κ)) : List (Nat × κ) :=
  (visits.filter fun v => !v.reaction.failed && !removal (requests visits) v.id).map fun v =>
    (v.id, v.reaction.callback)

/-- Each of the visits begins in the world that the one before it left. The callback is told
    how many registrations there were. -/
def Consecutive (react : σ → κ → Height → Nat → Reaction σ κ) (height : Height) :
    σ → Nat → List (Visit σ κ) → σ → Prop
  | world, _, [], world' => world' = world
  | world, next, v :: rest, world' =>
    v.reaction = react world v.callback height next ∧
      Consecutive react height v.reaction.world (next + registrations v.reaction.requests) rest
        world'

section Round

variable (react : σ → κ → Height → Nat → Reaction σ κ) (height : Height)

/-- The visits of a round. -/
structure Visited (visits : List (Visit σ κ)) (m : Monitor κ) (world : σ)
    (callbacks : List (Nat × κ)) (round : Round σ κ) : Prop where
  invoked : visits.map (fun v => (v.id, v.callback)) = callbacks
  consecutive : Consecutive react height world m.nextId visits round.world
  callbacks : round.callbacks = visits.map fun v => (v.id, v.reaction.callback)
  failed : round.failed = (visits.filter fun v => v.reaction.failed).map Visit.id
  monitor : round.monitor = (Visit.requests visits).foldl ask m

/-- The callbacks of a round run one after the other. -/
theorem exists_visits (m : Monitor κ) (world : σ) (callbacks : List (Nat × κ)) :
    ∃ visits, Visited react height visits m world callbacks
      (invoke react height m world callbacks) := by
  induction callbacks generalizing m world with
  | nil => exact ⟨[], rfl, rfl, rfl, rfl, rfl⟩
  | cons c rest ih =>
      obtain ⟨id, callback⟩ := c
      -- Its requests come first, and the others find the monitor and the world as it left them.
      obtain ⟨visits, hrest⟩ := ih ((react world callback height m.nextId).requests.foldl ask m)
        (react world callback height m.nextId).world
      refine ⟨⟨id, callback, react world callback height m.nextId⟩ :: visits, ?_, ⟨rfl, ?_⟩, ?_,
        ?_, ?_⟩
      · rw [List.map_cons, hrest.invoked]
      · rw [← (asked_foldl _ m).nextId]
        exact hrest.consecutive
      · rw [List.map_cons, ← hrest.callbacks]
        rfl
      · have hfailed := hrest.failed
        by_cases hfails : (react world callback height m.nextId).failed = true
        · rw [List.filter_cons, if_pos hfails, List.map_cons, ← hfailed]
          exact if_pos hfails
        · rw [List.filter_cons, if_neg hfails, ← hfailed]
          exact if_neg hfails
      · rw [Visit.requests, List.flatMap_cons, List.foldl_append]
        exact hrest.monitor

/-- A round of callbacks at a height, seen from outside. -/
structure Tells (visits : List (Visit σ κ)) (s s' : Monitor κ × σ) : Prop where
  /-- Every callback in the list is invoked once, in the order of the list. -/
  invoked : visits.map (fun v => (v.id, v.callback)) = s.1.callbacks
  consecutive : Consecutive react height s.2 s.1.nextId visits s'.2
  /-- Those that were registered meanwhile and not removed afterwards come last. -/
  callbacks : s'.1.callbacks
    = Visit.staying visits ++ newcomers s.1.nextId (Visit.requests visits)
  nextId : s'.1.nextId = s.1.nextId + registrations (Visit.requests visits)
  lastHeight : s'.1.lastHeight? = some height

/-- Between two rounds no callback is away and no removal waits, and the callbacks stand in
    the order in which they were registered. -/
structure Settled (m : Monitor κ) : Prop where
  invoking : m.isInvoking = false
  removals : m.removals = []
  ordered : m.callbacks.Pairwise fun c d => c.1 < d.1
  known : ∀ c ∈ m.callbacks, c.1 < m.nextId

theorem settled_fresh : Settled (fresh : Monitor κ) where
  invoking := rfl
  removals := rfl
  ordered := List.Pairwise.nil
  known _ hc := absurd hc List.not_mem_nil

/-- Who stays keeps its place, and newcomers come last. -/
theorem ordered_append_newcomers {kept : List (Nat × κ)} {next : Nat}
    (requests : List (MonitorRequest κ)) (hordered : kept.Pairwise fun c d => c.1 < d.1)
    (hknown : ∀ c ∈ kept, c.1 < next) :
    (kept ++ newcomers next requests).Pairwise (fun c d => c.1 < d.1) ∧
      ∀ c ∈ kept ++ newcomers next requests, c.1 < next + registrations requests := by
  constructor
  · refine List.pairwise_append.mpr ⟨hordered, newcomers_ordered next requests, ?_⟩
    intro c hc d hd
    exact Nat.lt_of_lt_of_le (hknown c hc) (mem_newcomers hd).1
  · intro c hc
    rcases List.mem_append.mp hc with hc | hc
    · exact Nat.lt_of_lt_of_le (hknown c hc) (Nat.le_add_right _ _)
    · exact (mem_newcomers hc).2

theorem Settled.ask {m : Monitor κ} (h : m.Settled) (r : MonitorRequest κ) :
    (m.ask r).Settled := by
  have hr : Asked [r] m (m.ask r) := asked_foldl [r] m
  obtain ⟨hordered, hknown⟩ := ordered_append_newcomers [r] (h.ordered.filter _)
    fun c hc => h.known c (List.mem_of_mem_filter hc)
  rw [← hr.callbacks] at hordered hknown
  rw [← hr.nextId] at hknown
  exact ⟨hr.invoking.trans h.invoking, (removals_foldl [r] h.invoking).trans h.removals, hordered,
    hknown⟩

theorem nodup_ids {visits : List (Visit σ κ)} {m : Monitor κ} (h : m.Settled)
    (hinvoked : visits.map (fun v => (v.id, v.callback)) = m.callbacks) :
    (visits.map Visit.id).Nodup := by
  have hordered := h.ordered
  rw [← hinvoked, List.pairwise_map] at hordered
  exact List.pairwise_map.mpr (hordered.imp Nat.ne_of_lt)

/-- Who stays was in the list before, at the same place. -/
theorem staying_sublist {visits : List (Visit σ κ)} {callbacks : List (Nat × κ)}
    (hinvoked : visits.map (fun v => (v.id, v.callback)) = callbacks) :
    List.Sublist ((Visit.staying visits).map Prod.fst) (callbacks.map Prod.fst) := by
  rw [← hinvoked, Visit.staying, List.map_map, List.map_map]
  exact List.filter_sublist.map Visit.id

/-- Identifiers are unique, so a callback is dropped for its own failure only. All of them are
    away, so no removal of one of them is lost. -/
theorem Settled.kept {m : Monitor κ} (h : m.Settled) {visits : List (Visit σ κ)} {world : σ}
    {round : Round σ κ} (hv : Visited react height visits (m.enter height) world m.callbacks round)
    {v : Visit σ κ} (hmem : v ∈ visits) :
    (v.id ∈ round.failed ↔ v.reaction.failed = true) ∧
      (v.id ∈ round.monitor.removals ↔ removal (Visit.requests visits) v.id = true) := by
  constructor
  · rw [hv.failed, List.mem_map]
    constructor
    · rintro ⟨v', hv', hid⟩
      obtain ⟨hmem', hfails⟩ := List.mem_filter.mp hv'
      rwa [List.inj_on_of_nodup_map (nodup_ids h hv.invoked) hmem' hmem hid] at hfails
    · exact fun hfails => ⟨v, List.mem_filter.mpr ⟨hmem, hfails⟩, rfl⟩
  · -- The list is empty during the round, so a removal of one that runs has to wait for the end.
    have hid : v.id < m.nextId := by
      refine h.known (v.id, v.callback) ?_
      rw [← hv.invoked]
      exact List.mem_map_of_mem hmem
    have haway : ∀ c ∈ (m.enter height).callbacks, c.1 ≠ v.id :=
      fun c hc => absurd hc List.not_mem_nil
    rw [hv.monitor, mem_removals_foldl (Visit.requests visits) rfl haway hid]
    simp [enter, h.removals]

/-- What a new height comes to. -/
theorem Settled.tells {m : Monitor κ} (h : m.Settled) (world : σ)
    (hnew : m.lastHeight? ≠ some height) :
    ∃ visits, Tells react height visits (m, world)
        ((m.observe react world height).1, (m.observe react world height).2.1) ∧
      (m.observe react world height).1.Settled := by
  obtain ⟨visits, hv⟩ := exists_visits react height (m.enter height) world m.callbacks
  have hobserve : m.observe react world height
      = (leave (invoke react height (m.enter height) world m.callbacks),
          (invoke react height (m.enter height) world m.callbacks).world,
          m.lastHeight?.bind fun last => HeightWarning.between? last height) := if_neg hnew
  generalize invoke react height (m.enter height) world m.callbacks = round at hv hobserve
  have hasked : Asked (Visit.requests visits) (m.enter height) round.monitor := by
    rw [hv.monitor]
    exact asked_foldl _ _
  -- The round began with an empty list, so there are only newcomers in it.
  have hlist : round.monitor.callbacks = newcomers m.nextId (Visit.requests visits) :=
    hasked.callbacks
  have hcallbacks : (leave round).callbacks
      = Visit.staying visits ++ newcomers m.nextId (Visit.requests visits) := by
    rw [← hlist]
    change (round.callbacks.filter fun c =>
      decide (c.1 ∉ round.failed) && decide (c.1 ∉ round.monitor.removals)) ++ _ = _
    rw [hv.callbacks, List.filter_map, Visit.staying]
    congr 2
    -- Who is dropped at the end is who failed or was removed.
    refine List.filter_congr fun v hmem => ?_
    obtain ⟨hfailed, hremoved⟩ := h.kept react height hv hmem
    simp [hfailed, hremoved]
  have hnext : (leave round).nextId = m.nextId + registrations (Visit.requests visits) :=
    hasked.nextId
  have hstay := staying_sublist hv.invoked
  obtain ⟨hordered, hknown⟩ := ordered_append_newcomers (Visit.requests visits)
    (List.pairwise_map.mp ((List.pairwise_map.mpr h.ordered).sublist hstay)) fun c hc => by
      obtain ⟨d, hd, hid⟩ := List.mem_map.mp (hstay.subset (List.mem_map_of_mem hc))
      rw [← hid]
      exact h.known d hd
  rw [← hcallbacks] at hordered hknown
  rw [← hnext] at hknown
  rw [hobserve]
  exact ⟨visits, ⟨hv.invoked, hv.consecutive, hcallbacks, hnext, hasked.lastHeight⟩, rfl, rfl,
    hordered, hknown⟩

end Round

end Monitor

/-! ### Runs -/

/-- What happens to a monitor: somebody asks for something between two rounds, or a height
    comes. -/
inductive MonitorInput (κ : Type) where
  | ask (r : MonitorRequest κ)
  | height (h : Height)

namespace MonitorInput

/-- The request, if the input is one. -/
def request? : MonitorInput κ → Option (MonitorRequest κ)
  | ask r => some r
  | height _ => none

/-- The height, if the input is one. -/
def height? : MonitorInput κ → Option Height
  | ask _ => none
  | height h => some h

end MonitorInput

namespace Monitor

/-- A height that callbacks were told of, and their runs. -/
structure Announcement (σ κ : Type) where
  height : Height
  visits : List (Visit σ κ)

/-- What all callbacks asked for. -/
def Announcement.requests (told : List (Announcement σ κ)) : List (MonitorRequest κ) :=
  told.flatMap fun a => Visit.requests a.visits

theorem Announcement.requests_concat (told : List (Announcement σ κ)) (a : Announcement σ κ) :
    requests (told ++ [a]) = requests told ++ Visit.requests a.visits := by
  rw [requests, List.flatMap_append, List.flatMap_singleton]
  rfl

variable (react : σ → κ → Height → Nat → Reaction σ κ) (world : σ)

/-- The monitor and the world after an input. -/
def after (s : Monitor κ × σ) : MonitorInput κ → Monitor κ × σ
  | .ask r => (s.1.ask r, s.2)
  | .height h => ((s.1.observe react s.2 h).1, (s.1.observe react s.2 h).2.1)

/-- What becomes of a new monitor and of a world. -/
def run (inputs : List (MonitorInput κ)) : Monitor κ × σ :=
  inputs.foldl (after react) (fresh, world)

/-- The rounds of a run, and what every input of it comes to. -/
inductive History : List (MonitorInput κ) → List (Announcement σ κ) → Prop where
  | fresh : History [] []
  | asked {inputs : List (MonitorInput κ)} {told : List (Announcement σ κ)}
      (r : MonitorRequest κ) (before : History inputs told)
      (hasked : Asked [r] (run react world inputs).1 (run react world (inputs ++ [.ask r])).1)
      (hworld : (run react world (inputs ++ [.ask r])).2 = (run react world inputs).2) :
      History (inputs ++ [.ask r]) told
  /-- The last height again is no news: nothing happens. -/
  | repeated {inputs : List (MonitorInput κ)} {told : List (Announcement σ κ)}
      (h : Height) (before : History inputs told)
      (hlast : (run react world inputs).1.lastHeight? = some h)
      (hsame : run react world (inputs ++ [.height h]) = run react world inputs) :
      History (inputs ++ [.height h]) told
  | told {inputs : List (MonitorInput κ)} {told : List (Announcement σ κ)}
      (h : Height) (visits : List (Visit σ κ)) (before : History inputs told)
      (hnew : (run react world inputs).1.lastHeight? ≠ some h)
      (htells : Tells react h visits (run react world inputs)
        (run react world (inputs ++ [.height h]))) :
      History (inputs ++ [.height h]) (told ++ [⟨h, visits⟩])

theorem run_append_singleton (inputs : List (MonitorInput κ)) (i : MonitorInput κ) :
    run react world (inputs ++ [i]) = after react (run react world inputs) i := by
  rw [run, List.foldl_append]
  rfl

/-- Every run is settled between two inputs and has a history. -/
theorem exists_history (inputs : List (MonitorInput κ)) :
    (run react world inputs).1.Settled ∧ ∃ told, History react world inputs told := by
  induction inputs using List.reverseRecOn with
  | nil => exact ⟨settled_fresh, [], History.fresh⟩
  | append_singleton inputs i ih =>
      obtain ⟨hsettled, told, hhistory⟩ := ih
      have hrun := run_append_singleton react world inputs i
      cases i with
      | ask r =>
          have hasked : Asked [r] (run react world inputs).1
              (run react world (inputs ++ [.ask r])).1 := by
            rw [hrun]
            exact asked_foldl [r] _
          refine ⟨?_, told, History.asked r hhistory hasked (by rw [hrun]; rfl)⟩
          rw [hrun]
          exact hsettled.ask r
      | height h =>
          by_cases hlast : (run react world inputs).1.lastHeight? = some h
          · have hsame : run react world (inputs ++ [.height h]) = run react world inputs := by
              have hobserve : (run react world inputs).1.observe react (run react world inputs).2 h
                  = ((run react world inputs).1, (run react world inputs).2, none) := if_pos hlast
              rw [hrun, after, hobserve]
            rw [hsame]
            exact ⟨hsettled, told, History.repeated h hhistory hlast hsame⟩
          · obtain ⟨visits, htells, hsettled'⟩ := hsettled.tells react h (run react world inputs).2
              hlast
            rw [hrun]
            refine ⟨hsettled', _, History.told h visits hhistory hlast ?_⟩
            rw [hrun]
            exact htells

end Monitor

/-! ### The heights that callbacks are told of -/

theorem destutter'_concat {α : Type} [DecidableEq α] (a x : α) (l : List α) :
    (l ++ [x]).destutter' (· ≠ ·) a
      = if (a :: l).getLast? = some x then l.destutter' (· ≠ ·) a
        else l.destutter' (· ≠ ·) a ++ [x] := by
  induction l generalizing a with
  | nil =>
      rw [List.nil_append, List.destutter'_singleton, List.destutter'_nil]
      by_cases hax : a = x <;> simp [hax]
  | cons b rest ih =>
      rw [List.cons_append, List.destutter'_cons, List.destutter'_cons, ih b, ih a,
        List.getLast?_cons_cons]
      by_cases hab : a = b
      · subst hab
        simp
      · rw [if_pos hab, if_pos hab]
        split <;> rfl

/-- With repetitions dropped, a last element is kept unless it repeats the one before it. -/
theorem destutter_concat {α : Type} [DecidableEq α] (l : List α) (x : α) :
    (l ++ [x]).destutter (· ≠ ·)
      = if l.getLast? = some x then l.destutter (· ≠ ·) else l.destutter (· ≠ ·) ++ [x] := by
  cases l with
  | nil => simp
  | cons a rest =>
      rw [List.cons_append, List.destutter_cons', List.destutter_cons', destutter'_concat]

/-- Numbers that never decrease are increasing once repetitions are dropped. -/
theorem destutter_increasing {heights : List Height} (h : heights.Pairwise (· ≤ ·)) :
    (heights.destutter (· ≠ ·)).Pairwise (· < ·) := by
  have hle : (heights.destutter (· ≠ ·)).Pairwise (· ≤ ·) := h.sublist (List.destutter_sublist _ _)
  have hchain : ((heights.destutter (· ≠ ·)).map Word.val).IsChain (· < ·) := by
    refine (List.isChain_map Word.val).mpr ?_
    refine List.isChain_iff_forall_rel_of_append_cons_cons.mpr fun a b first later hsplit => ?_
    have hne : a ≠ b :=
      List.isChain_iff_forall_rel_of_append_cons_cons.mp (List.isChain_destutter _ heights) hsplit
    have hab : a ≤ b :=
      List.isChain_iff_forall_rel_of_append_cons_cons.mp hle.isChain hsplit
    exact Nat.lt_of_le_of_ne hab fun hval => hne (Word.ext hval)
  have hvals := List.isChain_iff_pairwise.mp hchain
  rw [List.pairwise_map] at hvals
  exact hvals

namespace Monitor

variable (react : σ → κ → Height → Nat → Reaction σ κ) (world : σ)

/-- What a run of a monitor keeps to, of which `told` are the rounds. -/
structure CallbackLaw (inputs : List (MonitorInput κ)) (told : List (Announcement σ κ)) :
    Prop where
  /-- Every round invokes each callback in the list once and in order, and leaves the list
      as `Tells` says. Nothing else invokes a callback. -/
  history : History react world inputs told
  /-- Callbacks are told of the heights that came, with repetitions dropped. -/
  heights : told.map Announcement.height
    = (inputs.filterMap MonitorInput.height?).destutter (· ≠ ·)
  /-- Heights that never decrease are told in increasing order. -/
  increasing : (inputs.filterMap MonitorInput.height?).Pairwise (· ≤ ·) →
    (told.map Announcement.height).Pairwise (· < ·)
  /-- Afterwards no removal waits, and the callbacks stand in the order of their identifiers,
      which were all given out. -/
  settled : (run react world inputs).1.Settled
  /-- Identifiers count the registrations. -/
  numbered : (run react world inputs).1.nextId
    = registrations (inputs.filterMap MonitorInput.request?)
      + registrations (Announcement.requests told)

section History

variable {react world} {inputs : List (MonitorInput κ)} {told : List (Announcement σ κ)}

/-- The last height that callbacks were told of is the last one that came. -/
theorem History.lastHeight (h : History react world inputs told) :
    (run react world inputs).1.lastHeight?
      = (inputs.filterMap MonitorInput.height?).getLast? := by
  induction h with
  | fresh => rfl
  | asked r before hasked hworld ih =>
      rw [hasked.lastHeight, ih, List.filterMap_append]
      exact congrArg List.getLast? (List.append_nil _).symm
  | repeated h before hlast hsame ih =>
      rw [hsame, hlast, List.filterMap_append]
      exact List.getLast?_concat.symm
  | told h visits before hnew htells ih =>
      rw [htells.lastHeight, List.filterMap_append]
      exact List.getLast?_concat.symm

theorem History.heights (h : History react world inputs told) :
    told.map Announcement.height
      = (inputs.filterMap MonitorInput.height?).destutter (· ≠ ·) := by
  induction h with
  | fresh => rfl
  | asked r before hasked hworld ih =>
      rw [ih, List.filterMap_append]
      exact congrArg _ (List.append_nil _).symm
  | repeated h before hlast hsame ih =>
      rw [before.lastHeight] at hlast
      rw [ih, List.filterMap_append]
      exact ((destutter_concat _ h).trans (if_pos hlast)).symm
  | told h visits before hnew htells ih =>
      rw [before.lastHeight] at hnew
      rw [List.map_append, ih, List.filterMap_append]
      exact ((destutter_concat _ h).trans (if_neg hnew)).symm

theorem History.numbered (h : History react world inputs told) :
    (run react world inputs).1.nextId
      = registrations (inputs.filterMap MonitorInput.request?)
        + registrations (Announcement.requests told) := by
  induction h with
  | fresh => rfl
  | asked r before hasked hworld ih =>
      have hrequest : [MonitorInput.ask r].filterMap MonitorInput.request? = [r] := rfl
      rw [hasked.nextId, ih, List.filterMap_append, registrations_append, hrequest]
      omega
  | repeated h before hlast hsame ih =>
      rw [hsame, ih, List.filterMap_append]
      exact congrArg (registrations · + _) (List.append_nil _).symm
  | told h visits before hnew htells ih =>
      have hrequest : [MonitorInput.height h].filterMap MonitorInput.request?
          = ([] : List (MonitorRequest κ)) := rfl
      rw [htells.nextId, ih, List.filterMap_append, hrequest, List.append_nil,
        Announcement.requests_concat, registrations_append, Nat.add_assoc]

end History

/-- The law holds for every run, whatever the callbacks do. -/
theorem run_callbackLaw (inputs : List (MonitorInput κ)) :
    ∃ told, CallbackLaw react world inputs told := by
  obtain ⟨hsettled, told, hhistory⟩ := exists_history react world inputs
  refine ⟨told, hhistory, hhistory.heights, fun hle => ?_, hsettled, hhistory.numbered⟩
  rw [hhistory.heights]
  exact destutter_increasing hle

end Monitor

end PaymentNetwork

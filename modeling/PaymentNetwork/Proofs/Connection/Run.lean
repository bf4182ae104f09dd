import PaymentNetwork.Connection.Task
import PaymentNetwork.Proofs.NetworkView.Openings
import PaymentNetwork.Proofs.Transfer.Trace

/-!
# Operations That Take Turns

Any number of operations on one token network, in any order in which they can take turns.

An operation is a machine that runs without interruption between two waits. So the state of
all of them is what they share, with the place at which each of them stands, and a move is
the start of an operation, the end of a wait, or an event of the ledger in between. The
policy is given to an operation that waits for it only while no other one uses it. Who of
those that wait gets it is left open, and so are the answers of the ledger and the clock.

## Main definitions

* `Membership.Switches`: Automatic connection is switched off or on, at most.
* `Desk`: What the operations share, and where they stand.
* `Desk.Move`: A start, the end of a wait, or an event.
* `Desk.run`: The state after some moves.

## Theorems

* `Membership.resume_cases`: Only an operation that gets the policy changes what is shared.
* `Membership.begin_switches`, `Membership.resume_switches`: Nothing else happens to the view.
* `Membership.usesPolicy_resume`: Nobody else begins to use the policy.
* `Desk.wake_cases`: What the end of a wait does.
* `Desk.run_alone`: No two operations use the policy at once.
-/

namespace PaymentNetwork

namespace Membership

variable (s : ConnectionSettings) (m : Membership)

/-- Only an operation that gets the policy changes the policy or the view. -/
theorem resume_cases (p : Phase) (w : Wake) :
    (∃ op, p = .queued op ∧ w = .granted ∧ m.resume s p w = m.granted s op) ∨
    (m.resume s p w).1 = m := by
  unfold resume
  split
  · exact Or.inl ⟨_, rfl, rfl, rfl⟩
  all_goals exact Or.inr rfl

/-- An operation leaves the view alone, or switches automatic connection off or on. -/
def Switches (view : NetworkView) : Prop :=
  view = m.view ∨ ∃ blocked, view = m.view.setBlocked s.tokenNetwork blocked

theorem begin_switches (op : Operation) : m.Switches s (m.begin s op).1.view := by
  cases op with
  | connect policy =>
      unfold begin
      dsimp only
      split
      · exact Or.inr ⟨false, rfl⟩
      · exact Or.inl rfl
  | _ => exact Or.inl rfl

theorem granted_switches (op : Operation) : m.Switches s (m.granted s op).1.view := by
  cases op with
  | leave onlyReceiving => exact Or.inr ⟨true, rfl⟩
  | _ => exact Or.inl rfl

theorem resume_switches (p : Phase) (w : Wake) : m.Switches s (m.resume s p w).1.view := by
  unfold resume
  split
  · exact m.granted_switches s _
  all_goals exact Or.inl rfl

/-- A network that is blocked has the channels that it had. -/
theorem Switches.sameChannels {s : ConnectionSettings} {m : Membership} {view : NetworkView}
    (h : m.Switches s view) : m.view.SameChannels view := by
  rcases h with rfl | ⟨blocked, rfl⟩
  · exact .refl _
  · exact m.view.sameChannels_setBlocked s.tokenNetwork blocked

theorem usesPolicy_finishOpening {errand : Errand} {funding : Amount}
    {result : Except ConnectionError ChannelId}
    (h : (finishOpening errand funding result).usesPolicy = true) : errand.usesPolicy = true := by
  cases errand with
  | batch rest => rfl
  | single => cases result <;> cases h

theorem usesPolicy_lookForChannel {channelId : ChannelId} {polls : Nat} {funding : Amount}
    {errand : Errand} (h : (m.lookForChannel s channelId polls funding errand).usesPolicy = true) :
    errand.usesPolicy = true := by
  unfold lookForChannel at h
  split at h
  · split at h
    · exact usesPolicy_finishOpening h
    · exact h
  · split at h
    · exact usesPolicy_finishOpening h
    · exact h

/-- Only an operation that uses the policy, or gets it, uses it afterwards. -/
theorem usesPolicy_resume {p : Phase} {w : Wake} (h : (m.resume s p w).2.usesPolicy = true) :
    p.usesPolicy = true ∨ ∃ op, p = .queued op ∧ w = .granted := by
  unfold resume at h
  split at h
  · exact Or.inr ⟨_, rfl, rfl⟩
  all_goals dsimp only at h
  · exact Or.inl rfl
  · exact Or.inl rfl
  · exact Or.inl (usesPolicy_lookForChannel s m h)
  · exact Or.inl (usesPolicy_finishOpening h)
  · exact Or.inl (usesPolicy_finishOpening h)
  · exact Or.inl (usesPolicy_lookForChannel s m h)
  · exact Or.inl (usesPolicy_finishOpening h)
  · exact Or.inl (usesPolicy_finishOpening h)
  · exact Or.inl (usesPolicy_finishOpening h)
  · exact Or.inl rfl
  · exact Or.inl rfl
  · exact Or.inl rfl
  · exact Or.inl rfl
  · -- Those that wait for a settlement have nothing left to close.
    unfold closeNext at h
    dsimp only at h
    split at h <;> cases h
  · cases h
  · exact Or.inl h

theorem begin_usesPolicy (op : Operation) : (m.begin s op).2.usesPolicy = false := by
  cases op with
  | connect policy =>
      unfold begin
      dsimp only
      split <;> rfl
  | _ => rfl

end Membership

/-- What the operations on a token network share, and where each of them stands. -/
structure Desk where
  membership : Membership
  phases : List Phase

namespace Desk

/-- Something that happens while operations take turns. -/
inductive Move where
  | start (op : Operation)
  /-- The wait of the operation in this place ends. -/
  | wake (task : Nat) (w : Wake)
  | event (e : ChainEvent)

/-- No operation was started. -/
def fresh (m : Membership) : Desk := ⟨m, []⟩

/-- Does an operation use the policy? -/
def isTaken (d : Desk) : Bool := d.phases.any Phase.usesPolicy

/-- Can a wait end so? Nobody is given the policy while somebody uses it. -/
def permits (d : Desk) : Wake → Bool
  | .granted => !d.isTaken
  | _ => true

/-- The operation in a place, if its wait can end so. -/
def ending? (d : Desk) (task : Nat) (w : Wake) : Option Phase :=
  if d.permits w then d.phases[task]? else none

section Moves

variable (s : ConnectionSettings)

/-- The state after a move. -/
def after (d : Desk) : Move → Desk
  | .start op => ⟨(d.membership.begin s op).1, d.phases ++ [(d.membership.begin s op).2]⟩
  | .wake task w =>
    match d.ending? task w with
    | none => d
    | some p =>
      ⟨(d.membership.resume s p w).1, d.phases.set task (d.membership.resume s p w).2⟩
  | .event e => { d with membership.view := d.membership.view.apply e }

/-- The state after some moves. -/
def run (d : Desk) (moves : List Move) : Desk := moves.foldl (after s) d

end Moves

variable {s : ConnectionSettings} {d : Desk}

theorem run_append (first later : List Move) :
    d.run s (first ++ later) = (d.run s first).run s later :=
  List.foldl_append

theorem exists_split_of_getElem? {α : Type} {xs : List α} {i : Nat} {x : α}
    (h : xs[i]? = some x) :
    ∃ before later, xs = before ++ x :: later ∧ ∀ y, xs.set i y = before ++ y :: later := by
  obtain ⟨hi, rfl⟩ := List.getElem?_eq_some_iff.mp h
  have hset : ∀ y, xs.set i y = xs.take i ++ y :: xs.drop (i + 1) := by
    intro y
    rw [List.set_eq_take_append_cons_drop, if_pos hi]
  exact ⟨xs.take i, xs.drop (i + 1), by rw [← hset, List.set_getElem_self], hset⟩

/-- The end of a wait does nothing, or one operation goes on and the others stay. -/
theorem wake_cases (task : Nat) (w : Wake) :
    (d.ending? task w = none ∧ d.after s (.wake task w) = d) ∨
    ∃ before p later, d.ending? task w = some p ∧ d.phases = before ++ p :: later ∧
      (w = .granted → d.isTaken = false) ∧
      d.after s (.wake task w) = ⟨(d.membership.resume s p w).1,
        before ++ (d.membership.resume s p w).2 :: later⟩ := by
  cases hp : d.ending? task w with
  | none =>
      refine Or.inl ⟨rfl, ?_⟩
      unfold after
      simp only [hp]
  | some p =>
      have hending := hp
      unfold ending? at hp
      split at hp
      · rename_i hpermits
        obtain ⟨before, later, hsplit, hset⟩ := exists_split_of_getElem? hp
        refine Or.inr ⟨before, p, later, rfl, hsplit, ?_, ?_⟩
        · rintro rfl
          simpa [permits] using hpermits
        · unfold after
          simp only [hending, hset]
      · cases hp

/-! ### Nobody uses the policy but one -/

/-- At most one operation uses the policy. -/
def Alone (d : Desk) : Prop := d.phases.countP Phase.usesPolicy ≤ 1

theorem isTaken_eq_false_iff : d.isTaken = false ↔ ∀ p ∈ d.phases, p.usesPolicy = false := by
  rw [isTaken, List.any_eq_false]
  simp

/-- While an operation uses the policy, the others do not. -/
theorem Alone.others {before later : List Phase} {p : Phase} (h : d.Alone)
    (hsplit : d.phases = before ++ p :: later) (hp : p.usesPolicy = true) :
    ∀ q ∈ before ++ later, q.usesPolicy = false := by
  unfold Alone at h
  rw [hsplit, List.countP_append, List.countP_cons_of_pos hp] at h
  have hnone : (before ++ later).countP Phase.usesPolicy = 0 := by
    rw [List.countP_append]
    omega
  intro q hq
  simpa using List.countP_eq_zero.mp hnone q hq

theorem others_of_free {before later : List Phase} {p : Phase}
    (hsplit : d.phases = before ++ p :: later) (h : d.isTaken = false) :
    ∀ q ∈ before ++ later, q.usesPolicy = false := by
  intro q hq
  refine isTaken_eq_false_iff.mp h q ?_
  rw [hsplit]
  rcases List.mem_append.mp hq with hq | hq
  · exact List.mem_append_left _ hq
  · exact List.mem_append_right _ (List.mem_cons_of_mem p hq)

theorem alone_of_others {m : Membership} {before later : List Phase} (p : Phase)
    (h : ∀ q ∈ before ++ later, q.usesPolicy = false) : Alone ⟨m, before ++ p :: later⟩ := by
  have hnone : (before ++ later).countP Phase.usesPolicy = 0 :=
    List.countP_eq_zero.mpr (fun q hq => by simp [h q hq])
  rw [List.countP_append] at hnone
  rw [Alone, List.countP_append, List.countP_cons]
  split <;> omega

/-- The wait of one operation ends, and the others stay where they are. -/
theorem Alone.resume {m m' : Membership} {before later : List Phase} {p : Phase}
    (h : Alone ⟨m, before ++ p :: later⟩) (w : Wake)
    (hfree : w = .granted → ∀ q ∈ before ++ later, q.usesPolicy = false) :
    Alone ⟨m', before ++ (m.resume s p w).2 :: later⟩ := by
  cases huses : (m.resume s p w).2.usesPolicy with
  | false =>
      have hcount : (before ++ p :: later).countP Phase.usesPolicy ≤ 1 := h
      rw [List.countP_append, List.countP_cons] at hcount
      rw [Alone, List.countP_append, List.countP_cons_of_neg (by simp [huses])]
      omega
  | true =>
      -- It used the policy before, or nobody did.
      refine alone_of_others _ ?_
      rcases m.usesPolicy_resume s huses with hbefore | ⟨op, -, hw⟩
      · exact h.others rfl hbefore
      · exact hfree hw

theorem Alone.after (h : d.Alone) (move : Move) : (d.after s move).Alone := by
  cases move with
  | start op =>
      have hfree : (d.membership.begin s op).2.usesPolicy = false :=
        d.membership.begin_usesPolicy s op
      change List.countP _ (d.phases ++ [_]) ≤ 1
      rw [List.countP_append, List.countP_cons_of_neg (by rw [hfree]; exact Bool.false_ne_true)]
      exact h
  | event e => exact h
  | wake task w =>
      rcases d.wake_cases (s := s) task w with
        ⟨-, heq⟩ | ⟨before, p, later, -, hsplit, hfree, heq⟩
      · rw [heq]
        exact h
      · rw [heq]
        have halone : Alone ⟨d.membership, before ++ p :: later⟩ := hsplit ▸ h
        exact halone.resume w (fun hw => others_of_free hsplit (hfree hw))

/-- No two operations use the policy at once. -/
theorem run_alone (m : Membership) (moves : List Move) : ((fresh m).run s moves).Alone := by
  suffices h : ∀ d : Desk, d.Alone → (d.run s moves).Alone from h _ (Nat.zero_le 1)
  induction moves with
  | nil => exact fun d h => h
  | cons move rest ih => exact fun d h => ih _ (h.after move)

end Desk

end PaymentNetwork

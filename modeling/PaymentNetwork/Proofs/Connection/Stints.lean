import PaymentNetwork.Proofs.Connection.Run

/-!
# What One Operation Does Among Many

The stints of an operation, and what the others can do to it in between.

Between two waits an operation runs without interruption, so all that it does is a sequence
of stints, and each of them is a function of the place where the operation stands, of the end
of its wait and of what it finds then. The others can change what it finds. They cannot change
the place where it stands, and as long as it uses the policy they cannot change the policy
either. So a law about one operation is an induction over its own stints, with a view in each
of them of which nothing is known but that events and openings made it.

A wait has ends that do not fit it: nobody answers a task that waits for ticks. At such an end
nothing happens, and it is no stint.

## Main definitions

* `Want.isEndedBy`: Does the end fit the wait?
* `Desk.Stint`: What an operation does between two waits.
* `Desk.stint?`, `Desk.stintsOf`: The stint of a move, and those of one operation.
* `Desk.events`: The events among some moves.

## Theorems

* `Membership.resume_of_not_isEndedBy`: Nothing happens at an end that does not fit.
* `Desk.stint?_eq_some_iff`: When a move is a stint.
* `Desk.after_view_cases`: A move applies an event to the view, or keeps the channels.
* `Desk.after_place_cases`: What a move does to one operation.
-/

namespace PaymentNetwork

/-- Does the wait end so? -/
def Want.isEndedBy : Want → Wake → Bool
  | policy, .granted => true
  | ledger _, .answered _ => true
  | ticks _, .ticked _ => true
  | head _, .arrived _ => true
  | _, _ => false

namespace Membership

/-- Nothing happens at an end that does not fit the wait. -/
theorem resume_of_not_isEndedBy {s : ConnectionSettings} {p : Phase} {w : Wake} (m : Membership)
    (h : (p.wants s).isEndedBy w = false) : m.resume s p w = (m, p) := by
  cases p <;> cases w <;> first | rfl | cases h

end Membership

namespace Desk

/-- What an operation does between two waits: where it stands, how its first wait ends, and
    what it finds. -/
structure Stint where
  task : Nat
  phase : Phase
  wake : Wake
  membership : Membership

namespace Stint

variable (s : ConnectionSettings) (t : Stint)

/-- The view that the operation finds. -/
def view : NetworkView := t.membership.view

/-- What the operation leaves, and where it stands then. -/
def next : Membership × Phase := t.membership.resume s t.phase t.wake

/-- What the operation asks of the ledger in the end. -/
def request? : Option LedgerRequest :=
  match (t.next s).2.wants s with
  | .ledger r => some r
  | _ => none

end Stint

theorem Stint.request?_eq_some_iff {s : ConnectionSettings} {t : Stint} {r : LedgerRequest} :
    t.request? s = some r ↔ (t.next s).2.wants s = .ledger r := by
  unfold request?
  split
  · rename_i r' hwants
    rw [hwants, Option.some.injEq, Want.ledger.injEq]
  · rename_i hother
    simpa using hother r

section Moves

variable (s : ConnectionSettings)

/-- The stint of a move, if it is one. -/
def stint? (d : Desk) : Move → Option Stint
  | .wake task w => (d.ending? task w).bind fun p =>
    if (p.wants s).isEndedBy w then some ⟨task, p, w, d.membership⟩ else none
  | _ => none

/-- The stints of the operation in a place. -/
def stintsOf (d : Desk) (place : Nat) (moves : List Move) : List Stint :=
  collect (after s) (fun d move => ((d.stint? s move).filter (·.task = place)).toList) d moves

end Moves

/-- The event of a move, if it is one. -/
def Move.event? : Move → Option ChainEvent
  | event e => some e
  | _ => none

/-- The events among some moves. -/
def events (moves : List Move) : List ChainEvent := moves.filterMap Move.event?

variable {s : ConnectionSettings} {d : Desk}

theorem run_append_singleton (moves : List Move) (move : Move) :
    d.run s (moves ++ [move]) = (d.run s moves).after s move :=
  d.run_append moves [move]

theorem stintsOf_append_singleton (place : Nat) (moves : List Move) (move : Move) :
    d.stintsOf s place (moves ++ [move]) = d.stintsOf s place moves
      ++ (((d.run s moves).stint? s move).filter (·.task = place)).toList := by
  rw [stintsOf, collect_append, stintsOf, collect, collect, List.append_nil]
  rfl

/-- A move is a stint if it ends the wait of an operation. -/
theorem stint?_eq_some_iff {move : Move} {t : Stint} :
    d.stint? s move = some t ↔ move = .wake t.task t.wake ∧ t.membership = d.membership ∧
      d.ending? t.task t.wake = some t.phase ∧ (t.phase.wants s).isEndedBy t.wake = true := by
  obtain ⟨task, phase, wake, membership⟩ := t
  cases move with
  | wake place w =>
      rw [stint?, Option.bind_eq_some_iff]
      constructor
      · rintro ⟨p, hp, hended⟩
        split at hended
        · rename_i hfits
          cases hended
          exact ⟨rfl, rfl, hp, hfits⟩
        · cases hended
      · rintro ⟨hmove, hfound, hp, hfits⟩
        cases hmove
        cases hfound
        exact ⟨phase, hp, if_pos hfits⟩
  | start op =>
      constructor
      · intro h
        cases h
      · intro h
        cases h.1
  | event e =>
      constructor
      · intro h
        cases h
      · intro h
        cases h.1

/-- The operation was in its place, and the policy was free if it got it. -/
theorem ending?_eq_some_iff {task : Nat} {w : Wake} {p : Phase} :
    d.ending? task w = some p ↔ d.permits w = true ∧ d.phases[task]? = some p := by
  rw [ending?]
  split
  · rename_i hpermits
    exact ⟨fun h => ⟨hpermits, h⟩, And.right⟩
  · rename_i hpermits
    exact ⟨nofun, fun h => absurd h.1 hpermits⟩

/-- What the end of a wait does that is a stint. -/
theorem after_of_stint? {move : Move} {t : Stint} (h : d.stint? s move = some t) :
    d.after s move = ⟨(t.next s).1, d.phases.set t.task (t.next s).2⟩ := by
  obtain ⟨rfl, hfound, hending, -⟩ := stint?_eq_some_iff.mp h
  rw [after, hending, Stint.next, hfound]

/-- Without a stint nothing changes at the end of a wait. -/
theorem after_of_stint?_eq_none {task : Nat} {w : Wake} (h : d.stint? s (.wake task w) = none) :
    d.after s (.wake task w) = d := by
  cases hending : d.ending? task w with
  | none => rw [after, hending]
  | some p =>
      rw [stint?, hending, Option.bind_some, ite_eq_right_iff] at h
      have hfits : (p.wants s).isEndedBy w = false :=
        Bool.eq_false_iff.mpr (fun hended => nomatch h hended)
      have hsame : d.phases.set task p = d.phases := by
        obtain ⟨hlt, rfl⟩ := List.getElem?_eq_some_iff.mp (ending?_eq_some_iff.mp hending).2
        exact List.set_getElem_self hlt
      rw [after, hending]
      dsimp only
      rw [d.membership.resume_of_not_isEndedBy hfits]
      exact congrArg (Desk.mk d.membership) hsame

/-- A move applies an event to the view, or keeps the channels as they are. -/
theorem after_view_cases (d : Desk) (move : Move) :
    (∃ e, move.event? = some e ∧
      (d.after s move).membership.view = d.membership.view.apply e) ∨
    (move.event? = none ∧
      d.membership.view.SameChannels (d.after s move).membership.view) := by
  cases move with
  | event e => exact Or.inl ⟨e, rfl, rfl⟩
  | start op => exact Or.inr ⟨rfl, (d.membership.begin_switches s op).sameChannels⟩
  | wake task w =>
      refine Or.inr ⟨rfl, ?_⟩
      cases ht : d.stint? s (.wake task w) with
      | none =>
          rw [after_of_stint?_eq_none ht]
          exact .refl _
      | some t =>
          obtain ⟨-, hfound, -⟩ := stint?_eq_some_iff.mp ht
          rw [after_of_stint? ht, Stint.next, hfound]
          exact (d.membership.resume_switches s t.phase t.wake).sameChannels

/-- What a move does to the operation in a place: it is a stint of the operation, or the
    operation stays where it stands, and keeps the policy as it is if it uses it. -/
theorem after_place_cases {place : Nat} {p : Phase} (hp : d.phases[place]? = some p)
    (move : Move) :
    (∃ t, d.stint? s move = some t ∧ t.task = place ∧ t.phase = p ∧
      (d.after s move).membership = (t.next s).1 ∧
      (d.after s move).phases[place]? = some (t.next s).2) ∨
    ((∀ t, d.stint? s move = some t → t.task ≠ place) ∧
      (d.after s move).phases[place]? = some p ∧
      (p.usesPolicy = true →
        (d.after s move).membership.policy = d.membership.policy)) := by
  have hlt : place < d.phases.length := (List.getElem?_eq_some_iff.mp hp).1
  have hnone : ∀ {found : Option Stint}, found = none → ∀ t, found = some t → t.task ≠ place := by
    rintro _ rfl t ht
    cases ht
  cases move with
  | event e => exact Or.inr ⟨hnone rfl, hp, fun _ => rfl⟩
  | start op =>
      refine Or.inr ⟨hnone rfl, ?_, fun _ => ?_⟩
      · exact (List.getElem?_append_left hlt).trans hp
      · change (d.membership.begin s op).1.policy = d.membership.policy
        cases op with
        | connect policy =>
            unfold Membership.begin
            dsimp only
            split <;> rfl
        | _ => rfl
  | wake task w =>
      cases ht : d.stint? s (.wake task w) with
      | none =>
          rw [after_of_stint?_eq_none ht]
          exact Or.inr ⟨hnone rfl, hp, fun _ => rfl⟩
      | some t =>
          obtain ⟨hmove, hfound, hending, -⟩ := stint?_eq_some_iff.mp ht
          obtain ⟨hpermits, hphase⟩ := ending?_eq_some_iff.mp hending
          rw [after_of_stint? ht]
          by_cases hplace : t.task = place
          · subst hplace
            rw [hp, Option.some.injEq] at hphase
            exact Or.inl ⟨t, rfl, rfl, hphase.symm, rfl, List.getElem?_set_self hlt⟩
          · refine Or.inr ⟨fun t' ht' => ?_, ?_, fun huses => ?_⟩
            · rwa [← Option.some.inj ht']
            · exact (List.getElem?_set_ne hplace).trans hp
            · -- Whoever got the policy would have found it free.
              rcases d.membership.resume_cases s t.phase t.wake with ⟨op, -, hw, -⟩ | hsame
              · rw [hw, permits, Bool.not_eq_true'] at hpermits
                have hfree := isTaken_eq_false_iff.mp hpermits p (List.mem_of_getElem? hp)
                rw [hfree] at huses
                cases huses
              · rw [Stint.next, hfound, hsame]

end Desk

end PaymentNetwork

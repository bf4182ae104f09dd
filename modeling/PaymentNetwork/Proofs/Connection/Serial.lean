import Mathlib.Data.List.Induction
import PaymentNetwork.Proofs.Connection.Run

/-!
# Joining and Leaving at the Same Time

What is left of a token network when several operations join and leave it at the same time.

What joining and leaving leave behind is whether automatic connection is blocked, and the
policy. The policy changes only while it is held, so it is as if the calls had come one after
the other, in the order in which they got it. The block is another matter. Leaving sets it
while it holds the policy, but joining takes it away before it waits for the policy. So a
node that joins while another operation leaves can be overtaken: its part of the block comes
before the leaving and its part of the policy after it. Then the network is blocked although
the policy asks for channels, which no order of the calls leads to. The law is that this is
the only way to leave something else behind than calls in some order would.

## Main definitions

* `Standing`: The block and the policy, as far as the calls decide them.
* `Desk.Moment`: A call is made, or gets the policy.
* `Desk.Passes`: Nothing happens to the calls in a move.
* `Desk.Sequential`, `Desk.SerialRun`: Calls that come one after the other.
* `Desk.Overtaken`: A call to join waits for the policy while another one to leave has it,
  and nobody joins later.
* `Desk.SerialLaw`: What every run keeps to in which all calls got the policy.

## Theorems

* `Desk.waiting_run`: Every call that was made got the policy or waits for it.
* `Desk.standing_run`: The calls decide about block and policy at their moments.
* `Desk.SerialRun.standing`, `Desk.exists_serialRun`: What calls in an order lead to, and that
  they can be made in every order.
* `Desk.run_serialLaw`: The law for every run.
-/

namespace PaymentNetwork

/-- Does the operation join or leave the network? -/
def Operation.isCall : Operation → Bool
  | connect _ => true
  | leave _ => true
  | _ => false

/-- Does it join with arguments that it can join with, or leave? -/
def Operation.IsValidCall : Operation → Prop
  | connect p => p.isValid = true
  | leave _ => True
  | _ => False

theorem Operation.IsValidCall.isCall {op : Operation} (h : op.IsValidCall) : op.isCall = true := by
  cases op with
  | connect p => rfl
  | leave onlyReceiving => rfl
  | _ => exact absurd h id

/-- The call that waits for the policy here, if one does. -/
def Phase.call? : Phase → Option Operation
  | queued op => if op.isCall then some op else none
  | _ => none

/-- What joining and leaving decide: the block, and the policy but for the reserve. -/
@[ext] structure Standing where
  blocked : Bool
  channelTarget : Count
  funds : Amount
deriving DecidableEq

namespace Standing

/-- What is left when a call is made: joining takes the block away at once. -/
def ask (x : Standing) : Operation → Standing
  | .connect _ => { x with blocked := false }
  | _ => x

/-- What is left when a call gets the policy. -/
def take (x : Standing) : Operation → Standing
  | .connect p => { x with channelTarget := p.channelTarget, funds := p.funds }
  | .leave _ => { x with blocked := true, channelTarget := 0 }
  | _ => x

/-- What is left of a call that is made and gets the policy with no other one between. -/
def call (x : Standing) (op : Operation) : Standing := (x.ask op).take op

end Standing

namespace Membership

variable (s : ConnectionSettings)

def standing (m : Membership) : Standing :=
  ⟨m.view.isBlocked s.tokenNetwork, m.policy.channelTarget, m.policy.funds⟩

theorem isBlocked_setBlocked (v : NetworkView) (tokenNetwork : Address) (blocked : Bool) :
    (v.setBlocked tokenNetwork blocked).isBlocked tokenNetwork = blocked := by
  rw [NetworkView.isBlocked, NetworkView.setBlocked, NetworkView.network_setNetwork_self]

@[simp] theorem call?_openNext (amount : Amount) (partners : List Address) :
    (openNext amount partners).call? = none := by
  cases partners <;> rfl

@[simp] theorem call?_addPartners (m : Membership) : (m.addPartners s).call? = none :=
  call?_openNext _ _

@[simp] theorem call?_finishOpening (errand : Errand) (amount : Amount)
    (result : Except ConnectionError ChannelId) :
    (finishOpening errand amount result).call? = none := by
  cases errand with
  | batch rest => exact call?_openNext amount rest
  | single => cases result <;> rfl

@[simp] theorem call?_lookForChannel (m : Membership) (channelId : ChannelId) (polls : Nat)
    (amount : Amount) (errand : Errand) :
    (m.lookForChannel s channelId polls amount errand).call? = none := by
  unfold lookForChannel
  split
  · split
    · exact call?_finishOpening errand amount _
    · rfl
  · split
    · exact call?_finishOpening errand amount _
    · rfl

@[simp] theorem call?_closeNext (m : Membership) (closed : List ChannelId)
    (channels : List Channel) :
    (m.closeNext closed channels).call? = none := by
  cases channels with
  | cons c rest => rfl
  | nil =>
      unfold closeNext
      dsimp only
      split <;> rfl

/-- Who got the policy does not wait for it again. -/
theorem call?_granted (m : Membership) (op : Operation) : (m.granted s op).2.call? = none := by
  cases op with
  | connect p =>
      unfold granted
      dsimp only
      split
      · rfl
      · exact call?_addPartners s _
  | retryConnect =>
      unfold granted
      dsimp only
      split
      · rfl
      · exact call?_addPartners s _
  | joinChannel partner deposit =>
      unfold granted
      dsimp only
      split
      · rfl
      · split <;> rfl
  | leave onlyReceiving => exact call?_closeNext _ _ _
  | _ => rfl

/-- A call waits until it gets the policy, and nothing begins to wait. -/
theorem call?_resume (m : Membership) (p : Phase) (w : Wake) :
    (∃ op, p = .queued op ∧ w = .granted) ∨ (m.resume s p w).2.call? = p.call? := by
  unfold resume
  split
  · exact Or.inl ⟨_, rfl, rfl⟩
  all_goals refine Or.inr ?_
  all_goals first
    | rfl
    | change _ = none
      simp

end Membership

namespace Desk

/-- A call is made, or gets the policy. -/
inductive Moment where
  | asked (op : Operation)
  | took (op : Operation)

namespace Moment

/-- The call that is made, if one is. -/
def asked? : Moment → Option Operation
  | asked op => some op
  | took _ => none

/-- The call that gets the policy, if one does. -/
def took? : Moment → Option Operation
  | asked _ => none
  | took op => some op

/-- What is left after the moment. -/
def note (x : Standing) : Moment → Standing
  | asked op => x.ask op
  | took op => x.take op

end Moment

section Moments

variable (s : ConnectionSettings)

/-- The calls that wait for the policy. -/
def waiting (d : Desk) : List Operation := d.phases.filterMap Phase.call?

/-- What a move means for the calls. -/
def moments (d : Desk) : Move → List Moment
  | .start op => ((d.membership.begin s op).2.call?).toList.map .asked
  | .wake task .granted => ((d.ending? task .granted).bind Phase.call?).toList.map .took
  | _ => []

/-- The moments of a run. -/
def trace (d : Desk) (moves : List Move) : List Moment := collect (after s) (moments s) d moves

/-- The calls of a run, in the order in which they are made. -/
def calls (d : Desk) (moves : List Move) : List Operation :=
  (d.trace s moves).filterMap Moment.asked?

/-- The calls of a run, in the order in which they get the policy. -/
def turns (d : Desk) (moves : List Move) : List Operation :=
  (d.trace s moves).filterMap Moment.took?

end Moments

section Waiting

variable {s : ConnectionSettings} {d : Desk}

theorem begin_cases (m : Membership) (op : Operation) :
    ((m.begin s op).2 = .queued op ∧ op.IsValidCall) ∨
    ((m.begin s op).2.call? = none ∧ (m.begin s op).1 = m) := by
  cases op with
  | connect p =>
      unfold Membership.begin
      dsimp only
      split
      · rename_i hvalid
        exact Or.inl ⟨rfl, hvalid⟩
      · exact Or.inr ⟨rfl, rfl⟩
  | leave onlyReceiving => exact Or.inl ⟨rfl, trivial⟩
  | _ => exact Or.inr ⟨rfl, rfl⟩

theorem call?_queued {op : Operation} (h : op.IsValidCall) : (Phase.queued op).call? = some op :=
  if_pos h.isCall

theorem granted_of_not_isCall (m : Membership) {op : Operation} (h : op.isCall = false) :
    (m.granted s op).1 = m := by
  cases op with
  | connect p => cases h
  | leave onlyReceiving => cases h
  | _ => rfl

theorem waiting_split (m : Membership) (before : List Phase) (p : Phase) (later : List Phase) :
    waiting ⟨m, before ++ p :: later⟩ = before.filterMap Phase.call? ++ p.call?.toList
      ++ later.filterMap Phase.call? := by
  rw [waiting, List.filterMap_append, List.filterMap_cons]
  cases p.call? <;> simp

/-- Who gets the policy does not wait for it any more. -/
theorem waiting_granted {before later : List Phase} {op : Operation} (h : op.isCall = true)
    (m m' : Membership) :
    (waiting ⟨m, before ++ .queued op :: later⟩).Perm
      (op :: waiting ⟨m', before ++ (m.granted s op).2 :: later⟩) := by
  have hcall : (Phase.queued op).call? = some op := if_pos h
  rw [waiting_split, waiting_split, Membership.call?_granted, hcall]
  simp

/-- Nothing happens to the calls in a move, and what they decide about stays. -/
structure Passes (s : ConnectionSettings) (d : Desk) (move : Move) : Prop where
  moments : d.moments s move = []
  waiting : (d.after s move).waiting = d.waiting
  standing : (d.after s move).membership.standing s = d.membership.standing s

/-- A call that starts waits for the policy. Nothing else that starts is a call. -/
theorem after_start_cases (d : Desk) (op : Operation) :
    (op.IsValidCall ∧ d.moments s (.start op) = [.asked op] ∧
      (d.after s (.start op)).waiting = d.waiting ++ [op]) ∨ d.Passes s (.start op) := by
  have hwaiting : (d.after s (.start op)).waiting
      = d.waiting ++ (d.membership.begin s op).2.call?.toList := by
    change List.filterMap _ (d.phases ++ [_]) = _
    rw [List.filterMap_append, List.filterMap_cons, List.filterMap_nil]
    cases (d.membership.begin s op).2.call? <;> rfl
  rcases begin_cases (s := s) d.membership op with ⟨hqueued, hop⟩ | ⟨hcall, hsame⟩
  · have hcall : (d.membership.begin s op).2.call? = some op := by
      rw [hqueued, call?_queued hop]
    refine Or.inl ⟨hop, ?_, ?_⟩
    · rw [moments, hcall]
      rfl
    · rw [hwaiting, hcall]
      rfl
  · refine Or.inr ⟨?_, ?_, congrArg _ hsame⟩
    · rw [moments, hcall]
      rfl
    · rw [hwaiting, hcall]
      exact List.append_nil _

section Wake

variable {task : Nat} {before later : List Phase}

/-- Who gets the policy makes a call, or does not touch what the calls decide about. -/
theorem after_granted_cases {op : Operation}
    (hending : d.ending? task .granted = some (.queued op))
    (hsplit : d.phases = before ++ .queued op :: later)
    (heq : d.after s (.wake task .granted) = ⟨(d.membership.granted s op).1,
      before ++ (d.membership.granted s op).2 :: later⟩) :
    (op.isCall = true ∧ d.moments s (.wake task .granted) = [.took op] ∧
      d.waiting.Perm (op :: (d.after s (.wake task .granted)).waiting)) ∨
    d.Passes s (.wake task .granted) := by
  obtain ⟨m, phases⟩ := d
  subst hsplit
  cases hop : op.isCall with
  | true =>
      have hcall : (Phase.queued op).call? = some op := if_pos hop
      refine Or.inl ⟨rfl, ?_, heq ▸ waiting_granted hop m _⟩
      rw [moments, hending, Option.bind_some, hcall]
      rfl
  | false =>
      have hcall : (Phase.queued op).call? = none := if_neg (by simp [hop])
      refine Or.inr ⟨?_, ?_, heq ▸ congrArg _ (granted_of_not_isCall m hop)⟩
      · rw [moments, hending, Option.bind_some, hcall]
        rfl
      · rw [heq, waiting_split, waiting_split, hcall]
        exact congrArg (fun call? => _ ++ Option.toList call? ++ _) (m.call?_granted s op)

/-- While nobody gets the policy nothing that is shared changes, and who waits goes on
    waiting. -/
theorem passes_of_not_granted {p : Phase} {w : Wake} (hending : d.ending? task w = some p)
    (hsplit : d.phases = before ++ p :: later)
    (heq : d.after s (.wake task w) = ⟨(d.membership.resume s p w).1,
      before ++ (d.membership.resume s p w).2 :: later⟩)
    (hnot : ¬ ∃ op, p = .queued op ∧ w = .granted) : d.Passes s (.wake task w) := by
  obtain ⟨m, phases⟩ := d
  subst hsplit
  have hcall := (m.call?_resume s p w).resolve_left hnot
  have hsame : (m.resume s p w).1 = m := by
    rcases m.resume_cases s p w with ⟨op, hp, hw, -⟩ | hsame
    · exact absurd ⟨op, hp, hw⟩ hnot
    · exact hsame
  refine ⟨?_, by rw [heq, waiting_split, waiting_split, hcall], heq ▸ congrArg _ hsame⟩
  cases w with
  | granted =>
      have hnone : p.call? = none := by
        cases p with
        | queued op => exact absurd ⟨op, rfl, rfl⟩ hnot
        | _ => rfl
      rw [moments, hending, Option.bind_some, hnone]
      rfl
  | _ => rfl

end Wake

/-- In a move a call is made, or gets the policy, or nothing happens to the calls. -/
theorem after_cases (d : Desk) (move : Move) :
    (∃ op, op.IsValidCall ∧ move = .start op ∧ d.moments s move = [.asked op] ∧
      (d.after s move).membership = (d.membership.begin s op).1 ∧
      (d.after s move).waiting = d.waiting ++ [op]) ∨
    (∃ op, op.isCall = true ∧ d.moments s move = [.took op] ∧
      (d.after s move).membership = (d.membership.granted s op).1 ∧
      d.waiting.Perm (op :: (d.after s move).waiting)) ∨
    d.Passes s move := by
  cases move with
  | start op =>
      rcases d.after_start_cases (s := s) op with ⟨hop, hmoments, hwaiting⟩ | hpasses
      · exact Or.inl ⟨op, hop, rfl, hmoments, rfl, hwaiting⟩
      · exact Or.inr (Or.inr hpasses)
  | event e =>
      refine Or.inr (Or.inr ⟨rfl, rfl, ?_⟩)
      unfold Membership.standing
      exact congrArg (Standing.mk · _ _) (NetworkView.isBlocked_apply _ e _)
  | wake task w =>
      rcases d.wake_cases (s := s) task w with
        ⟨hnone, heq⟩ | ⟨before, p, later, hending, hsplit, -, heq⟩
      · refine Or.inr (Or.inr ⟨?_, by rw [heq], by rw [heq]⟩)
        cases w with
        | granted =>
            rw [moments, hnone]
            rfl
        | _ => rfl
      · by_cases hgranted : ∃ op, p = .queued op ∧ w = .granted
        · obtain ⟨op, rfl, rfl⟩ := hgranted
          rcases after_granted_cases hending hsplit heq with ⟨hop, hmoments, hperm⟩ | hpasses
          · exact Or.inr (Or.inl ⟨op, hop, hmoments, congrArg membership heq, hperm⟩)
          · exact Or.inr (Or.inr hpasses)
        · exact Or.inr (Or.inr (passes_of_not_granted hending hsplit heq hgranted))

/-- Every call that was made got the policy or waits for it. -/
theorem waiting_run (d : Desk) (moves : List Move) :
    (d.waiting ++ d.calls s moves).Perm (d.turns s moves ++ (d.run s moves).waiting) := by
  induction moves generalizing d with
  | nil =>
      change (d.waiting ++ []).Perm d.waiting
      rw [List.append_nil]
  | cons move rest ih =>
      have hnext := ih (d.after s move)
      have hcalls : d.calls s (move :: rest)
          = (d.moments s move).filterMap Moment.asked? ++ (d.after s move).calls s rest :=
        List.filterMap_append
      have hturns : d.turns s (move :: rest)
          = (d.moments s move).filterMap Moment.took? ++ (d.after s move).turns s rest :=
        List.filterMap_append
      have hrun : d.run s (move :: rest) = (d.after s move).run s rest := rfl
      rw [hcalls, hturns, hrun]
      rcases after_cases (s := s) d move with ⟨op, -, -, hmoments, -, hwaiting⟩ |
        ⟨op, -, hmoments, -, hperm⟩ | ⟨hmoments, hwaiting, -⟩
      · rw [hmoments]
        rw [hwaiting, List.append_assoc] at hnext
        exact hnext
      · rw [hmoments]
        exact (hperm.append_right _).trans (hnext.cons op)
      · rw [hmoments]
        rw [hwaiting] at hnext
        exact hnext

theorem begin_standing (m : Membership) {op : Operation} (h : op.IsValidCall) :
    (m.begin s op).1.standing s = (m.standing s).ask op := by
  cases op with
  | connect p =>
      have hvalid : p.isValid = true := h
      unfold Membership.begin
      dsimp only
      rw [if_pos hvalid, Membership.standing, Membership.isBlocked_setBlocked]
      rfl
  | leave onlyReceiving => rfl
  | _ => exact absurd h id

theorem granted_standing (m : Membership) (op : Operation) :
    (m.granted s op).1.standing s = (m.standing s).take op := by
  cases op with
  | connect p => rfl
  | leave onlyReceiving =>
      change Standing.mk ((m.view.setBlocked s.tokenNetwork true).isBlocked s.tokenNetwork) 0 _ = _
      rw [Membership.isBlocked_setBlocked]
      rfl
  | _ => rfl

theorem after_standing (d : Desk) (move : Move) :
    (d.after s move).membership.standing s
      = (d.moments s move).foldl Moment.note (d.membership.standing s) := by
  rcases after_cases (s := s) d move with ⟨op, hop, -, hmoments, hmembership, -⟩ |
    ⟨op, -, hmoments, hmembership, -⟩ | ⟨hmoments, -, hsame⟩
  · rw [hmoments, hmembership]
    exact begin_standing d.membership hop
  · rw [hmoments, hmembership]
    exact granted_standing d.membership op
  · rw [hmoments, hsame]
    rfl

/-- The calls decide about block and policy at their moments. -/
theorem standing_run (d : Desk) (moves : List Move) :
    (d.run s moves).membership.standing s
      = (d.trace s moves).foldl Moment.note (d.membership.standing s) := by
  induction moves generalizing d with
  | nil => rfl
  | cons move rest ih =>
      have htrace : d.trace s (move :: rest) = d.moments s move ++ (d.after s move).trace s rest :=
        rfl
      rw [htrace, List.foldl_append, ← after_standing]
      exact ih (d.after s move)

theorem isValidCall_of_asked {d : Desk} {moves : List Move} {op : Operation}
    (h : .asked op ∈ d.trace s moves) : op.IsValidCall := by
  induction moves generalizing d with
  | nil => cases h
  | cons move rest ih =>
      rcases List.mem_append.mp h with h | h
      · rcases after_cases (s := s) d move with ⟨op', hop, -, hmoments, -⟩ |
          ⟨op', -, hmoments, -⟩ | ⟨hmoments, -⟩
        · rw [hmoments] at h
          cases List.mem_singleton.mp h
          exact hop
        · rw [hmoments] at h
          cases List.mem_singleton.mp h
        · rw [hmoments] at h
          cases h
      · exact ih h

theorem isValidCall_of_mem_calls {d : Desk} {moves : List Move} {op : Operation}
    (h : op ∈ d.calls s moves) : op.IsValidCall := by
  obtain ⟨moment, hmoment, hop⟩ := List.mem_filterMap.mp h
  cases moment with
  | asked op' =>
      cases hop
      exact isValidCall_of_asked hmoment
  | took op' => cases hop

theorem took_of_mem_turns {d : Desk} {moves : List Move} {op : Operation}
    (h : op ∈ d.turns s moves) : .took op ∈ d.trace s moves := by
  obtain ⟨moment, hmoment, hop⟩ := List.mem_filterMap.mp h
  cases moment with
  | asked op' => cases hop
  | took op' =>
      cases hop
      exact hmoment

/-- If a call is made and none waits in the end, it gets the policy later. -/
theorem took_of_asked {moves : List Move} {op : Operation} {later : List Moment} (d : Desk)
    (before : List Moment) (htrace : d.trace s moves = before ++ .asked op :: later)
    (hdone : (d.run s moves).waiting = []) : .took op ∈ later := by
  induction moves generalizing d before with
  | nil => simp [trace, collect] at htrace
  | cons move rest ih =>
      have hcons : d.trace s (move :: rest) = d.moments s move ++ (d.after s move).trace s rest :=
        rfl
      have hrun : d.run s (move :: rest) = (d.after s move).run s rest := rfl
      rw [hcons] at htrace
      rw [hrun] at hdone
      rcases after_cases (s := s) d move with ⟨op', -, -, hmoments, -, hwaiting⟩ |
        ⟨op', -, hmoments, -⟩ | ⟨hmoments, -⟩
      · rw [hmoments] at htrace
        cases before with
        | nil =>
            -- The call is made here, so it waits after the move.
            obtain ⟨hop, hlater⟩ := List.cons.inj htrace
            cases hop
            have hperm := waiting_run (s := s) (d.after s move) rest
            rw [hwaiting, hdone, List.append_nil] at hperm
            have hlater : (d.after s move).trace s rest = later := hlater
            rw [← hlater]
            exact took_of_mem_turns (hperm.mem_iff.mp (by simp))
        | cons moment before => exact ih _ before (List.cons.inj htrace).2 hdone
      · rw [hmoments] at htrace
        cases before with
        | nil => cases (List.cons.inj htrace).1
        | cons moment before => exact ih _ before (List.cons.inj htrace).2 hdone
      · rw [hmoments] at htrace
        exact ih _ before htrace hdone

end Waiting

/-! ### One after the other -/

/-- Is every operation over? -/
def IsOver (d : Desk) : Prop := ∀ p ∈ d.phases, ∃ result, p = .ended result

/-- Every operation starts when those before it are over. -/
def Sequential (s : ConnectionSettings) : Desk → List Move → Prop
  | _, [] => True
  | d, move :: rest => ((∃ op, move = .start op) → d.IsOver) ∧ Sequential s (d.after s move) rest

/-- The calls come in an order, each when the one before it is over. -/
structure SerialRun (s : ConnectionSettings) (m : Membership) (order : List Operation)
    (moves : List Move) : Prop where
  sequential : Sequential s (fresh m) moves
  ended : ((fresh m).run s moves).IsOver
  calls : (fresh m).calls s moves = order

section Serial

variable {s : ConnectionSettings}

theorem IsOver.waiting {d : Desk} (h : d.IsOver) : d.waiting = [] := by
  refine List.filterMap_eq_nil_iff.mpr (fun p hp => ?_)
  obtain ⟨result, rfl⟩ := h p hp
  rfl

theorem wake_ne_start (task : Nat) (w : Wake) : ¬ ∃ op, Move.wake task w = .start op := by
  rintro ⟨op, h⟩
  cases h

theorem ask_ask (x : Standing) (op : Operation) : (x.ask op).ask op = x.ask op := by
  cases op <;> rfl

/-- If nobody interferes, a call does its work between two starts. One call may be under way:
    it was made, and waits for the policy. -/
theorem sequential_standing {moves : List Move} (d : Desk) (hseq : Sequential s d moves)
    (hone : d.waiting = [] ∨ ∃ op, d.waiting = [op] ∧
      (d.membership.standing s).ask op = d.membership.standing s)
    (hdone : (d.run s moves).waiting = []) :
    (d.run s moves).membership.standing s
      = (d.waiting ++ d.calls s moves).foldl Standing.call (d.membership.standing s) := by
  induction moves generalizing d with
  | nil =>
      have hnone : d.waiting = [] := hdone
      change d.membership.standing s = (d.waiting ++ []).foldl _ _
      rw [hnone]
      rfl
  | cons move rest ih =>
      have hrun : d.run s (move :: rest) = (d.after s move).run s rest := rfl
      have hcalls : d.calls s (move :: rest)
          = (d.moments s move).filterMap Moment.asked? ++ (d.after s move).calls s rest :=
        List.filterMap_append
      have hstanding := after_standing (s := s) d move
      rw [hrun] at hdone ⊢
      rw [hcalls]
      rcases after_cases (s := s) d move with ⟨op, -, hstart, hmoments, -, hwaiting⟩ |
        ⟨op, -, hmoments, -, hperm⟩ | ⟨hmoments, hwaiting, hsame⟩
      · -- A call that is made finds nobody who waits, and waits alone from now on. What it asks for
        -- is already done.
        have hfree := (hseq.1 ⟨op, hstart⟩).waiting
        rw [hmoments] at hstanding ⊢
        have hstanding : (d.after s move).membership.standing s
            = (d.membership.standing s).ask op := hstanding
        rw [hfree, List.nil_append] at hwaiting
        have hnext := ih _ hseq.2 (Or.inr ⟨op, hwaiting, by rw [hstanding, ask_ask]⟩) hdone
        rw [hnext, hwaiting, hstanding, hfree]
        change _ = ((op :: (d.after s move).calls s rest)).foldl _ _
        rw [List.singleton_append, List.foldl_cons, List.foldl_cons, Standing.call, ask_ask,
          Standing.call]
      · -- Who gets the policy is the one who waited, and what it asked for still holds.
        obtain ⟨op', hop', hasked⟩ := hone.resolve_left (fun h => by simp [h] at hperm)
        rw [hop'] at hperm
        obtain ⟨hop, hnone⟩ := List.cons.inj (List.singleton_perm.mp hperm)
        subst hop
        have hwaiting : (d.after s move).waiting = [] := hnone.symm
        rw [hmoments] at hstanding ⊢
        have hstanding : (d.after s move).membership.standing s
            = (d.membership.standing s).take op' := hstanding
        have hnext := ih _ hseq.2 (Or.inl hwaiting) hdone
        rw [hnext, hwaiting, hstanding, hop']
        change _ = ((op' :: (d.after s move).calls s rest)).foldl _ _
        rw [List.nil_append, List.foldl_cons, Standing.call, hasked]
      · have hone' : (d.after s move).waiting = [] ∨ ∃ op, (d.after s move).waiting = [op] ∧
            ((d.after s move).membership.standing s).ask op
              = (d.after s move).membership.standing s := by
          rw [hwaiting, hsame]
          exact hone
        rw [ih _ hseq.2 hone' hdone, hwaiting, hsame, hmoments]
        rfl

/-- What calls lead to that come one after the other. -/
theorem SerialRun.standing {m : Membership} {order : List Operation} {moves : List Move}
    (h : SerialRun s m order moves) :
    ((fresh m).run s moves).membership.standing s
      = order.foldl Standing.call (m.standing s) := by
  rw [sequential_standing (fresh m) h.sequential (Or.inl rfl) h.ended.waiting, h.calls]
  rfl

/-- The wait of the last operation ends. -/
theorem after_last {m : Membership} {before : List Phase} {p : Phase} {w : Wake}
    (h : permits ⟨m, before ++ [p]⟩ w = true) :
    ending? ⟨m, before ++ [p]⟩ before.length w = some p ∧
      after s ⟨m, before ++ [p]⟩ (.wake before.length w)
        = ⟨(m.resume s p w).1, before ++ [(m.resume s p w).2]⟩ := by
  have hending : ending? ⟨m, before ++ [p]⟩ before.length w = some p := by
    rw [ending?, if_pos h]
    simp
  refine ⟨hending, ?_⟩
  unfold after
  simp [hending]

/-- The ledger cannot be reached. -/
def refused (task : Nat) : Move := .wake task (.answered (.error .unreachable))

/-- Does an operation come to its end while the ledger cannot be reached? -/
def GivesUp (s : ConnectionSettings) (m : Membership) (p : Phase) : Prop :=
  ∀ before : List Phase, ∃ count result,
    run s ⟨m, before ++ [p]⟩ (List.replicate count (refused before.length))
      = ⟨m, before ++ [.ended result]⟩

theorem givesUp_ended (m : Membership) (result : OperationResult) :
    GivesUp s m (.ended result) :=
  fun _ => ⟨0, result, rfl⟩

theorem GivesUp.refused {m : Membership} {p p' : Phase}
    (hresume : m.resume s p (.answered (.error .unreachable)) = (m, p'))
    (h : GivesUp s m p') : GivesUp s m p := by
  intro before
  obtain ⟨count, result, hrun⟩ := h before
  refine ⟨count + 1, result, ?_⟩
  have hnext : after s ⟨m, before ++ [p]⟩ (Desk.refused before.length) = ⟨m, before ++ [p']⟩ := by
    rw [Desk.refused, (after_last rfl).2, hresume]
  rw [List.replicate_succ]
  change run s (after s ⟨m, before ++ [p]⟩ (Desk.refused before.length)) _ = _
  rw [hnext, hrun]

theorem givesUp_openNext (m : Membership) (amount : Amount) (partners : List Address) :
    GivesUp s m (Membership.openNext amount partners) := by
  induction partners with
  | nil => exact givesUp_ended m _
  | cons partner rest ih => exact ih.refused rfl

theorem givesUp_closeNext (m : Membership) (channels : List Channel) :
    GivesUp s m (m.closeNext [] channels) := by
  induction channels with
  | nil => exact givesUp_ended m _
  | cons c rest ih => exact ih.refused rfl

theorem givesUp_granted (m : Membership) {op : Operation} (h : op.isCall = true) :
    GivesUp s (m.granted s op).1 (m.granted s op).2 := by
  cases op with
  | connect p =>
      change GivesUp s { m with policy := p } (if _ then _ else _)
      split
      · exact (givesUp_ended _ _).refused rfl
      · exact givesUp_openNext _ _ _
  | leave onlyReceiving => exact givesUp_closeNext _ _
  | _ => cases h

theorem sequential_append {first later : List Move} (d : Desk) (h : Sequential s d first)
    (h' : Sequential s (d.run s first) later) : Sequential s d (first ++ later) := by
  induction first generalizing d with
  | nil => exact h'
  | cons move rest ih => exact ⟨h.1, ih _ h.2 h'⟩

theorem calls_append (d : Desk) (first later : List Move) :
    d.calls s (first ++ later) = d.calls s first ++ (d.run s first).calls s later := by
  rw [calls, trace, collect_append, List.filterMap_append]
  rfl

theorem refused_quiet (d : Desk) (task count : Nat) :
    Sequential s d (List.replicate count (refused task)) ∧
      d.calls s (List.replicate count (refused task)) = [] := by
  induction count generalizing d with
  | zero => exact ⟨trivial, rfl⟩
  | succ count ih =>
      obtain ⟨hseq, hcalls⟩ := ih (d.after s (refused task))
      rw [List.replicate_succ]
      exact ⟨⟨(fun h => absurd h (wake_ne_start _ _)), hseq⟩, hcalls⟩

theorem begin_of_isValidCall (m : Membership) {op : Operation} (h : op.IsValidCall) :
    (m.begin s op).2 = .queued op := by
  cases op with
  | connect p =>
      have hvalid : p.isValid = true := h
      unfold Membership.begin
      dsimp only
      rw [if_pos hvalid]
  | leave onlyReceiving => rfl
  | _ => exact absurd h id

/-- The last operation can get the policy if the others are over. -/
theorem permits_granted {m : Membership} {before : List Phase} (op : Operation)
    (hover : ∀ p ∈ before, ∃ result, p = .ended result) :
    permits ⟨m, before ++ [.queued op]⟩ .granted = true := by
  rw [permits, Bool.not_eq_true', isTaken_eq_false_iff]
  intro p hp
  rcases List.mem_append.mp hp with hp | hp
  · obtain ⟨result, rfl⟩ := hover p hp
    rfl
  · rw [List.mem_singleton.mp hp]
    rfl

/-- If nothing is under way, a call that is made gets the policy at once. -/
theorem run_call {d : Desk} (hover : d.IsOver) {op : Operation} (h : op.IsValidCall) :
    d.run s [.start op, .wake d.phases.length .granted]
        = ⟨((d.membership.begin s op).1.granted s op).1,
          d.phases ++ [((d.membership.begin s op).1.granted s op).2]⟩ ∧
      d.calls s [.start op, .wake d.phases.length .granted] = [op] := by
  have hstart : d.after s (.start op)
      = ⟨(d.membership.begin s op).1, d.phases ++ [.queued op]⟩ := by
    change Desk.mk _ (d.phases ++ [_]) = _
    rw [begin_of_isValidCall d.membership h]
  obtain ⟨hending, hgranted⟩ :=
    after_last (s := s) (permits_granted (m := (d.membership.begin s op).1) op hover)
  constructor
  · rw [run, List.foldl_cons, hstart, List.foldl_cons, hgranted]
    rfl
  · have hasked : d.moments s (.start op) = [.asked op] := by
      rw [moments, begin_of_isValidCall d.membership h, call?_queued h]
      rfl
    have htook : (d.after s (.start op)).moments s (.wake d.phases.length .granted)
        = [.took op] := by
      rw [hstart, moments, hending, Option.bind_some, call?_queued h]
      rfl
    rw [calls, trace, collect, collect, collect, hasked, htook]
    rfl

/-- If nothing is under way, a call can be made and come to its end. -/
theorem exists_single {d : Desk} (hover : d.IsOver) {op : Operation} (h : op.IsValidCall) :
    ∃ moves, Sequential s d moves ∧ (d.run s moves).IsOver ∧ d.calls s moves = [op] := by
  obtain ⟨hmiddle, hcalls⟩ := run_call (s := s) hover h
  obtain ⟨count, result, hrun⟩ :=
    givesUp_granted (s := s) (d.membership.begin s op).1 h.isCall d.phases
  obtain ⟨hseq, hquiet⟩ := refused_quiet (s := s)
    (d.run s [.start op, .wake d.phases.length .granted]) d.phases.length count
  refine ⟨[.start op, .wake d.phases.length .granted]
    ++ List.replicate count (refused d.phases.length), ?_, ?_, ?_⟩
  · exact sequential_append d ⟨fun _ => hover, (fun h => absurd h (wake_ne_start _ _)), trivial⟩
      hseq
  · rw [run_append, hmiddle, hrun]
    intro p hp
    rcases List.mem_append.mp hp with hp | hp
    · exact hover p hp
    · exact ⟨result, List.mem_singleton.mp hp⟩
  · rw [calls_append, hquiet, List.append_nil, hcalls]

/-- Calls can be made in every order. -/
theorem exists_serialRun (m : Membership) {order : List Operation}
    (h : ∀ op ∈ order, op.IsValidCall) : ∃ moves, SerialRun s m order moves := by
  suffices hall : ∀ d : Desk, d.IsOver →
      ∃ moves, Sequential s d moves ∧ (d.run s moves).IsOver ∧ d.calls s moves = order by
    obtain ⟨moves, hseq, hover, hcalls⟩ := hall (fresh m) (fun _ hp => nomatch hp)
    exact ⟨moves, hseq, hover, hcalls⟩
  induction order with
  | nil => exact fun d hover => ⟨[], trivial, hover, rfl⟩
  | cons op rest ih =>
      intro d hover
      obtain ⟨first, hseq, hover, hfirst⟩ :=
        exists_single (s := s) hover (h op List.mem_cons_self)
      obtain ⟨later, hseq', hover', hlater⟩ :=
        ih (fun op' hop' => h op' (List.mem_cons_of_mem op hop')) _ hover
      refine ⟨first ++ later, sequential_append d hseq hseq', ?_, ?_⟩
      · rw [run_append]
        exact hover'
      · rw [calls_append, hfirst, hlater]
        rfl

end Serial

/-! ### The block -/

/-- No call to join is made, and none to leave gets the policy. -/
def Quiet (trace : List Moment) : Prop :=
  (∀ p, .asked (.connect p) ∉ trace) ∧ ∀ onlyReceiving, .took (.leave onlyReceiving) ∉ trace

/-- After a call to leave got the policy, one to join gets it that was made before, and nobody
    joins or leaves later. -/
def Overtaken (trace : List Moment) : Prop :=
  ∃ before onlyReceiving later p, trace = before ++ .took (.leave onlyReceiving) :: later ∧
    .took (.connect p) ∈ later ∧ Quiet later

theorem quiet_cons {moment : Moment} {trace : List Moment} (h : Quiet (moment :: trace)) :
    Quiet trace :=
  ⟨fun p hp => h.1 p (List.mem_cons_of_mem _ hp),
    fun onlyReceiving ho => h.2 onlyReceiving (List.mem_cons_of_mem _ ho)⟩

theorem blocked_of_quiet {trace : List Moment} (x : Standing) (h : Quiet trace) :
    (trace.foldl Moment.note x).blocked = x.blocked := by
  induction trace generalizing x with
  | nil => rfl
  | cons moment rest ih =>
      rw [List.foldl_cons, ih _ (quiet_cons h)]
      cases moment with
      | asked op =>
          cases op with
          | connect p => exact absurd List.mem_cons_self (h.1 p)
          | _ => rfl
      | took op =>
          cases op with
          | leave onlyReceiving => exact absurd List.mem_cons_self (h.2 onlyReceiving)
          | _ => rfl

/-- Who changed the block last, if anybody did. -/
theorem quiet_cases (trace : List Moment) :
    Quiet trace ∨
    (∃ before p later, trace = before ++ .asked (.connect p) :: later ∧ Quiet later) ∨
    (∃ before onlyReceiving later,
      trace = before ++ .took (.leave onlyReceiving) :: later ∧ Quiet later) := by
  induction trace with
  | nil => exact Or.inl ⟨(fun _ h => nomatch h), (fun _ h => nomatch h)⟩
  | cons moment rest ih =>
      rcases ih with hquiet | ⟨before, p, later, rfl, hlater⟩ |
        ⟨before, onlyReceiving, later, rfl, hlater⟩
      · by_cases hasked : ∃ p, moment = .asked (.connect p)
        · obtain ⟨p, rfl⟩ := hasked
          exact Or.inr (Or.inl ⟨[], p, rest, rfl, hquiet⟩)
        · by_cases htook : ∃ onlyReceiving, moment = .took (.leave onlyReceiving)
          · obtain ⟨onlyReceiving, rfl⟩ := htook
            exact Or.inr (Or.inr ⟨[], onlyReceiving, rest, rfl, hquiet⟩)
          · refine Or.inl ⟨fun p hp => ?_, fun onlyReceiving ho => ?_⟩
            · rcases List.mem_cons.mp hp with heq | hp
              · exact hasked ⟨p, heq.symm⟩
              · exact hquiet.1 p hp
            · rcases List.mem_cons.mp ho with heq | ho
              · exact htook ⟨onlyReceiving, heq.symm⟩
              · exact hquiet.2 onlyReceiving ho
      · exact Or.inr (Or.inl ⟨moment :: before, p, later, rfl, hlater⟩)
      · exact Or.inr (Or.inr ⟨moment :: before, onlyReceiving, later, rfl, hlater⟩)

/-- The policy is the same as if the calls had come in the order of their turns. -/
theorem policy_foldl_note (trace : List Moment) {x y : Standing}
    (htarget : x.channelTarget = y.channelTarget) (hfunds : x.funds = y.funds) :
    (trace.foldl Moment.note x).channelTarget
        = ((trace.filterMap Moment.took?).foldl Standing.call y).channelTarget ∧
      (trace.foldl Moment.note x).funds
        = ((trace.filterMap Moment.took?).foldl Standing.call y).funds := by
  induction trace generalizing x y with
  | nil => exact ⟨htarget, hfunds⟩
  | cons moment rest ih =>
      cases moment with
      | asked op => cases op <;> exact ih htarget hfunds
      | took op =>
          cases op <;>
            first | exact ih htarget hfunds | exact ih rfl hfunds | exact ih rfl rfl

/-- Calls that come one after the other block the network exactly if the policy asks for no
    channels. -/
theorem blocked_iff_of_calls {order : List Operation} (x : Standing)
    (h : ∀ op ∈ order, op.IsValidCall) (hsome : order ≠ []) :
    (order.foldl Standing.call x).blocked = true ↔
      (order.foldl Standing.call x).channelTarget = 0 := by
  rcases List.eq_nil_or_concat order with rfl | ⟨first, op, rfl⟩
  · exact absurd rfl hsome
  · rw [List.concat_eq_append] at h ⊢
    rw [List.foldl_append]
    have hop := h op (by simp)
    cases op with
    | connect p =>
        have hvalid : p.isValid = true := hop
        simp only [Policy.isValid, Bool.and_eq_true, decide_eq_true_eq] at hvalid
        exact iff_of_false Bool.false_ne_true hvalid.1.2
    | leave onlyReceiving => exact iff_of_true rfl rfl
    | _ => exact absurd hop id

/-- Only calls to join leave no block. -/
theorem blocked_of_joins {order : List Operation} (x : Standing)
    (h : ∀ op ∈ order, ∃ p, op = .connect p) (hsome : order ≠ []) :
    (order.foldl Standing.call x).blocked = false := by
  rcases List.eq_nil_or_concat order with rfl | ⟨first, op, rfl⟩
  · exact absurd rfl hsome
  · rw [List.concat_eq_append] at h ⊢
    obtain ⟨p, rfl⟩ := h op (by simp)
    rw [List.foldl_append]
    rfl

/-! ### The law -/

/-- What a run keeps to in which calls are made to join and to leave, and all of them get the
    policy. -/
structure SerialLaw (s : ConnectionSettings) (m : Membership) (moves : List Move) : Prop where
  /-- The policy is the one that the calls lead to if they come one after the other, in the
      order in which they got it. -/
  policy : ((fresh m).turns s moves).Perm ((fresh m).calls s moves) ∧
    ∃ serial, SerialRun s m ((fresh m).turns s moves) serial ∧
      (((fresh m).run s moves).membership.standing s).channelTarget
        = (((fresh m).run s serial).membership.standing s).channelTarget ∧
      (((fresh m).run s moves).membership.standing s).funds
        = (((fresh m).run s serial).membership.standing s).funds
  /-- There is an order of the calls that leads to the same block as well, unless a call to
      join is overtaken. -/
  atomic : (∃ order serial, order.Perm ((fresh m).calls s moves) ∧ SerialRun s m order serial ∧
      ((fresh m).run s moves).membership.standing s
        = ((fresh m).run s serial).membership.standing s) ↔
    ¬ Overtaken ((fresh m).trace s moves)
  /-- If there was a call, the network is blocked with a policy that asks for channels exactly
      if a call to join is overtaken. -/
  stuck : (fresh m).calls s moves ≠ [] →
    ((((fresh m).run s moves).membership.standing s).blocked = true ∧
        (((fresh m).run s moves).membership.standing s).channelTarget ≠ 0 ↔
      Overtaken ((fresh m).trace s moves))
  /-- A network without a block is one with a policy that asks for channels. -/
  joined : (fresh m).calls s moves ≠ [] →
    (((fresh m).run s moves).membership.standing s).blocked = false →
    (((fresh m).run s moves).membership.standing s).channelTarget ≠ 0

section Law

variable {s : ConnectionSettings} {m : Membership} {moves : List Move}

theorem turns_perm (hdone : ((fresh m).run s moves).waiting = []) :
    ((fresh m).turns s moves).Perm ((fresh m).calls s moves) := by
  have hperm := waiting_run (s := s) (fresh m) moves
  rw [hdone, List.append_nil] at hperm
  exact hperm.symm

theorem isValidCall_of_mem_turns (hdone : ((fresh m).run s moves).waiting = []) :
    ∀ op ∈ (fresh m).turns s moves, op.IsValidCall :=
  fun _ hop => isValidCall_of_mem_calls ((turns_perm hdone).mem_iff.mp hop)

/-- While nobody leaves, the turns are those of calls to join. -/
theorem joins_of_quiet (before : List Moment) {later : List Moment}
    (hdone : ((fresh m).run s moves).waiting = [])
    (htrace : (fresh m).trace s moves = before ++ later) (hquiet : Quiet later) :
    ∀ op ∈ later.filterMap Moment.took?, ∃ p, op = .connect p := by
  intro op hop
  have hturn : op ∈ (fresh m).turns s moves := by
    rw [turns, htrace, List.filterMap_append]
    exact List.mem_append_right _ hop
  have hvalid := isValidCall_of_mem_turns hdone op hturn
  obtain ⟨moment, hmoment, heq⟩ := List.mem_filterMap.mp hop
  cases moment with
  | asked op' => cases heq
  | took op' =>
      cases heq
      cases op with
      | connect p => exact ⟨p, rfl⟩
      | leave onlyReceiving => exact absurd hmoment (hquiet.2 onlyReceiving)
      | _ => exact absurd hvalid id

theorem filterMap_took?_ne_nil {later : List Moment} {op : Operation} (h : .took op ∈ later) :
    later.filterMap Moment.took? ≠ [] :=
  List.ne_nil_of_mem (List.mem_filterMap.mpr ⟨_, h, rfl⟩)

/-- Unless a call is overtaken, the block is that of the turns. -/
theorem blocked_of_not_overtaken (x : Standing) (hdone : ((fresh m).run s moves).waiting = [])
    (h : ¬ Overtaken ((fresh m).trace s moves)) :
    (((fresh m).trace s moves).foldl Moment.note x).blocked
      = (((fresh m).turns s moves).foldl Standing.call x).blocked := by
  rcases quiet_cases ((fresh m).trace s moves) with hquiet | ⟨before, p, later, htrace, hquiet⟩ |
    ⟨before, onlyReceiving, later, htrace, hquiet⟩
  · -- Nobody joins or leaves.
    have hnone : (fresh m).turns s moves = [] := by
      refine List.eq_nil_iff_forall_not_mem.mpr (fun op hop => ?_)
      obtain ⟨p, rfl⟩ := joins_of_quiet [] hdone rfl hquiet op hop
      obtain ⟨moment, hmoment, heq⟩ :=
        List.mem_filterMap.mp ((turns_perm hdone).mem_iff.mp hop)
      cases moment with
      | asked op' =>
          cases heq
          exact hquiet.1 p hmoment
      | took op' => cases heq
    rw [blocked_of_quiet x hquiet, hnone]
    rfl
  · -- The last one to join gets the policy later, and only such get it since.
    have hjoins := joins_of_quiet _ hdone
      (htrace.trans (List.append_cons before _ later)) hquiet
    have hsome := filterMap_took?_ne_nil (took_of_asked (fresh m) before htrace hdone)
    have hturns : (fresh m).turns s moves
        = before.filterMap Moment.took? ++ later.filterMap Moment.took? := by
      rw [turns, htrace, List.filterMap_append]
      rfl
    rw [hturns, htrace, List.foldl_append, List.foldl_append, List.foldl_cons,
      blocked_of_quiet _ hquiet, blocked_of_joins _ hjoins hsome]
    rfl
  · -- Nobody gets the policy after the last one that leaves.
    have hnone : later.filterMap Moment.took? = [] := by
      refine List.eq_nil_iff_forall_not_mem.mpr (fun op hop => ?_)
      obtain ⟨p, rfl⟩ := joins_of_quiet _ hdone
        (htrace.trans (List.append_cons before _ later)) hquiet op hop
      obtain ⟨moment, hmoment, heq⟩ := List.mem_filterMap.mp hop
      cases moment with
      | asked op' => cases heq
      | took op' =>
          cases heq
          exact h ⟨before, onlyReceiving, later, p, htrace, hmoment, hquiet⟩
    have hturns : (fresh m).turns s moves
        = before.filterMap Moment.took? ++ [.leave onlyReceiving] := by
      rw [turns, htrace, List.filterMap_append, List.filterMap_cons, hnone]
      rfl
    rw [hturns, htrace, List.foldl_append, List.foldl_append, List.foldl_cons,
      blocked_of_quiet _ hquiet]
    rfl

/-- If a call is overtaken, the network is blocked with a policy that asks for channels. -/
theorem stuck_of_overtaken (x : Standing) (hdone : ((fresh m).run s moves).waiting = [])
    (h : Overtaken ((fresh m).trace s moves)) :
    (((fresh m).trace s moves).foldl Moment.note x).blocked = true ∧
      (((fresh m).trace s moves).foldl Moment.note x).channelTarget ≠ 0 := by
  obtain ⟨before, onlyReceiving, later, p, htrace, htook, hquiet⟩ := h
  constructor
  · -- The call that leaves is the last one that touches the block.
    rw [htrace, List.foldl_append, List.foldl_cons, blocked_of_quiet _ hquiet]
    rfl
  · -- The policy is that of the last call that joined, and the calls in their turns would leave the
    -- network open for it.
    have hjoins := joins_of_quiet _ hdone
      (htrace.trans (List.append_cons before _ later)) hquiet
    have hsome := filterMap_took?_ne_nil htook
    have hturns : (fresh m).turns s moves
        = before.filterMap Moment.took? ++ [.leave onlyReceiving]
          ++ later.filterMap Moment.took? := by
      rw [turns, htrace, List.filterMap_append, List.filterMap_cons, List.append_assoc]
      rfl
    have hblocked : (((fresh m).turns s moves).foldl Standing.call x).blocked = false := by
      rw [hturns, List.foldl_append]
      exact blocked_of_joins _ hjoins hsome
    have hne : (fresh m).turns s moves ≠ [] := by
      rw [hturns]
      simp
    rw [(policy_foldl_note _ (x := x) rfl rfl).1]
    intro hzero
    have hiff := blocked_iff_of_calls x (isValidCall_of_mem_turns hdone) hne
    rw [hiff.mpr hzero] at hblocked
    cases hblocked

/-- Unless a call is overtaken, what is left is what the turns lead to. -/
theorem standing_of_not_overtaken (hdone : ((fresh m).run s moves).waiting = [])
    (h : ¬ Overtaken ((fresh m).trace s moves)) :
    ((fresh m).run s moves).membership.standing s
      = ((fresh m).turns s moves).foldl Standing.call (m.standing s) := by
  obtain ⟨htarget, hfunds⟩ :=
    policy_foldl_note ((fresh m).trace s moves) (x := m.standing s) rfl rfl
  rw [standing_run]
  exact Standing.ext (blocked_of_not_overtaken (m.standing s) hdone h) htarget hfunds

/-- Then the network is blocked exactly if the policy asks for no channels. -/
theorem blocked_iff_of_not_overtaken (hdone : ((fresh m).run s moves).waiting = [])
    (hcalls : (fresh m).calls s moves ≠ []) (h : ¬ Overtaken ((fresh m).trace s moves)) :
    (((fresh m).run s moves).membership.standing s).blocked = true ↔
      (((fresh m).run s moves).membership.standing s).channelTarget = 0 := by
  rw [standing_of_not_overtaken hdone h]
  refine blocked_iff_of_calls _ (isValidCall_of_mem_turns hdone) (fun hnone => hcalls ?_)
  have hperm := turns_perm hdone
  rw [hnone] at hperm
  exact hperm.nil_eq.symm

/-- Nobody is overtaken without a call. -/
theorem calls_ne_nil_of_overtaken (hdone : ((fresh m).run s moves).waiting = [])
    (h : Overtaken ((fresh m).trace s moves)) : (fresh m).calls s moves ≠ [] := by
  obtain ⟨before, onlyReceiving, later, p, htrace, htook, -⟩ := h
  have hturn : .connect p ∈ (fresh m).turns s moves :=
    List.mem_filterMap.mpr ⟨.took (.connect p), by rw [htrace]; simp [htook], rfl⟩
  exact List.ne_nil_of_mem ((turns_perm hdone).mem_iff.mp hturn)

/-- No order of the calls leads to what is left if one is overtaken. -/
theorem not_overtaken_of_serial (hdone : ((fresh m).run s moves).waiting = [])
    {order : List Operation} {serial : List Move} (hperm : order.Perm ((fresh m).calls s moves))
    (hserial : SerialRun s m order serial)
    (heq : ((fresh m).run s moves).membership.standing s
      = ((fresh m).run s serial).membership.standing s) :
    ¬ Overtaken ((fresh m).trace s moves) := by
  intro h
  have hsome : order ≠ [] := by
    rintro rfl
    exact calls_ne_nil_of_overtaken hdone h hperm.nil_eq.symm
  have hvalid : ∀ op ∈ order, op.IsValidCall :=
    fun op hop => isValidCall_of_mem_calls (hperm.mem_iff.mp hop)
  obtain ⟨hblocked, hwants⟩ := stuck_of_overtaken (m.standing s) hdone h
  have hleft : ((fresh m).trace s moves).foldl Moment.note (m.standing s)
      = order.foldl Standing.call (m.standing s) := by
    rw [← hserial.standing, ← heq, standing_run]
    rfl
  rw [hleft] at hblocked hwants
  exact hwants ((blocked_iff_of_calls _ hvalid hsome).mp hblocked)

/-- Every run in which all calls got the policy keeps to the law. -/
theorem run_serialLaw (hdone : ((fresh m).run s moves).waiting = []) : SerialLaw s m moves := by
  obtain ⟨serial, hserial⟩ := exists_serialRun (s := s) m (isValidCall_of_mem_turns hdone)
  have hpolicy := policy_foldl_note ((fresh m).trace s moves) (x := m.standing s) rfl rfl
  have hstuck := stuck_of_overtaken (m.standing s) hdone
  have hstanding : ((fresh m).run s moves).membership.standing s
      = ((fresh m).trace s moves).foldl Moment.note (m.standing s) := standing_run (fresh m) moves
  rw [← hstanding] at hpolicy hstuck
  rw [← turns, ← hserial.standing] at hpolicy
  refine ⟨⟨turns_perm hdone, serial, hserial, hpolicy⟩, ⟨?_, ?_⟩, ?_, ?_⟩
  · rintro ⟨order, serial', hperm, hserial', heq⟩
    exact not_overtaken_of_serial hdone hperm hserial' heq
  · -- The turns are an order of the calls, and the one that led here.
    intro h
    exact ⟨_, serial, turns_perm hdone, hserial,
      (standing_of_not_overtaken hdone h).trans hserial.standing.symm⟩
  · intro hcalls
    refine ⟨fun ⟨hblocked, hwants⟩ => ?_, hstuck⟩
    by_contra h
    exact hwants ((blocked_iff_of_not_overtaken hdone hcalls h).mp hblocked)
  · intro hcalls hfree hzero
    by_cases h : Overtaken ((fresh m).trace s moves)
    · rw [(hstuck h).1] at hfree
      cases hfree
    · rw [(blocked_iff_of_not_overtaken hdone hcalls h).mpr hzero] at hfree
      cases hfree

end Law

namespace LateLeave

def us : Address := .replicate 20 1

def node : Address := .replicate 20 17

def settings : ConnectionSettings := ⟨.replicate 20 170, us, .replicate 20 2, 100, 1, 1, 3⟩

/-- We know of one node, and did not join. -/
def membership : Membership :=
  ⟨(NetworkView.fresh us 5).addParticipant settings.tokenNetwork node, .empty⟩

/-- We join, which takes a while. -/
def joining : List Move :=
  [.start (.connect ⟨100, 1, 0.0⟩), .wake 0 .granted,
    .wake 0 (.answered (.ok (.opened (.zero 32))))]

/-- The channel comes into view and is funded. -/
def joined : List Move :=
  [.event (.channelOpened settings.tokenNetwork (.zero 32) us node 100 10), .wake 0 (.ticked true),
    .wake 0 (.answered (.ok .done))]

/-- Meanwhile we ask to leave, and then to join again with other funds. The channel cannot be
    closed. -/
def overtaken : List Move :=
  joining ++ [.start (.leave false), .start (.connect ⟨200, 2, 0.0⟩)] ++ joined
    ++ [.wake 1 .granted, refused 1, .wake 2 .granted]

/-- Meanwhile we ask to leave, and while we close the channel, to join again. -/
def inTime : List Move :=
  joining ++ [.start (.leave false)] ++ joined
    ++ [.wake 1 .granted, .start (.connect ⟨200, 2, 0.0⟩), refused 1, .wake 2 .granted]

/-- The network is blocked, although we joined with an aim of two channels. No order of the
    three calls leads to this. -/
theorem overtaken_unserial :
    ((fresh membership).run settings overtaken).waiting = [] ∧
    ((fresh membership).run settings overtaken).membership.standing settings = ⟨true, 2, 200⟩ ∧
    ∀ order serial, order.Perm ((fresh membership).calls settings overtaken) →
      SerialRun settings membership order serial →
      ((fresh membership).run settings serial).membership.standing settings
        ≠ ((fresh membership).run settings overtaken).membership.standing settings := by
  have hstanding : ((fresh membership).run settings overtaken).membership.standing settings
      = ⟨true, 2, 200⟩ := by decide +kernel
  refine ⟨by decide +kernel, hstanding, fun order serial horder hserial heq => ?_⟩
  have hlength : ((fresh membership).calls settings overtaken).length = 3 := by decide +kernel
  have hne : order ≠ [] := by
    rintro rfl
    rw [← horder.length_eq] at hlength
    cases hlength
  rw [hserial.standing, hstanding] at heq
  have hiff := blocked_iff_of_calls (membership.standing settings)
    (fun op hop => isValidCall_of_mem_calls (horder.mem_iff.mp hop)) hne
  rw [heq] at hiff
  exact absurd (hiff.mp rfl) (by decide)

/-- If we ask to join while the channel is being closed, the calls come one after the other. -/
theorem run_serialLaw_inTime :
    ((fresh membership).run settings inTime).waiting = [] ∧
    ∃ order serial, order.Perm ((fresh membership).calls settings inTime) ∧
      SerialRun settings membership order serial ∧
      ((fresh membership).run settings inTime).membership.standing settings
        = ((fresh membership).run settings serial).membership.standing settings := by
  have hdone : ((fresh membership).run settings inTime).waiting = [] := by decide +kernel
  have hcalls : ((fresh membership).calls settings inTime).length = 3 := by decide +kernel
  have hfree : (((fresh membership).run settings inTime).membership.standing settings).blocked
      = false := by decide +kernel
  refine ⟨hdone, (run_serialLaw hdone).atomic.mpr (fun hovertaken => ?_)⟩
  have hsome : (fresh membership).calls settings inTime ≠ [] := by
    intro hnone
    rw [hnone] at hcalls
    cases hcalls
  rw [(((run_serialLaw hdone).stuck hsome).mpr hovertaken).1] at hfree
  cases hfree

end LateLeave

end Desk

end PaymentNetwork

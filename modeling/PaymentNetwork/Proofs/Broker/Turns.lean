import PaymentNetwork.Proofs.Broker.Queue
import PaymentNetwork.Proofs.Transfer.Routing

/-!
# Why a Queue Becomes Empty

How long effects are carried out when carrying them out may cause more of them.

A locked transfer that its channel refuses is told to the transfer, and what the transfer asks
for then goes to the end of the queue. So the queue may grow while it is worked off, and its
length proves nothing. What becomes fewer is the locked transfers in the queue together with
the available routes of the transfer: a refusal takes one locked transfer out of the queue,
and if it puts another one in, that one goes over a route that was available before. What
else a refusal puts in is two effects at most. So each turn costs one, if there is one for
every effect that waits and two more for every locked transfer and every route.

`drain` tells what comes of all turns but not that there are turns. So they are recorded one
by one here, with what the channels and the transfer were when an effect got its turn, and
`drain` turns out to be what a full record comes to.

## Main definitions

* `Transfer.available`: The candidate routes that were not tried yet.
* `Routes.Spends`: A refusal takes an available route for every lock that it asks for.
* `Queue.Turn`: An effect that gets its turn.
* `Queue.Turns`: Some turns in a row.
* `Queue.turnsLeft`: A bound on the turns that there can be.
* `Queue.LoopLaw`: What becomes of a queue.

## Theorems

* `Transfer.step_spends`: A refusal spends routes, in every role.
* `Queue.drain_turn`: What `drain` does first is one turn.
* `Queue.turnsLeft_next`, `Queue.Turns.length_le`: Every turn costs one.
* `Queue.Turns.in_order`: What gets its turn is what was given and caused, in this order.
* `Queue.exists_turns`: There is a record of all turns, and nothing is left after it.
* `Queue.loopLaw`: The law for every queue.
-/

namespace PaymentNetwork

/-! ### The price of a refusal -/

/-- The candidate routes that were not tried yet. -/
def Transfer.available : Transfer → List Route
  | .initiator s => s.routes.available
  | .mediator s => s.routes.available
  | .target _ => []

theorem Transfer.length_available (t : Transfer) : t.available.length = t.routesLeft := by
  cases t <;> rfl

/-- What becomes of the available routes at a refusal, and what is asked for. -/
inductive Routes.Spends (available : List Route) : List Route → List Effect → Prop where
  /-- A lock is asked for over one of them, and it is available no longer. -/
  | asks {skipped left : List Route} {r : Route} {terms : TransferTerms}
      (hsplit : available = skipped ++ r :: left) :
      Spends available left [.sendLockedTransfer r.node r.channelId terms]
  /-- No lock is asked for, and of other effects there are few. -/
  | stops {left : List Route} {effects : List Effect} (hleft : left <:+ available)
      (hnone : Effect.lockedTransfers effects = 0) (hfew : effects.length ≤ 2) :
      Spends available left effects

section Spends

variable {available left : List Route} {effects : List Effect}

theorem Routes.spends_nothing (available : List Route) : Spends available available [] :=
  .stops (List.suffix_refl _) rfl (Nat.zero_le 2)

theorem Routes.Spends.length_le (h : Spends available left effects) : effects.length ≤ 2 := by
  cases h with
  | asks => exact Nat.le_succ 1
  | stops hleft hnone hfew => exact hfew

end Spends

namespace Initiator

theorem tryNextRoute_spends (s : Initiator) :
    Routes.Spends s.routes.available s.tryNextRoute.1.routes.available s.tryNextRoute.2 := by
  obtain ⟨skipped, hsplit, -, -⟩ := s.routes.popBest_advances none s.usable
  rw [Routes.putAway_none] at hsplit
  unfold tryNextRoute
  split
  · rename_i r routes heq
    rw [heq] at hsplit
    exact .asks hsplit
  · rename_i routes heq
    rw [heq] at hsplit
    exact .stops ⟨skipped, hsplit.symm⟩ rfl (Nat.le_succ 1)

/-- The route that failed was in use, so it is not one of the available ones. -/
theorem abandonRoute_spends (s : Initiator) :
    Routes.Spends s.routes.available s.abandonRoute.1.routes.available s.abandonRoute.2 := by
  unfold abandonRoute
  split
  · rename_i r hr
    have hnext := tryNextRoute_spends { s with routes := s.routes.cancel r, route? := none }
    exact hnext
  · exact s.tryNextRoute_spends

theorem step_spends (s : Initiator) (refusal : RouteRefusal) :
    Routes.Spends s.routes.available (s.step (.routeRefused refusal)).1.routes.available
      (s.step (.routeRefused refusal)).2 := by
  rw [step_routeRefused]
  split
  · unfold onRefusal
    split
    · exact s.abandonRoute_spends
    · exact Routes.spends_nothing _
  · exact Routes.spends_nothing _

end Initiator

namespace Mediator

theorem tryNextRoute_spends (s : Mediator) :
    Routes.Spends s.routes.available s.tryNextRoute.1.routes.available s.tryNextRoute.2 := by
  obtain ⟨skipped, hsplit, -, -⟩ := s.routes.popBest_advances none s.usable
  rw [Routes.putAway_none] at hsplit
  unfold tryNextRoute
  split
  · rename_i r routes heq
    rw [heq] at hsplit
    exact .asks hsplit
  · rename_i routes heq
    rw [heq] at hsplit
    exact .stops ⟨skipped, hsplit.symm⟩ rfl (Nat.le_refl 2)

theorem abandonRoute_spends (s : Mediator) :
    Routes.Spends s.routes.available s.abandonRoute.1.routes.available s.abandonRoute.2 := by
  unfold abandonRoute
  split
  · rename_i r hr
    have hnext := tryNextRoute_spends { s with routes := s.routes.cancel r, payeeRoute? := none }
    exact hnext
  · exact s.tryNextRoute_spends

theorem step_spends (s : Mediator) (refusal : RouteRefusal) :
    Routes.Spends s.routes.available (s.step (.routeRefused refusal)).1.routes.available
      (s.step (.routeRefused refusal)).2 := by
  rw [step_routeRefused]
  split
  · unfold onRefusal
    split
    · exact s.abandonRoute_spends
    · exact Routes.spends_nothing _
  · exact Routes.spends_nothing _

end Mediator

/-- A refusal spends routes, in every role. A target has none, and does not listen. -/
theorem Transfer.step_spends (t : Transfer) (refusal : RouteRefusal) :
    Routes.Spends t.available (t.step (.routeRefused refusal)).1.available
      (t.step (.routeRefused refusal)).2 := by
  cases t with
  | initiator s => exact s.step_spends refusal
  | mediator s => exact s.step_spends refusal
  | target s =>
      have hignored : s.step (.routeRefused refusal) = (s, []) := by
        cases h : s.status <;> simp [Target.step, h, TargetStatus.isTerminal]
      rw [step, hignored]
      exact Routes.spends_nothing _

/-! ### Turns -/

namespace Queue

open Broker

/-- An effect that gets its turn, with the channels and the transfer at that moment. -/
structure Turn where
  view : NetworkView
  transfer : Transfer
  effect : Effect

namespace Turn

/-- The refusal of a locked transfer by its channel. -/
def refusal? (block : Height) (s : Turn) : Option RouteRefusal :=
  match s.effect with
  | .sendLockedTransfer recipient channelId terms =>
    match s.view.withPartnerChannel channelId recipient (·.sendTransfer terms block) with
    | .ok _ => none
    | .error e => some ⟨terms.secretHash, channelId, e.describe⟩
  | _ => none

/-- What comes of the effect. A locked transfer that is refused changes nothing. -/
def outcome (block : Height) (s : Turn) : Outcome :=
  match s.effect with
  | .sendLockedTransfer recipient channelId terms =>
    build s.view channelId recipient (·.sendTransfer terms block) .lockedTransfer fun _ => []
  | e => perform s.view block e

/-- The transfer afterwards, and the effects that it asks for. It is told of a refusal and of
    nothing else. -/
def answer (block : Height) (s : Turn) : Transfer × List Effect :=
  match s.refusal? block with
  | some refusal => s.transfer.step (.routeRefused refusal)
  | none => (s.transfer, [])

section Answer

variable (block : Height) (s : Turn)

theorem answer_spends :
    Routes.Spends s.transfer.available (s.answer block).1.available (s.answer block).2 := by
  unfold answer
  split
  · exact s.transfer.step_spends _
  · exact Routes.spends_nothing _

theorem answer_cost :
    (s.answer block).1.routesLeft + Effect.lockedTransfers (s.answer block).2
      ≤ s.transfer.routesLeft := by
  unfold answer
  split
  · exact s.transfer.step_routeRefused_cost _
  · exact Nat.le_refl _

theorem answer_role : (s.answer block).1.role = s.transfer.role := by
  unfold answer
  split
  · exact s.transfer.step_role _
  · rfl

theorem answer_secretHash : (s.answer block).1.secretHash = s.transfer.secretHash := by
  unfold answer
  split
  · exact s.transfer.step_secretHash _
  · rfl

/-- Only a locked transfer is refused. -/
theorem refusal?_of_not_isLockedTransfer {s : Turn} (h : s.effect.isLockedTransfer = false) :
    s.refusal? block = none := by
  unfold refusal?
  split
  · rename_i heq
    rw [heq] at h
    cases h
  · rfl

end Answer

end Turn

/-- What is left after the turn of the first effect. -/
def next (block : Height) (s : Turn) (rest : List Effect) : Queue :=
  ⟨(s.outcome block).view, (s.answer block).1, rest ++ (s.answer block).2⟩

/-- Some turns in a row, from the first effect on. -/
inductive Turns (block : Height) : Queue → List Turn → Queue → Prop where
  | nil (q : Queue) : Turns block q [] q
  | cons {s : Turn} {rest : List Effect} {later : List Turn} {q : Queue}
      (h : Turns block (next block s rest) later q) :
      Turns block ⟨s.view, s.transfer, s.effect :: rest⟩ (s :: later) q

/-- What `drain` leaves: no effect, and the view and the transfer that it returns. -/
def drained (block : Height) (q : Queue) : Queue :=
  ⟨(drain q.view block q.transfer q.effects).2.view, (drain q.view block q.transfer q.effects).1,
    []⟩

/-- What is done by `drain`. -/
def drainActions (block : Height) (q : Queue) : List Action :=
  (drain q.view block q.transfer q.effects).2.actions

/-- What `drain` does first is one turn. -/
theorem drain_turn (block : Height) (s : Turn) (rest : List Effect) :
    drained block ⟨s.view, s.transfer, s.effect :: rest⟩ = drained block (next block s rest) ∧
    drainActions block ⟨s.view, s.transfer, s.effect :: rest⟩
      = (s.outcome block).actions ++ drainActions block (next block s rest) := by
  -- Only a locked transfer can be refused, so for every other effect a turn is just what is
  -- performed.
  obtain ⟨view, t, e⟩ := s
  cases e with
  | sendLockedTransfer recipient channelId terms =>
      simp only [drained, drainActions, next, Turn.outcome, Turn.answer, Turn.refusal?, build]
      rw [drain]
      cases view.withPartnerChannel channelId recipient (·.sendTransfer terms block) with
      | ok sent => simp
      | error e => simp
  | _ =>
      simp only [drained, drainActions, next, Turn.outcome, Turn.answer, Turn.refusal?,
        List.append_nil]
      rw [drain]
      · simp
      · simp

section Turns

variable {block : Height} {q q' : Queue} {turns : List Turn}

/-- So turns take nothing away from what `drain` does, and put nothing into it. -/
theorem Turns.drained_eq (h : Turns block q turns q') :
    drained block q = drained block q' ∧
    drainActions block q
      = turns.flatMap (fun s => (s.outcome block).actions) ++ drainActions block q' := by
  induction h with
  | nil q => exact ⟨rfl, rfl⟩
  | @cons s rest later q h ih =>
      obtain ⟨hfirst, hactions⟩ := drain_turn block s rest
      refine ⟨hfirst.trans ih.1, hactions.trans ?_⟩
      rw [ih.2, List.flatMap_cons, List.append_assoc]

/-- What gets its turn and then what waits is what was given and then what was caused. -/
theorem Turns.in_order (h : Turns block q turns q') :
    q.effects ++ turns.flatMap (fun s => (s.answer block).2)
      = turns.map Turn.effect ++ q'.effects := by
  induction h with
  | nil q => exact List.append_nil _
  | @cons s rest later q h ih =>
      rw [List.flatMap_cons, List.map_cons, List.cons_append, List.cons_append, ← ih, next,
        List.append_assoc]

theorem Turns.transfer_kept (h : Turns block q turns q') :
    q'.transfer.role = q.transfer.role ∧ q'.transfer.secretHash = q.transfer.secretHash := by
  induction h with
  | nil q => exact ⟨rfl, rfl⟩
  | @cons s rest later q h ih =>
      exact ⟨ih.1.trans (s.answer_role block),
        ih.2.trans (s.answer_secretHash block)⟩

/-! ### The measure -/

/-- The locked transfers that wait, and those that can still be asked for. -/
def locksLeft (q : Queue) : Nat := Effect.lockedTransfers q.effects + q.transfer.available.length

/-- The turn of a locked transfer leaves one less, and no turn leaves more. -/
theorem locksLeft_next (block : Height) (s : Turn) (rest : List Effect) :
    (next block s rest).locksLeft + (if s.effect.isLockedTransfer then 1 else 0)
      ≤ locksLeft ⟨s.view, s.transfer, s.effect :: rest⟩ := by
  -- A lock that is asked for takes its route with it, so it is counted once before and once after.
  have hcost := s.answer_cost block
  simp only [locksLeft, next, Effect.lockedTransfers_append, Effect.lockedTransfers_cons,
    Transfer.length_available]
  omega

theorem Turns.tried_le (h : Turns block q turns q') :
    turns.countP (·.effect.isLockedTransfer) + q'.locksLeft ≤ q.locksLeft := by
  induction h with
  | nil q => exact Nat.le_of_eq (Nat.zero_add _)
  | @cons s rest later q h ih =>
      have hfirst := locksLeft_next block s rest
      rw [List.countP_cons]
      omega

/-- A bound on the turns that there can be: one for each effect that waits, and two more
    for each refusal that may come. -/
def turnsLeft (q : Queue) : Nat := q.effects.length + 2 * q.locksLeft

/-- Every turn costs one, also if it causes other effects. -/
theorem turnsLeft_next (block : Height) (s : Turn) (rest : List Effect) :
    (next block s rest).turnsLeft + 1
      ≤ turnsLeft ⟨s.view, s.transfer, s.effect :: rest⟩ := by
  have hlocks := locksLeft_next block s rest
  have hlength : (next block s rest).effects.length = rest.length + (s.answer block).2.length :=
    List.length_append
  have hfew := (s.answer_spends block).length_le
  rw [turnsLeft, turnsLeft, hlength, List.length_cons]
  cases hlocked : s.effect.isLockedTransfer with
  | true =>
      -- The locked transfer is one less, which is worth two, and a refusal asks for two at most.
      rw [hlocked, if_pos rfl] at hlocks
      omega
  | false =>
      -- An effect that is not refused causes none.
      have hnone : (s.answer block).2 = [] := by
        rw [Turn.answer, Turn.refusal?_of_not_isLockedTransfer block hlocked]
      rw [hnone, List.length_nil]
      omega

theorem Turns.length_le (h : Turns block q turns q') :
    turns.length + q'.turnsLeft ≤ q.turnsLeft := by
  induction h with
  | nil q => exact Nat.le_of_eq (Nat.zero_add _)
  | @cons s rest later q h ih =>
      have hfirst := turnsLeft_next block s rest
      rw [List.length_cons]
      omega

end Turns

/-- There is a record of all turns, and nothing is left after it. -/
theorem exists_turns (block : Height) (q : Queue) :
    ∃ turns, Turns block q turns (q.drained block) := by
  induction hbound : q.turnsLeft using Nat.strong_induction_on generalizing q with
  | _ bound ih =>
      obtain ⟨view, t, effects⟩ := q
      cases effects with
      | nil =>
          have hdone : drained block ⟨view, t, []⟩ = ⟨view, t, []⟩ := by
            simp only [drained]
            rw [drain]
          rw [hdone]
          exact ⟨[], .nil _⟩
      | cons e rest =>
          -- The measure goes down with the first turn, whatever the turn adds to the end.
          let s : Turn := ⟨view, t, e⟩
          have hcost : (next block s rest).turnsLeft < bound := hbound ▸ turnsLeft_next block s rest
          obtain ⟨later, hlater⟩ := ih _ hcost (next block s rest) rfl
          rw [(drain_turn block s rest).1]
          exact ⟨s :: later, .cons hlater⟩

/-- What becomes of a queue. -/
structure LoopLaw (block : Height) (q : Queue) : Prop where
  /-- Whatever turns there were, some more lead to the end. There no effect waits, the view
      and the transfer are what `drain` returns, and what was done on the way is what
      `drain` does. -/
  ends : ∀ turns q', Turns block q turns q' → ∃ later,
    Turns block q' later (q.drained block) ∧
    q.drainActions block = (turns ++ later).flatMap fun s => (s.outcome block).actions
  /-- There are no more turns than this, so the end comes. -/
  short : ∀ turns q', Turns block q turns q' → turns.length ≤ q.effects.length
    + 2 * (Effect.lockedTransfers q.effects + q.transfer.available.length)
  /-- A refusal takes one of the routes that are available and asks for a lock over it, or it
      asks for no lock. It makes no route available. -/
  refused : ∀ turns q', Turns block q turns q' → ∀ s ∈ turns, ∀ refusal,
    s.refusal? block = some refusal →
    Effect.lockedTransfers (s.answer block).2 = 0 ∧
      (s.answer block).1.available <:+ s.transfer.available ∨
    ∃ skipped r terms, s.transfer.available = skipped ++ r :: (s.answer block).1.available ∧
      (s.answer block).2 = [.sendLockedTransfer r.node r.channelId terms]
  /-- There are no more locked transfers tried than were given and than there were routes. -/
  tried : ∀ turns q', Turns block q turns q' → turns.countP (·.effect.isLockedTransfer)
    ≤ Effect.lockedTransfers q.effects + q.transfer.available.length
  /-- What gets its turn is what was given and then what was caused, each once and in this
      order, up to what waits. -/
  inOrder : ∀ turns q', Turns block q turns q' →
    q.effects ++ turns.flatMap (fun s => (s.answer block).2)
      = turns.map Turn.effect ++ q'.effects
  /-- The transfer stays the one that it is. -/
  kept : ∀ turns q', Turns block q turns q' →
    q'.transfer.role = q.transfer.role ∧ q'.transfer.secretHash = q.transfer.secretHash

/-- Every queue follows the law. -/
theorem loopLaw (block : Height) (q : Queue) : LoopLaw block q where
  ends turns q' h := by
    obtain ⟨later, hlater⟩ := exists_turns block q'
    obtain ⟨hsame, hactions⟩ := h.drained_eq
    refine ⟨later, hsame ▸ hlater, ?_⟩
    have hnothing : drainActions block (q'.drained block) = [] := by
      simp only [drainActions, drained]
      rw [drain]
    rw [hactions, hlater.drained_eq.2, hnothing, List.append_nil, List.flatMap_append]
  short turns q' h := Nat.le_trans (Nat.le_add_right _ _) h.length_le
  refused _ _ _ s _ _ _ := by
    -- All that counts about a refusal is what it spends.
    have hspends := s.answer_spends block
    generalize s.answer block = answer at hspends ⊢
    obtain ⟨t, effects⟩ := answer
    dsimp only at hspends ⊢
    generalize t.available = left at hspends ⊢
    cases hspends with
    | asks hsplit => exact Or.inr ⟨_, _, _, hsplit, rfl⟩
    | stops hleft hnone hfew => exact Or.inl ⟨hnone, hleft⟩
  tried turns q' h := Nat.le_trans (Nat.le_add_right _ _) h.tried_le
  inOrder turns q' h := h.in_order
  kept turns q' h := h.transfer_kept

end Queue

end PaymentNetwork

import Mathlib.Data.List.Induction
import PaymentNetwork.Chain.Confirmation
import PaymentNetwork.Proofs.SortedMap
import PaymentNetwork.Proofs.Sorting
import PaymentNetwork.Proofs.Transfer.Trace

/-!
# What Is Handed Out

When an event of the ledger leaves the line of those that wait for confirmation.

Whether an event may go is a question about the past: it has to be deep enough, and a
settlement has to come after the closing of its channel, or to have waited for it long
enough. `Due` says so in terms of what was handed out before, and knows nothing of how the
line is gone through. The law of this module is that the two agree. What is handed out was
due, nothing that stays behind is, and between arrival and handing out no event is lost or
doubled.

That nothing due stays behind is what the repeated rounds are for. A closing that is handed
out late in a round makes a settlement due that was passed over early in it. Only a round
that hands out nothing shows that nothing is due any more, and since every other round makes
the line shorter, such a round comes.

## Main definitions

* `ChainEvent.closes`, `ChainEvent.settles`: The events between which a dispute lasts.
* `Confirmation.AwaitsSettlement`, `Confirmation.Due`: When an event may be handed out.
* `ConfirmationInput`, `Confirmation.run`, `Confirmation.log`: A history, and what was
  handed out in it.
* `Confirmation.sweepWithin`: The rounds, if there are not too many.
* `Confirmation.ReleaseLaw`: What a history keeps to.

## Theorems

* `Confirmation.contains_closedBy`: Which channels await their settlement.
* `Confirmation.sweepAll_handover`, `Confirmation.sweepAll_stuck`: What the rounds hand out,
  and what they leave behind.
* `Confirmation.sweepWithin_eq_sweepAll`: How many rounds there are.
* `Confirmation.run_releaseLaw`: The law for every history.
-/

namespace PaymentNetwork

/-- Every element of a list is related to what stands before it. -/
def Follows {α : Type} (P : List α → α → Prop) (xs : List α) : Prop :=
  ∀ before x after, xs = before ++ x :: after → P before x

theorem follows_nil {α : Type} (P : List α → α → Prop) : Follows P [] := by
  intro before x after h
  simp at h

theorem follows_append {α : Type} {P : List α → α → Prop} {xs ys : List α}
    (hx : Follows P xs) (hy : Follows (fun before x => P (xs ++ before) x) ys) :
    Follows P (xs ++ ys) := by
  intro before x after h
  rcases List.append_eq_append_iff.mp h with ⟨middle, hbefore, hys⟩ | ⟨middle, hxs, hafter⟩
  · rw [hbefore]
    exact hy middle x after hys
  · cases middle with
    | nil =>
        rw [List.append_nil] at hxs
        have hfirst := hy [] x after hafter.symm
        simpa [hxs] using hfirst
    | cons y middle =>
        obtain ⟨rfl, -⟩ := List.cons.inj hafter
        exact hx before x middle hxs

theorem follows_map {α β : Type} {P : List β → β → Prop} {f : α → β} {xs : List α}
    (h : Follows (fun before x => P (before.map f) (f x)) xs) : Follows P (xs.map f) := by
  intro before y after heq
  obtain ⟨first, rest, hxs, rfl, hrest⟩ := List.map_eq_append_iff.mp heq
  obtain ⟨x, later, rfl, rfl, -⟩ := List.map_eq_cons_iff.mp hrest
  exact h first x later hxs

namespace ChainEvent

/-- Does the event start the dispute about the channel? -/
def closes (c : ChannelId) (e : ChainEvent) : Bool := e.isClose && decide (e.channelId? = some c)

/-- Does the event end the dispute about the channel? -/
def settles (c : ChannelId) (e : ChainEvent) : Bool :=
  e.isSettlement && decide (e.channelId? = some c)

end ChainEvent

/-- Something that happens to events that wait for confirmation. -/
inductive ConfirmationInput where
  | arrive (e : ChainEvent)
  | release (height : Height)

namespace ConfirmationInput

/-- The event that arrives, if one does. -/
def event? : ConfirmationInput → Option ChainEvent
  | arrive e => some e
  | release _ => none

/-- The events that arrive, in this order. -/
def arrivals (inputs : List ConfirmationInput) : List ChainEvent := inputs.filterMap event?

theorem arrivals_append (first later : List ConfirmationInput) :
    arrivals (first ++ later) = arrivals first ++ arrivals later :=
  List.filterMap_append

end ConfirmationInput

namespace Confirmation

/-! ### When an event may go -/

/-- Was the closing of the channel handed out, and no settlement of it since? -/
def AwaitsSettlement (log : List ChainEvent) (c : ChannelId) : Prop :=
  ∃ before closing since, log = before ++ closing :: since ∧ closing.closes c = true ∧
    ∀ e ∈ since, e.settles c = false

/-- May an event be handed out at a height, after those of a log? It is deep enough, and
    if it settles a channel, the channel awaits that or the hold is over. -/
def Due (confirm hold : Height) (log : List ChainEvent) (height : Height) (e : ChainEvent) :
    Prop :=
  e.block.satAdd confirm ≤ height ∧
  ∀ c, e.settles c = true →
    AwaitsSettlement log c ∨ (e.block.satAdd hold).satAdd confirm ≤ height

/-- The closed channels, by what was handed out. -/
def closedBy (log : List ChainEvent) : SortedMap ChannelId Unit := log.foldl noteClosing .empty

theorem closedBy_concat (log : List ChainEvent) (e : ChainEvent) :
    closedBy (log ++ [e]) = noteClosing (closedBy log) e :=
  List.foldl_append

theorem awaitsSettlement_concat {log : List ChainEvent} {e : ChainEvent} {c : ChannelId} :
    AwaitsSettlement (log ++ [e]) c ↔
      e.closes c = true ∨ (AwaitsSettlement log c ∧ e.settles c = false) := by
  constructor
  · rintro ⟨before, closing, since, hlog, hcloses, hsince⟩
    -- The new event is the closing itself, or the last one since a closing that came before.
    rcases List.eq_nil_or_concat since with rfl | ⟨since, f, rfl⟩
    · obtain ⟨-, hlast⟩ := List.append_inj' hlog rfl
      rw [List.singleton_inj.mp hlast]
      exact Or.inl hcloses
    · have hsplit : log ++ [e] = (before ++ closing :: since) ++ [f] := by simpa using hlog
      obtain ⟨hlog, hlast⟩ := List.append_inj' hsplit rfl
      rw [List.singleton_inj.mp hlast]
      refine Or.inr ⟨⟨before, closing, since, hlog, hcloses, ?_⟩, hsince f (by simp)⟩
      intro g hg
      exact hsince g (by simp [hg])
  · rintro (hcloses | ⟨⟨before, closing, since, rfl, hcloses, hsince⟩, hsettles⟩)
    · exact ⟨log, e, [], rfl, hcloses, fun _ h => nomatch h⟩
    · refine ⟨before, closing, since ++ [e], by simp, hcloses, ?_⟩
      intro f hf
      rcases List.mem_append.mp hf with hf | hf
      · exact hsince f hf
      · rw [List.mem_singleton.mp hf]
        exact hsettles

theorem contains_noteClosing (closed : SortedMap ChannelId Unit) (e : ChainEvent)
    (c : ChannelId) :
    (noteClosing closed e).contains c = (e.closes c || (closed.contains c && !e.settles c)) := by
  cases e with
  | channelClosed tokenNetwork id closer block =>
      by_cases hc : c = id
      · simp [noteClosing, SortedMap.contains, ChainEvent.closes, ChainEvent.isClose,
          ChainEvent.channelId?, hc]
      · simp [noteClosing, SortedMap.contains, ChainEvent.closes, ChainEvent.settles,
          ChainEvent.isSettlement, ChainEvent.channelId?, SortedMap.get?_insert_of_ne hc,
          Ne.symm hc]
  | channelSettled tokenNetwork id block =>
      by_cases hc : c = id
      · simp [noteClosing, SortedMap.contains, ChainEvent.closes, ChainEvent.settles,
          ChainEvent.isClose, ChainEvent.isSettlement, ChainEvent.channelId?, hc]
      · simp [noteClosing, SortedMap.contains, ChainEvent.closes, ChainEvent.settles,
          ChainEvent.isClose, ChainEvent.channelId?, SortedMap.get?_erase_of_ne hc, Ne.symm hc]
  | _ => simp [noteClosing, ChainEvent.closes, ChainEvent.settles, ChainEvent.isClose,
      ChainEvent.isSettlement]

/-- The set of closed channels holds exactly those that await their settlement. -/
theorem contains_closedBy (log : List ChainEvent) (c : ChannelId) :
    (closedBy log).contains c = true ↔ AwaitsSettlement log c := by
  induction log using List.reverseRec with
  | nil =>
      constructor
      · intro h
        exact absurd h Bool.false_ne_true
      · rintro ⟨before, closing, since, h, -⟩
        simp at h
  | append_singleton log e ih =>
      rw [closedBy_concat, contains_noteClosing, awaitsSettlement_concat, ← ih]
      simp

theorem isHeld_eq_true_iff {closed : SortedMap ChannelId Unit} {e : ChainEvent} :
    isHeld closed e = true ↔ ∃ c, e.settles c = true ∧ closed.contains c = false := by
  cases e <;> simp [isHeld, ChainEvent.settles, ChainEvent.isSettlement, ChainEvent.channelId?]

section Rounds

variable (q : Confirmation) (height : Height)

/-- An event that is deep enough is due if it is not held, or not any longer. -/
theorem due_iff_of_ready (log : List ChainEvent) {e : ChainEvent}
    (hready : q.isReady e.block height = true) :
    Due q.confirmBlocks q.settleHoldBlocks log height e ↔
      isHeld (closedBy log) e = true → q.isReady (e.block.satAdd q.settleHoldBlocks) height := by
  have hdeep : e.block.satAdd q.confirmBlocks ≤ height := of_decide_eq_true hready
  constructor
  · rintro ⟨-, hdue⟩ hheld
    obtain ⟨c, hsettles, hclosed⟩ := isHeld_eq_true_iff.mp hheld
    rcases hdue c hsettles with hawaits | hover
    · rw [← contains_closedBy, hclosed] at hawaits
      exact absurd hawaits Bool.false_ne_true
    · exact decide_eq_true hover
  · intro hover
    refine ⟨hdeep, fun c hsettles => ?_⟩
    by_cases hawaits : AwaitsSettlement log c
    · exact Or.inl hawaits
    · rw [← contains_closedBy, Bool.not_eq_true] at hawaits
      exact Or.inr (of_decide_eq_true (hover (isHeld_eq_true_iff.mpr ⟨c, hsettles, hawaits⟩)))

/-! ### Going through the line -/

/-- Some events were gone through after those of a log were handed out: what was handed out
    was due in its turn, and all others are kept in their order. -/
structure Handover (log events released kept : List ChainEvent) : Prop where
  perm : events.Perm (released ++ kept)
  sublist : kept.Sublist events
  due : Follows (fun before e =>
    Due q.confirmBlocks q.settleHoldBlocks (log ++ before) height e) released

variable {q height} {log events released kept : List ChainEvent}

theorem Handover.keep (e : ChainEvent) (h : q.Handover height log events released kept) :
    q.Handover height log (e :: events) released (e :: kept) where
  perm := (h.perm.cons e).trans List.perm_middle.symm
  sublist := h.sublist.cons_cons e
  due := h.due

theorem Handover.pass {e : ChainEvent}
    (hdue : Due q.confirmBlocks q.settleHoldBlocks log height e)
    (h : q.Handover height (log ++ [e]) events released kept) :
    q.Handover height log (e :: events) (e :: released) kept where
  perm := h.perm.cons e
  sublist := h.sublist.cons e
  due := by
    have hfirst : Follows (fun before f =>
        Due q.confirmBlocks q.settleHoldBlocks (log ++ before) height f) [e] := by
      intro before f after heq
      cases before with
      | nil =>
          obtain ⟨rfl, -⟩ := List.cons.inj heq
          simpa using hdue
      | cons g before => simp at heq
    exact follows_append hfirst (by simpa using h.due)

/-- Going through what was kept goes on with handing out. -/
theorem Handover.trans {released' kept' : List ChainEvent}
    (h : q.Handover height log events released kept)
    (h' : q.Handover height (log ++ released) kept released' kept') :
    q.Handover height log events (released ++ released') kept' where
  perm := by
    rw [List.append_assoc]
    exact h.perm.trans (h'.perm.append_left released)
  sublist := h'.sublist.trans h.sublist
  due := follows_append h.due (by simpa using h'.due)

theorem sweep_handover (log : List ChainEvent)
    (hready : ∀ e ∈ events, q.isReady e.block height = true) :
    q.Handover height log events (q.sweep height (closedBy log) events).released
        (q.sweep height (closedBy log) events).kept ∧
      (q.sweep height (closedBy log) events).closed
        = closedBy (log ++ (q.sweep height (closedBy log) events).released) := by
  induction events generalizing log with
  | nil => exact ⟨⟨List.Perm.refl _, List.Sublist.refl _, follows_nil _⟩, by simp [sweep]⟩
  | cons e rest ih =>
      have hrest : ∀ f ∈ rest, q.isReady f.block height = true :=
        fun f hf => hready f (List.mem_cons_of_mem e hf)
      have hdue := q.due_iff_of_ready height log (hready e List.mem_cons_self)
      -- The first event goes or stays, and only if it goes are the others due after it: the
      -- induction is over every log.
      obtain ⟨hpass, hpassed⟩ := ih (log ++ [e]) hrest
      obtain ⟨hkeep, hkept⟩ := ih log hrest
      rw [closedBy_concat] at hpass hpassed
      rw [List.append_assoc] at hpassed
      unfold sweep
      split
      · rename_i hheld
        split
        · rename_i hover
          -- It is held, but not any longer.
          exact ⟨hpass.pass (hdue.mpr fun _ => hover), hpassed⟩
        · exact ⟨hkeep.keep e, hkept⟩
      · rename_i hfree
        exact ⟨hpass.pass (hdue.mpr fun hheld => absurd hheld hfree), hpassed⟩

/-- If a round hands out nothing, nothing is due. -/
theorem sweep_stuck (hready : ∀ e ∈ events, q.isReady e.block height = true)
    (hnone : (q.sweep height (closedBy log) events).released = []) :
    (q.sweep height (closedBy log) events).kept = events ∧
      ∀ e ∈ events, ¬ Due q.confirmBlocks q.settleHoldBlocks log height e := by
  induction events with
  | nil => exact ⟨rfl, fun _ h => nomatch h⟩
  | cons e rest ih =>
      have hdue := q.due_iff_of_ready height log (hready e List.mem_cons_self)
      unfold sweep at hnone ⊢
      split at hnone
      · rename_i hheld
        rw [if_pos hheld]
        split at hnone
        · cases hnone
        · rename_i hover
          obtain ⟨hkept, hrest⟩ := ih (fun f hf => hready f (List.mem_cons_of_mem e hf)) hnone
          rw [if_neg hover]
          -- Only held events pass without a change of the closed channels, so each of them was
          -- looked at with the set the round began with.
          refine ⟨congrArg (e :: ·) hkept, fun f hf => ?_⟩
          rcases List.mem_cons.mp hf with rfl | hf
          · exact fun h => hover (hdue.mp h hheld)
          · exact hrest f hf
      · cases hnone

theorem sweepAll_handover (log : List ChainEvent)
    (hready : ∀ e ∈ events, q.isReady e.block height = true) :
    q.Handover height log events (q.sweepAll height (closedBy log) events).released
        (q.sweepAll height (closedBy log) events).kept ∧
      (q.sweepAll height (closedBy log) events).closed
        = closedBy (log ++ (q.sweepAll height (closedBy log) events).released) ∧
      ∀ e ∈ (q.sweepAll height (closedBy log) events).kept,
        ¬ Due q.confirmBlocks q.settleHoldBlocks
          (log ++ (q.sweepAll height (closedBy log) events).released) height e := by
  -- Every round but the last one leaves fewer events, and the law of a round is about any log.
  induction hn : events.length using Nat.strongRecOn generalizing events log with
  | _ n ih =>
      subst hn
      obtain ⟨hround, hclosed⟩ := sweep_handover log hready
      rw [sweepAll]
      dsimp only
      split
      · rename_i hnone
        obtain ⟨hkept, hstuck⟩ := sweep_stuck hready hnone
        refine ⟨hround, hclosed, fun e he => ?_⟩
        rw [hnone, List.append_nil]
        exact hstuck e (hkept ▸ he)
      · rename_i hsome
        have hlen : (q.sweep height (closedBy log) events).kept.length < events.length := by
          have := q.sweep_length height (closedBy log) events
          have := List.length_pos_iff.mpr hsome
          omega
        obtain ⟨hlater, hclosed', hstuck⟩ := ih _ hlen (log ++ _)
          (fun e he => hready e (hround.sublist.subset he)) rfl
        rw [hclosed]
        rw [← List.append_assoc]
        exact ⟨hround.trans hlater, hclosed', hstuck⟩

end Rounds

/-! ### How many rounds there are -/

/-- Go through events that are deep enough until nothing more comes out, unless that takes
    more rounds than are allowed. -/
def sweepWithin (q : Confirmation) (height : Height) :
    Nat → SortedMap ChannelId Unit → List ChainEvent → Option Sweep
  | 0, _, _ => none
  | rounds + 1, closed, events =>
    let s := q.sweep height closed events
    if s.released = [] then some s
    else (q.sweepWithin height rounds s.closed s.kept).map fun later =>
      { later with
        released := s.released ++ later.released
        warnings := s.warnings ++ later.warnings }

/-- One round for every event that is handed out, and a last one, are enough. -/
theorem sweepWithin_eq_sweepAll (q : Confirmation) (height : Height)
    (closed : SortedMap ChannelId Unit) (events : List ChainEvent) {rounds : Nat}
    (h : (q.sweepAll height closed events).released.length < rounds) :
    q.sweepWithin height rounds closed events = some (q.sweepAll height closed events) := by
  induction rounds generalizing closed events with
  | zero => exact absurd h (Nat.not_lt_zero _)
  | succ rounds ih =>
      rw [sweepAll] at h ⊢
      rw [sweepWithin]
      dsimp only at h ⊢
      split
      · rfl
      · rename_i hsome
        rw [if_neg hsome] at h
        have hpos := List.length_pos_iff.mpr hsome
        have hlen : (q.sweepAll height (q.sweep height closed events).closed
            (q.sweep height closed events).kept).released.length < rounds := by
          simp only [List.length_append] at h
          omega
        rw [ih _ _ hlen]
        rfl

/-! ### The line -/

theorem isLE_compare_iff {a b : Height} : (compare a b).isLE = true ↔ a ≤ b :=
  Nat.isLE_compare

theorem isReady_of_le {q : Confirmation} {a b height : Height} (hab : a ≤ b)
    (h : q.isReady b height = true) : q.isReady a height = true := by
  simp only [isReady, decide_eq_true_eq, Word.le_iff, Word.val_satAdd] at hab h ⊢
  omega

theorem insertEvent_perm (e : ChainEvent) (line : List ChainEvent) :
    (insertEvent e line).Perm (e :: line) := by
  induction line with
  | nil => exact List.Perm.refl _
  | cons f rest ih =>
      unfold insertEvent
      split
      · exact (ih.cons f).trans (List.Perm.swap e f rest)
      · exact List.Perm.refl _

theorem insertEvent_ordered {e : ChainEvent} {line : List ChainEvent}
    (h : OrderedOn ChainEvent.block line) : OrderedOn ChainEvent.block (insertEvent e line) := by
  induction line with
  | nil => exact List.pairwise_singleton _ _
  | cons f rest ih =>
      have hrest := List.pairwise_cons.mp h
      unfold insertEvent
      split
      · rename_i hfe
        refine List.pairwise_cons.mpr ⟨?_, ih hrest.2⟩
        intro g hg
        rcases List.mem_cons.mp ((insertEvent_perm e rest).mem_iff.mp hg) with rfl | hg
        · exact isLE_compare_iff.mpr hfe
        · exact hrest.1 g hg
      · rename_i hef
        have hle : e.block ≤ f.block := Nat.le_of_lt (Word.not_le.mp hef)
        refine List.pairwise_cons.mpr ⟨?_, h⟩
        intro g hg
        rcases List.mem_cons.mp hg with rfl | hg
        · exact isLE_compare_iff.mpr hle
        · exact isLE_compare_iff.mpr (Nat.le_trans hle (isLE_compare_iff.mp (hrest.1 g hg)))

/-- The line is in order, so whatever stands behind an event that is not deep enough is
    not deep enough either. -/
theorem not_ready_of_mem_dropWhile {q : Confirmation} {height : Height} {line : List ChainEvent}
    (h : OrderedOn ChainEvent.block line) :
    ∀ e ∈ line.dropWhile (fun e => q.isReady e.block height), q.isReady e.block height = false := by
  induction line with
  | nil => exact fun _ he => nomatch he
  | cons f rest ih =>
      have hrest := List.pairwise_cons.mp h
      by_cases hf : q.isReady f.block height = true
      · rw [List.dropWhile_cons, if_pos hf]
        exact ih hrest.2
      · rw [List.dropWhile_cons, if_neg hf]
        intro e he
        rw [Bool.not_eq_true] at hf
        rcases List.mem_cons.mp he with rfl | he
        · exact hf
        · rw [Bool.eq_false_iff]
          intro hready
          rw [isReady_of_le (isLE_compare_iff.mp (hrest.1 e he)) hready] at hf
          cases hf

/-! ### Histories -/

/-- What an input hands out, with the height at which it does. -/
def handOut (q : Confirmation) : ConfirmationInput → List (Height × ChainEvent)
  | .arrive _ => []
  | .release height => (q.release height).2.1.map (Prod.mk height)

/-- The waiting events after an input. -/
def after (q : Confirmation) : ConfirmationInput → Confirmation
  | .arrive e => (q.push e).1
  | .release height => (q.release height).1

/-- The waiting events after some inputs. -/
def run (q : Confirmation) (inputs : List ConfirmationInput) : Confirmation :=
  inputs.foldl after q

/-- What some inputs hand out, with the heights at which they do. -/
def log (q : Confirmation) (inputs : List ConfirmationInput) : List (Height × ChainEvent) :=
  collect after handOut q inputs

/-- What some inputs hand out. -/
def released (q : Confirmation) (inputs : List ConfirmationInput) : List ChainEvent :=
  (q.log inputs).map Prod.snd

theorem run_append (q : Confirmation) (first later : List ConfirmationInput) :
    q.run (first ++ later) = (q.run first).run later :=
  List.foldl_append

theorem log_append (q : Confirmation) (first later : List ConfirmationInput) :
    q.log (first ++ later) = q.log first ++ (q.run first).log later :=
  collect_append _ _ q first later

theorem map_snd_map_mk (height : Height) (events : List ChainEvent) :
    (events.map (Prod.mk height)).map Prod.snd = events := by
  simp [Function.comp_def]

/-- What is known of waiting events by what arrived and by what was handed out. -/
structure Accounts (confirm hold : Height) (arrived : List ChainEvent)
    (log : List (Height × ChainEvent)) (q : Confirmation) : Prop where
  confirmBlocks : q.confirmBlocks = confirm
  settleHoldBlocks : q.settleHoldBlocks = hold
  ordered : OrderedOn ChainEvent.block q.pending
  closed : q.closedChannels = closedBy (log.map Prod.snd)
  complete : arrived.Perm (log.map Prod.snd ++ q.pending)
  due : Follows (fun before x => Due confirm hold (before.map Prod.snd) x.1 x.2) log

section Accounts

variable {confirm hold : Height} {arrived : List ChainEvent} {log : List (Height × ChainEvent)}
  {q : Confirmation}

theorem accounts_fresh (confirm hold : Height) :
    Accounts confirm hold [] [] (fresh confirm hold) where
  confirmBlocks := rfl
  settleHoldBlocks := rfl
  ordered := List.Pairwise.nil
  closed := rfl
  complete := List.Perm.refl _
  due := follows_nil _

theorem Accounts.arrive (h : Accounts confirm hold arrived log q) (e : ChainEvent) :
    Accounts confirm hold (arrived ++ [e]) log (q.push e).1 where
  confirmBlocks := h.confirmBlocks
  settleHoldBlocks := h.settleHoldBlocks
  ordered := insertEvent_ordered h.ordered
  closed := h.closed
  complete := by
    have hfiled := (insertEvent_perm e q.pending).append_left (log.map Prod.snd)
    refine (h.complete.append_right [e]).trans (List.Perm.trans ?_ hfiled.symm)
    rw [List.append_assoc]
    exact List.perm_append_comm.append_left _
  due := h.due

/-- Handing out takes events off the line that are due in their turn, and leaves none
    behind that is. -/
theorem Accounts.release (h : Accounts confirm hold arrived log q) (height : Height) :
    Accounts confirm hold arrived (log ++ (q.release height).2.1.map (Prod.mk height))
        (q.release height).1 ∧
      ∀ e ∈ (q.release height).1.pending,
        ¬ Due confirm hold (log.map Prod.snd ++ (q.release height).2.1) height e := by
  have hready : ∀ e ∈ q.pending.takeWhile (fun e => q.isReady e.block height),
      q.isReady e.block height = true :=
    fun e he => List.all_eq_true.mp List.all_takeWhile e he
  obtain ⟨hover, hclosed, hstuck⟩ := sweepAll_handover (log.map Prod.snd) hready
  rw [← h.closed] at hover hclosed hstuck
  rw [h.confirmBlocks, h.settleHoldBlocks] at hstuck
  have hdue := hover.due
  rw [h.confirmBlocks, h.settleHoldBlocks] at hdue
  -- The rounds go through the part of the line that is deep enough, and the rest stays as it is.
  have hline := List.takeWhile_append_dropWhile (p := fun e => q.isReady e.block height)
    (l := q.pending)
  have hlog : (log ++ (q.release height).2.1.map (Prod.mk height)).map Prod.snd
      = log.map Prod.snd ++ (q.release height).2.1 := by
    rw [List.map_append, map_snd_map_mk]
  refine ⟨⟨h.confirmBlocks, h.settleHoldBlocks, ?_, ?_, ?_, ?_⟩, ?_⟩
  · refine List.Pairwise.sublist ?_ h.ordered
    conv => rhs; rw [← hline]
    exact hover.sublist.append (List.Sublist.refl _)
  · rw [hlog]
    exact hclosed
  · rw [hlog, List.append_assoc]
    refine h.complete.trans (List.Perm.append_left _ ?_)
    conv => lhs; rw [← hline]
    exact (hover.perm.append_right _).trans (by rw [List.append_assoc]; exact List.Perm.refl _)
  · refine follows_append h.due (follows_map ?_)
    intro before e rest heq
    rw [List.map_append, map_snd_map_mk]
    exact hdue before e rest heq
  · intro e he
    rcases List.mem_append.mp he with he | he
    · exact hstuck e he
    · intro hdeep
      -- Behind the first event that is not deep enough the order of the line says that none is.
      have hnot := not_ready_of_mem_dropWhile h.ordered e he
      rw [isReady, h.confirmBlocks, decide_eq_false_iff_not] at hnot
      exact hnot hdeep.1

theorem Accounts.after (h : Accounts confirm hold arrived log q) (i : ConfirmationInput) :
    Accounts confirm hold (arrived ++ ConfirmationInput.arrivals [i]) (log ++ q.handOut i)
      (q.after i) := by
  cases i with
  | arrive e =>
      have harrive := h.arrive e
      rw [← List.append_nil log] at harrive
      exact harrive
  | release height =>
      have hrelease := (h.release height).1
      rw [← List.append_nil arrived] at hrelease
      exact hrelease

theorem Accounts.run (h : Accounts confirm hold arrived log q) (inputs : List ConfirmationInput) :
    Accounts confirm hold (arrived ++ ConfirmationInput.arrivals inputs) (log ++ q.log inputs)
      (q.run inputs) := by
  induction inputs generalizing arrived log q with
  | nil =>
      rw [← List.append_nil arrived, ← List.append_nil log] at h
      exact h
  | cons i rest ih =>
      have hrest := ih (h.after i)
      rw [List.append_assoc, List.append_assoc, ← ConfirmationInput.arrivals_append] at hrest
      exact hrest

theorem accounts_run (confirm hold : Height) (inputs : List ConfirmationInput) :
    Accounts confirm hold (ConfirmationInput.arrivals inputs) ((fresh confirm hold).log inputs)
      ((fresh confirm hold).run inputs) := by
  exact (accounts_fresh confirm hold).run inputs

end Accounts

/-- What a history of events that wait for confirmation keeps to. -/
structure ReleaseLaw (confirm hold : Height) (inputs : List ConfirmationInput) : Prop where
  /-- Every event that arrived was handed out or waits, and none of them twice. -/
  complete : (ConfirmationInput.arrivals inputs).Perm
    ((fresh confirm hold).released inputs ++ ((fresh confirm hold).run inputs).pending)
  /-- Every event that was handed out was deep enough, and a settlement came after the
      closing of its channel or when the hold was over. -/
  due : ∀ before height e after,
    (fresh confirm hold).log inputs = before ++ (height, e) :: after →
    Due confirm hold (before.map Prod.snd) height e
  /-- Every event that waits after a release is not deep enough, or it settles a channel
      that does not await this, and the hold is not over. -/
  drained : ∀ first height later, inputs = first ++ .release height :: later →
    ∀ e ∈ ((fresh confirm hold).run (first ++ [.release height])).pending,
      ¬ Due confirm hold ((fresh confirm hold).released (first ++ [.release height])) height e
  /-- The rounds of a release end, after at most as many that hand something out as there are
      events that it hands out. -/
  ends : ∀ first height later, inputs = first ++ .release height :: later →
    let q := (fresh confirm hold).run first
    ∃ s, s.released = (q.release height).2.1 ∧
      q.sweepWithin height (s.released.length + 1) q.closedChannels
        (q.pending.takeWhile fun e => q.isReady e.block height) = some s

/-- Every history keeps to the law. -/
theorem run_releaseLaw (confirm hold : Height) (inputs : List ConfirmationInput) :
    ReleaseLaw confirm hold inputs where
  complete := (accounts_run confirm hold inputs).complete
  due := fun before height e after h =>
    (accounts_run confirm hold inputs).due before (height, e) after h
  drained := by
    intro first height later _ e he
    have hstuck := ((accounts_run confirm hold first).release height).2
    rw [run_append] at he
    have hreleased : (fresh confirm hold).released (first ++ [.release height])
        = ((fresh confirm hold).log first).map Prod.snd
          ++ (((fresh confirm hold).run first).release height).2.1 := by
      rw [released, log_append, List.map_append, ← map_snd_map_mk height
        (((fresh confirm hold).run first).release height).2.1]
      exact congrArg (fun l => _ ++ List.map Prod.snd l) (List.append_nil _)
    rw [hreleased]
    exact hstuck e he
  ends := by
    intro first height later _
    exact ⟨_, rfl, sweepWithin_eq_sweepAll _ _ _ _ (Nat.lt_succ_self _)⟩

/-- A closing that comes out late in a round sets a settlement free that was passed over
    in it. -/
example :
    let closing : ChainEvent := .channelClosed default default default 12
    let settlement : ChainEvent := .channelSettled default default 10
    (fresh 0 10).released [.arrive settlement, .arrive closing, .release 12]
      = [closing, settlement] := by
  cbv

end Confirmation

end PaymentNetwork

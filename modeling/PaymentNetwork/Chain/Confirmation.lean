import PaymentNetwork.Chain.Event

/-!
# Waiting for Confirmation

Events of the ledger are held until enough blocks lie on top of them, and then
handed out in the order of their blocks.

Events of one block keep the order in which they arrived. The settlement of a
channel must not be seen before its closing, and closings can arrive late: so a
settlement that is deep enough is held back until the closing of its channel was
handed out, but not for ever. A closing that is handed out can set a settlement
free that was passed over before, so the waiting events are gone through again
until nothing more comes out.

## Main definitions

* `Confirmation`: The events that wait.
* `Confirmation.push`: An event arrives.
* `Confirmation.release`: Hand out what is deep enough at a height.

## Theorems

* `sweep_length`: Going through the events once loses none.
-/

namespace PaymentNetwork

/-- Something noteworthy about an event. -/
inductive ConfirmationWarning where
  /-- An event arrived after its block was handed out. -/
  | late (block released : Height)
  /-- A settlement was handed out without its closing. -/
  | unclosed (block : Height)
deriving DecidableEq

namespace ConfirmationWarning

/-- The sentence that reports the warning. -/
def message : ConfirmationWarning → String
  | late block released =>
    "chain event orderer: late event from block " ++ block.toText
      ++ " (released up to " ++ released.toText ++ ")"
  | unclosed block =>
    "chain event orderer: releasing settlement from block " ++ block.toText
      ++ " without its closing"

end ConfirmationWarning

/-- Events that wait for confirmation. -/
structure Confirmation where
  /-- How many blocks an event waits. -/
  confirmBlocks : Height
  /-- How many blocks more a settlement waits for its closing. -/
  settleHoldBlocks : Height
  /-- The waiting events, by block and then by arrival. -/
  pending : List ChainEvent
  /-- The channels whose closing was handed out and whose settlement was not. -/
  closedChannels : SortedMap ChannelId Unit
  lastRelease? : Option Height

namespace Confirmation

/-- Nothing waits. -/
def fresh (confirmBlocks settleHoldBlocks : Height) : Confirmation :=
  ⟨confirmBlocks, settleHoldBlocks, [], .empty, none⟩

/-- Is a block deep enough at a height? -/
def isReady (q : Confirmation) (block height : Height) : Bool :=
  decide (block.satAdd q.confirmBlocks ≤ height)

/-- Put an event behind all others up to its block. -/
def insertEvent (e : ChainEvent) : List ChainEvent → List ChainEvent
  | [] => [e]
  | f :: rest => if f.block ≤ e.block then f :: insertEvent e rest else e :: f :: rest

/-- An event arrives. -/
def push (q : Confirmation) (e : ChainEvent) : Confirmation × List ConfirmationWarning :=
  let late := match q.lastRelease? with
    | some height => if q.isReady e.block height then [.late e.block height] else []
    | none => []
  ({ q with pending := insertEvent e q.pending }, late)

/-- Does a settlement wait for its closing? -/
def isHeld (closed : SortedMap ChannelId Unit) : ChainEvent → Bool
  | .channelSettled _ channelId _ => !closed.contains channelId
  | _ => false

/-- The channels that are closed and not settled, after an event. -/
def noteClosing (closed : SortedMap ChannelId Unit) : ChainEvent → SortedMap ChannelId Unit
  | .channelClosed _ channelId _ _ => closed.insert channelId ()
  | .channelSettled _ channelId _ => closed.erase channelId
  | _ => closed

/-- What came of going through the events once. -/
structure Sweep where
  released : List ChainEvent
  kept : List ChainEvent
  closed : SortedMap ChannelId Unit
  warnings : List ConfirmationWarning

/-- Go once through events that are deep enough. Settlements without a closing
    are kept, unless even their hold is over. -/
def sweep (q : Confirmation) (height : Height) (closed : SortedMap ChannelId Unit) :
    List ChainEvent → Sweep
  | [] => ⟨[], [], closed, []⟩
  | e :: rest =>
    if isHeld closed e then
      if q.isReady (e.block.satAdd q.settleHoldBlocks) height then
        let s := q.sweep height (noteClosing closed e) rest
        { s with released := e :: s.released, warnings := .unclosed e.block :: s.warnings }
      else
        let s := q.sweep height closed rest
        { s with kept := e :: s.kept }
    else
      let s := q.sweep height (noteClosing closed e) rest
      { s with released := e :: s.released }

theorem sweep_length (q : Confirmation) (height : Height) (closed : SortedMap ChannelId Unit)
    (events : List ChainEvent) :
    (q.sweep height closed events).released.length + (q.sweep height closed events).kept.length
      = events.length := by
  induction events generalizing closed with
  | nil => rfl
  | cons e rest ih =>
      unfold sweep
      split
      · split
        · have := ih (noteClosing closed e)
          simp only [List.length_cons]
          omega
        · have := ih closed
          simp only [List.length_cons]
          omega
      · have := ih (noteClosing closed e)
        simp only [List.length_cons]
        omega

/-- Go through events that are deep enough until nothing more comes out. -/
def sweepAll (q : Confirmation) (height : Height) (closed : SortedMap ChannelId Unit)
    (events : List ChainEvent) : Sweep :=
  let s := q.sweep height closed events
  if s.released = [] then s
  else
    let later := q.sweepAll height s.closed s.kept
    { later with
      released := s.released ++ later.released
      warnings := s.warnings ++ later.warnings }
termination_by events.length
decreasing_by
  rename_i h
  have hlen := q.sweep_length height closed events
  have hpos := List.length_pos_iff.mpr h
  simp only [s] at hpos ⊢
  omega

/-- Hand out the events that are deep enough at a height. -/
def release (q : Confirmation) (height : Height) :
    Confirmation × List ChainEvent × List ConfirmationWarning :=
  let ready := q.pending.takeWhile fun e => q.isReady e.block height
  let waiting := q.pending.dropWhile fun e => q.isReady e.block height
  let s := q.sweepAll height q.closedChannels ready
  ({ q with
      pending := s.kept ++ waiting
      closedChannels := s.closed
      lastRelease? := some height },
    s.released, s.warnings)

end Confirmation

end PaymentNetwork

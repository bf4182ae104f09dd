import PaymentNetwork.Broker

/-!
# Mailboxes

Bounded queues to a reader that may be slow or gone.

Neither a report to the application nor a message to a peer may hold up the
node. Each goes into a mailbox, which takes one item more than its buffer says
and drops what does not fit. When the reader is gone everything is dropped.

## Main definitions

* `Mailbox`: A bounded queue.
* `Mailbox.offer`, `Mailbox.take?`, `Mailbox.takeAll`, `Mailbox.close`: Its
  operations.
* `ReportBox`: The three mailboxes for reports.

## Theorems

* `Mailbox.offer_length_le`: A mailbox never holds more than it may.
-/

namespace PaymentNetwork

/-- A queue of at most `buffer + 1` items. -/
structure Mailbox (α : Type) where
  buffer : Nat
  waiting : List α
  isOpen : Bool

namespace Mailbox

variable {α : Type}

/-- An empty mailbox. -/
def fresh (buffer : Nat) : Mailbox α := ⟨buffer, [], true⟩

/-- Put an item into the mailbox if it fits and somebody reads. -/
def offer (m : Mailbox α) (item : α) : Mailbox α :=
  if m.isOpen ∧ m.waiting.length ≤ m.buffer then { m with waiting := m.waiting ++ [item] } else m

/-- Take the item that waited longest. -/
def take? (m : Mailbox α) : Option α × Mailbox α :=
  (m.waiting.head?, { m with waiting := m.waiting.tail })

/-- Take everything. -/
def takeAll (m : Mailbox α) : List α × Mailbox α := (m.waiting, { m with waiting := [] })

/-- The reader is gone. -/
def close (m : Mailbox α) : Mailbox α := { m with waiting := [], isOpen := false }

theorem offer_length_le (m : Mailbox α) (item : α) (h : m.waiting.length ≤ m.buffer + 1) :
    (m.offer item).waiting.length ≤ (m.offer item).buffer + 1 := by
  unfold offer
  split
  · rename_i hfits
    simpa using hfits.2
  · exact h

end Mailbox

/-- The mailboxes of the three kinds of report. -/
structure ReportBox where
  notices : Mailbox Notice
  sent : Mailbox SentTransfer
  received : Mailbox ReceivedTransfer

namespace ReportBox

/-- Three empty mailboxes. -/
def fresh (buffer : Nat) : ReportBox := ⟨.fresh buffer, .fresh buffer, .fresh buffer⟩

/-- Put a report into its mailbox. A notice without words is dropped. -/
def offer (b : ReportBox) : Report → ReportBox
  | .notice n => if n.info.isEmpty then b else { b with notices := b.notices.offer n }
  | .sent t => { b with sent := b.sent.offer t }
  | .received t => { b with received := b.received.offer t }

/-- Put the reports among some actions into their mailboxes. -/
def offerAll (b : ReportBox) (actions : List Action) : ReportBox :=
  actions.foldl (fun b a => match a with
    | .report r => b.offer r
    | _ => b) b

/-- The reader is gone. -/
def close (b : ReportBox) : ReportBox := ⟨b.notices.close, b.sent.close, b.received.close⟩

/-- Take all reports. -/
def takeAll (b : ReportBox) : ReportBox × ReportBox :=
  (b, ⟨b.notices.takeAll.2, b.sent.takeAll.2, b.received.takeAll.2⟩)

end ReportBox

end PaymentNetwork

/-!
# A Turnstile

Lets one task at a time through.

A task that finds the turnstile taken stands in a slot. When the turnstile
becomes free, the task in the first slot is called, but it has to try again: a
task that happens to come by earlier gets through before it. A slot that was left
is the next one to be filled, so the order of the slots is not the order of
arrival.

## Main definitions

* `Turnstile`: Is it taken, and who stands in the slots?
* `Turnstile.take`, `Turnstile.release`: Pass through, and come out.
* `Turnstile.wait`, `Turnstile.stay`, `Turnstile.leave`: Stand in a slot, go on
  standing in it, and leave it.
-/

namespace PaymentNetwork

/-- A slot in which a task waits. -/
structure Slot where
  task : Nat
  isCalled : Bool
deriving DecidableEq

/-- Lets one task at a time through. -/
structure Turnstile where
  isTaken : Bool
  slots : List (Option Slot)
  /-- The slots that were left, the last one first. -/
  empty : List Nat
deriving DecidableEq

namespace Turnstile

/-- A turnstile that nobody came to. -/
def fresh : Turnstile := ⟨false, [], []⟩

instance : Inhabited Turnstile := ⟨fresh⟩

/-- Pass through. -/
def take (t : Turnstile) : Turnstile := { t with isTaken := true }

/-- Stand in a slot. Its number comes back. -/
def wait (t : Turnstile) (task : Nat) : Nat × Turnstile :=
  match t.empty with
  | slot :: rest => (slot, { t with slots := t.slots.set slot (some ⟨task, false⟩), empty := rest })
  -- No slot was left, so a new one is put behind the others.
  | [] => (t.slots.length, { t with slots := t.slots ++ [some ⟨task, false⟩] })

/-- Go on standing in a slot after a call that came to nothing. -/
def stay (t : Turnstile) (slot task : Nat) : Turnstile :=
  { t with slots := t.slots.set slot (some ⟨task, false⟩) }

/-- Leave a slot. -/
def leave (t : Turnstile) (slot : Nat) : Turnstile :=
  { t with slots := t.slots.set slot none, empty := slot :: t.empty }

/-- Call the task in the first slot, unless it was called already. -/
def call : List (Option Slot) → List (Option Slot) × Option Nat
  | [] => ([], none)
  | none :: rest =>
    let (rest', called) := call rest
    (none :: rest', called)
  | some s :: rest =>
    (some { s with isCalled := true } :: rest, if s.isCalled then none else s.task)

/-- Come out. The task that is called comes back. -/
def release (t : Turnstile) : Turnstile × Option Nat :=
  let (slots, called) := call t.slots
  ({ t with isTaken := false, slots := slots }, called)

end Turnstile

end PaymentNetwork

import PaymentNetwork.Chain.Event

/-!
# Talking to the Ledger

What a node asks of a ledger and what it is told, and a ledger held in memory.

Every request may fail. The ledger in memory fails as it is told to: first by a
script of outcomes, then for a number of requests in a row. It opens channels
under successive identifiers and records every call that it carries out. It
does not produce events; whoever runs it decides what becomes visible and when.

## Main definitions

* `LedgerRequest`, `LedgerAnswer`, `LedgerError`: One exchange with a ledger.
* `LedgerRecord`: A call that a ledger carried out.
* `MemoryLedger`: A ledger held in memory.
* `MemoryLedger.request`: Its side of an exchange.
-/

namespace PaymentNetwork

/-- Why a ledger did not do what it was asked for. -/
inductive LedgerError where
  /-- The ledger could not be reached. It may be reached later. -/
  | unreachable
  | transactionFailed
  | channelNotFound
deriving DecidableEq

namespace LedgerError

/-- The name of the error. -/
def name : LedgerError → String
  | unreachable => "Unreachable"
  | transactionFailed => "TransactionFailed"
  | channelNotFound => "ChannelNotFound"

end LedgerError

/-- Something asked of a ledger. -/
inductive LedgerRequest where
  | currentHeight
  | subscribeHeads
  | openChannel (tokenNetwork partner : Address) (settleTimeout : Height)
  | deposit (tokenNetwork : Address) (channelId : ChannelId) (amount : Amount)
  | closeChannel (tokenNetwork : Address) (channelId : ChannelId) (partner : Address)
  | registerSecret (secret : Secret)
  | unlock (tokenNetwork : Address) (channelId : ChannelId) (partner : Address)
      (secretHash : SecretHash)
deriving DecidableEq

/-- What a ledger answers if it does what it was asked for. -/
inductive LedgerAnswer where
  | height (h : Height)
  /-- The new heights come over this stream. -/
  | heads (stream : Nat)
  | opened (channelId : ChannelId)
  | done
deriving DecidableEq

/-- A call that a ledger carried out. -/
inductive LedgerRecord where
  | openChannel (tokenNetwork partner : Address) (settleTimeout : Height) (channelId : ChannelId)
  | deposit (tokenNetwork : Address) (channelId : ChannelId) (amount : Amount)
  | closeChannel (tokenNetwork : Address) (channelId : ChannelId) (partner : Address)
  | registerSecret (secret : Secret)
  | unlock (tokenNetwork : Address) (channelId : ChannelId) (partner : Address)
      (secretHash : SecretHash)
deriving DecidableEq

/-- A ledger held in memory. -/
structure MemoryLedger where
  height : Height
  /-- The outcomes of the next requests, nothing meaning no failure. -/
  script : List (Option LedgerError)
  /-- How many requests after those are going to fail. -/
  failuresLeft : Nat
  /-- The number of the next channel. -/
  nextChannel : Nat
  /-- The streams of heights that nobody subscribed to yet. -/
  freeHeads : List Nat
  /-- The calls carried out since they were last looked at. -/
  records : List LedgerRecord

namespace MemoryLedger

/-- A ledger at a height. -/
def fresh (height : Height) : MemoryLedger := ⟨height, [], 0, 0, [], []⟩

/-- The identifier of a numbered channel. -/
def channelIdOf (index : Nat) : ChannelId := ⟨wordBytes 32 index, length_wordBytes 32 index⟩

/-- Does the next request fail, and how? -/
def nextFailure (l : MemoryLedger) : Option LedgerError × MemoryLedger :=
  match l.script with
  | some e :: rest => (some e, { l with script := rest })
  | script =>
    let l' := { l with script := script.tail }
    if l.failuresLeft = 0 then (none, l')
    else (some .unreachable, { l' with failuresLeft := l.failuresLeft - 1 })

/-- Record a call. -/
def record (l : MemoryLedger) (r : LedgerRecord) : MemoryLedger :=
  { l with records := l.records ++ [r] }

/-- Do what was asked for. -/
def carryOut (l : MemoryLedger) : LedgerRequest → Except LedgerError LedgerAnswer × MemoryLedger
  | .currentHeight => (.ok (.height l.height), l)
  | .subscribeHeads =>
    match l.freeHeads with
    | [] => (.error .unreachable, l)
    | stream :: rest => (.ok (.heads stream), { l with freeHeads := rest })
  | .openChannel tokenNetwork partner settleTimeout =>
    let channelId := channelIdOf l.nextChannel
    (.ok (.opened channelId),
      { l with nextChannel := l.nextChannel + 1 }.record
        (.openChannel tokenNetwork partner settleTimeout channelId))
  | .deposit tokenNetwork channelId amount =>
    (.ok .done, l.record (.deposit tokenNetwork channelId amount))
  | .closeChannel tokenNetwork channelId partner =>
    (.ok .done, l.record (.closeChannel tokenNetwork channelId partner))
  | .registerSecret secret => (.ok .done, l.record (.registerSecret secret))
  | .unlock tokenNetwork channelId partner secretHash =>
    (.ok .done, l.record (.unlock tokenNetwork channelId partner secretHash))

/-- The ledger's side of an exchange. -/
def request (l : MemoryLedger) (r : LedgerRequest) :
    Except LedgerError LedgerAnswer × MemoryLedger :=
  match l.nextFailure with
  | (some e, l') => (.error e, l')
  | (none, l') => l'.carryOut r

end MemoryLedger

end PaymentNetwork

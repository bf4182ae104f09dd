import PaymentNetwork.Node.Config
import PaymentNetwork.Toml.Document

/-!
# Configuration Files

Writes the settings of a node as a TOML document, and reads them from one.

Everything but the address of the node may be missing. The connection policy is a
table of its own, which is complete if it is there at all; a list of its two
values is read too. Keys that mean nothing here are skipped, and a key that means
something stands there once.

## Main definitions

* `NodeConfig.toText`: The document of some settings.
* `NodeConfig.ofText?`: The settings of a document.
* `NodeConfig.load`: The settings in a file, if they make sense.
-/

namespace PaymentNetwork

open Toml

namespace NodeConfig

/-- The text of a fraction. A whole number still has a point. -/
def fractionText (x : Float) : String :=
  let text := floatText x
  if x.isFinite && x == x.floor then text ++ ".0" else text

/-- The line of an entry. -/
def entryLine (key value : String) : String := key ++ " = " ++ value ++ "\n"

/-- The document of some settings. -/
def toText (c : NodeConfig) : String :=
  let address := fun (key : String) (a : Address) => entryLine key ("\"" ++ a.toText ++ "\"")
  let number := fun {bits : Nat} (key : String) (n : Word bits) => entryLine key n.toText
  String.join [
    address "our_address" c.ourAddress,
    number "reveal_timeout" c.revealTimeout,
    number "settle_timeout" c.settleTimeout,
    number "chain_backoff_ticks" c.chainBackoffTicks,
    number "settle_poll_ticks" c.settlePollTicks,
    number "open_poll_ticks" c.openPollTicks,
    number "open_max_polls" c.openMaxPolls,
    number "confirm_blocks" c.confirmBlocks,
    number "settle_hold_blocks" c.settleHoldBlocks,
    number "notify_buffer" c.notifyBuffer,
    address "bootstrap_address" c.bootstrapAddress,
    "\n[connection]\n",
    number "initial_channel_target" c.channelTarget,
    entryLine "joinable_funds_target" (fractionText c.reserve)]

/-- The value of a key that may be missing. A key that stands there twice spoils
    the document. -/
def entry? (entries : List (String × Tree)) (key : String) : Option (Option Tree) :=
  match entries.filter fun e => e.1 = key with
  | [] => some none
  | [e] => some (some e.2)
  | _ => none

/-- An address in a document. -/
def readAddress? : Tree → Option Address
  | .text s => (FixedBytes.parse 20 s).toOption
  | _ => none

/-- A number in a document. -/
def readWord? {bits : Nat} : Tree → Option (Word bits)
  | .integer n => if 0 ≤ n then Word.ofNat? n.toNat else none
  | _ => none

/-- A fraction in a document, which may be a whole number. -/
def readFraction? : Tree → Option Float
  | .float x => some x
  | .integer n => some (.ofInt n)
  | _ => none

/-- A value that may be missing. -/
def readOr {α : Type} (entries : List (String × Tree)) (key : String) (standard : α)
    (read? : Tree → Option α) : Option α := do
  match ← entry? entries key with
  | none => return standard
  | some t => read? t

/-- The connection policy in a document: the number of channels and the reserve. -/
def readPolicy? : Tree → Option (Count × Float)
  | .table entries => do
    let target ← (← entry? entries "initial_channel_target").bind readWord?
    let reserve ← (← entry? entries "joinable_funds_target").bind readFraction?
    return (target, reserve)
  | .list [target, reserve] => do return (← readWord? target, ← readFraction? reserve)
  | _ => none

/-- The settings of a document. -/
def ofText? (text : String) : Option NodeConfig := do
  let entries ← readDocument? text
  let c := standard (← (← entry? entries "our_address").bind readAddress?)
  let (channelTarget, reserve) ←
    readOr entries "connection" (c.channelTarget, c.reserve) readPolicy?
  return {
    ourAddress := c.ourAddress
    revealTimeout := ← readOr entries "reveal_timeout" c.revealTimeout readWord?
    settleTimeout := ← readOr entries "settle_timeout" c.settleTimeout readWord?
    chainBackoffTicks := ← readOr entries "chain_backoff_ticks" c.chainBackoffTicks readWord?
    settlePollTicks := ← readOr entries "settle_poll_ticks" c.settlePollTicks readWord?
    openPollTicks := ← readOr entries "open_poll_ticks" c.openPollTicks readWord?
    openMaxPolls := ← readOr entries "open_max_polls" c.openMaxPolls readWord?
    confirmBlocks := ← readOr entries "confirm_blocks" c.confirmBlocks readWord?
    settleHoldBlocks := ← readOr entries "settle_hold_blocks" c.settleHoldBlocks readWord?
    notifyBuffer := ← readOr entries "notify_buffer" c.notifyBuffer readWord?
    bootstrapAddress := ← readOr entries "bootstrap_address" c.bootstrapAddress readAddress?
    channelTarget := channelTarget
    reserve := reserve }

/-- The settings in a file, if there is a file and they make sense. -/
def load (file? : Option String) : Except ConfigError NodeConfig :=
  match file? with
  | none => .error .inaccessible
  | some text =>
    match ofText? text with
    | none => .error .malformed
    | some c => c.validate.map fun _ => c

end NodeConfig

end PaymentNetwork

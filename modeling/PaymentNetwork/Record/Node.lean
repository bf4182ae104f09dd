import PaymentNetwork.Chain.Ledger
import PaymentNetwork.Node.Config
import PaymentNetwork.Record.Value

/-!
# The Written Form of Settings and Ledger Calls

How the settings of a node and the calls that a ledger carried out are written.

A fraction is written as the sixteen digits of its bits, so that no rounding comes
in between. Settings that are missing have their standard values, but the address
of the node has none.

## Main definitions

* `Codec` instances for `Float`, `NodeConfig` and `LedgerRecord`.
-/

namespace PaymentNetwork

instance : Codec Float where
  encode x := encode (⟨wordBytes 8 x.toBits.toNat, length_wordBytes 8 _⟩ : FixedBytes 8)
  decode v := do
    let bits : FixedBytes 8 ← decode v
    return Float.ofBits (bits.bytes.foldl (fun acc b => (acc <<< 8) ||| b.toUInt64) 0)

namespace Value

/-- Read a field that may be missing. -/
def fieldOr {α : Type} [Codec α] (v : Value) (name : String) (standard : α) : Option α := do
  let given : Option α ← v.field name
  return given.getD standard

end Value

instance : Codec NodeConfig where
  encode c := .record [
    ("our_address", encode c.ourAddress),
    ("reveal_timeout", encode c.revealTimeout),
    ("settle_timeout", encode c.settleTimeout),
    ("chain_backoff_ticks", encode c.chainBackoffTicks),
    ("settle_poll_ticks", encode c.settlePollTicks),
    ("open_poll_ticks", encode c.openPollTicks),
    ("open_max_polls", encode c.openMaxPolls),
    ("confirm_blocks", encode c.confirmBlocks),
    ("settle_hold_blocks", encode c.settleHoldBlocks),
    ("notify_buffer", encode c.notifyBuffer),
    ("bootstrap_address", encode c.bootstrapAddress),
    ("initial_channel_target", encode c.channelTarget),
    ("joinable_funds_target", encode c.reserve)]
  decode v := do
    let c := NodeConfig.standard (← v.field "our_address")
    return {
      ourAddress := c.ourAddress
      revealTimeout := ← v.fieldOr "reveal_timeout" c.revealTimeout
      settleTimeout := ← v.fieldOr "settle_timeout" c.settleTimeout
      chainBackoffTicks := ← v.fieldOr "chain_backoff_ticks" c.chainBackoffTicks
      settlePollTicks := ← v.fieldOr "settle_poll_ticks" c.settlePollTicks
      openPollTicks := ← v.fieldOr "open_poll_ticks" c.openPollTicks
      openMaxPolls := ← v.fieldOr "open_max_polls" c.openMaxPolls
      confirmBlocks := ← v.fieldOr "confirm_blocks" c.confirmBlocks
      settleHoldBlocks := ← v.fieldOr "settle_hold_blocks" c.settleHoldBlocks
      notifyBuffer := ← v.fieldOr "notify_buffer" c.notifyBuffer
      bootstrapAddress := ← v.fieldOr "bootstrap_address" c.bootstrapAddress
      channelTarget := ← v.fieldOr "initial_channel_target" c.channelTarget
      reserve := ← v.fieldOr "joinable_funds_target" c.reserve }

instance : Codec LedgerRecord where
  encode
    | .openChannel tokenNetwork partner settleTimeout channelId =>
      .variant "OpenChannel" (.record [
        ("token_network", encode tokenNetwork),
        ("partner", encode partner),
        ("settle_timeout", encode settleTimeout),
        ("channel_id", encode channelId)])
    | .deposit tokenNetwork channelId amount =>
      .variant "Deposit" (.record [
        ("token_network", encode tokenNetwork),
        ("channel_id", encode channelId),
        ("amount", encode amount)])
    | .closeChannel tokenNetwork channelId partner =>
      .variant "CloseChannel" (.record [
        ("token_network", encode tokenNetwork),
        ("channel_id", encode channelId),
        ("partner", encode partner)])
    | .registerSecret secret => .variant "RegisterSecret" (.record [("secret", encode secret)])
    | .unlock tokenNetwork channelId partner secretHash =>
      .variant "Unlock" (.record [
        ("token_network", encode tokenNetwork),
        ("channel_id", encode channelId),
        ("partner", encode partner),
        ("secret_hash", encode secretHash)])
  decode v := match v.variant? with
    | some ("OpenChannel", some v) => do
      return .openChannel (← v.field "token_network") (← v.field "partner")
        (← v.field "settle_timeout") (← v.field "channel_id")
    | some ("Deposit", some v) => do
      return .deposit (← v.field "token_network") (← v.field "channel_id") (← v.field "amount")
    | some ("CloseChannel", some v) => do
      return .closeChannel (← v.field "token_network") (← v.field "channel_id")
        (← v.field "partner")
    | some ("RegisterSecret", some v) => do return .registerSecret (← v.field "secret")
    | some ("Unlock", some v) => do
      return .unlock (← v.field "token_network") (← v.field "channel_id") (← v.field "partner")
        (← v.field "secret_hash")
    | _ => none

end PaymentNetwork

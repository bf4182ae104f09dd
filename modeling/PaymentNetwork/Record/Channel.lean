import PaymentNetwork.Channel.Basic
import PaymentNetwork.Record.Message

/-!
# The Written Form of Channels

How the state of a channel is written.

## Main definitions

* `Codec` instances for the types of `PaymentNetwork.Channel.Basic`.
-/

namespace PaymentNetwork

instance : Codec ChannelStatus where
  encode
    | .opened => .text "Opened"
    | .closed block => .variant "Closed" (.record [
        ("block_number", encode block)])
    | .settled block => .variant "Settled" (.record [
        ("block_number", encode block)])
  decode v := match v.variant? with
    | some ("Opened", none) => some .opened
    | some ("Closed", some d) => do
      let block ← d.field "block_number"
      return .closed block
    | some ("Settled", some d) => do
      let block ← d.field "block_number"
      return .settled block
    | _ => none

instance : Codec ChannelEnd where
  encode x := .record [
    ("address", encode x.address),
    ("contract_balance", encode x.contractBalance),
    ("withdrawn", encode x.withdrawn),
    ("opt_balance_proof", encode x.proof?),
    ("pending_locks", encode x.pendingLocks)]
  decode v := do
    let address ← v.field "address"
    let contractBalance ← v.field "contract_balance"
    let withdrawn ← v.field "withdrawn"
    let proof ← v.field "opt_balance_proof"
    let pendingLocks ← v.field "pending_locks"
    return ⟨address, contractBalance, withdrawn, proof, pendingLocks⟩

instance : Codec Channel where
  encode x := .record [
    ("channel_id", encode x.id),
    ("token_network", encode x.tokenNetwork),
    ("our_state", encode x.ours),
    ("partner_state", encode x.partner),
    ("reveal_timeout", encode x.revealTimeout),
    ("settle_timeout", encode x.settleTimeout),
    ("opened_block", encode x.openedBlock),
    ("status", encode x.status)]
  decode v := do
    let id ← v.field "channel_id"
    let tokenNetwork ← v.field "token_network"
    let ours ← v.field "our_state"
    let partner ← v.field "partner_state"
    let revealTimeout ← v.field "reveal_timeout"
    let settleTimeout ← v.field "settle_timeout"
    let openedBlock ← v.field "opened_block"
    let status ← v.field "status"
    return ⟨id, tokenNetwork, ours, partner, revealTimeout, settleTimeout, openedBlock, status⟩

end PaymentNetwork

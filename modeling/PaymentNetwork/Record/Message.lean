import PaymentNetwork.Record.Value
import PaymentNetwork.Route
import PaymentNetwork.Message

/-!
# The Written Form of Messages and Routes

How locks, balance proofs, the messages between nodes and the candidate routes
of a payment are written.

## Main definitions

* `Codec` instances for the types of `PaymentNetwork.Message` and
  `PaymentNetwork.Route`.
-/

namespace PaymentNetwork

instance : Codec Lock where
  encode x := .record [
    ("amount", encode x.amount),
    ("expiration", encode x.expiration),
    ("secret_hash", encode x.secretHash)]
  decode v := do
    let amount ← v.field "amount"
    let expiration ← v.field "expiration"
    let secretHash ← v.field "secret_hash"
    return ⟨amount, expiration, secretHash⟩

instance : Codec BalanceProof where
  encode x := .record [
    ("token_network", encode x.tokenNetwork),
    ("channel_id", encode x.channelId),
    ("nonce", encode x.nonce),
    ("transferred_amount", encode x.transferredAmount),
    ("locked_amount", encode x.lockedAmount),
    ("locksroot", encode x.locksroot)]
  decode v := do
    let tokenNetwork ← v.field "token_network"
    let channelId ← v.field "channel_id"
    let nonce ← v.field "nonce"
    let transferredAmount ← v.field "transferred_amount"
    let lockedAmount ← v.field "locked_amount"
    let locksroot ← v.field "locksroot"
    return ⟨tokenNetwork, channelId, nonce, transferredAmount, lockedAmount, locksroot⟩

instance : Codec LockedTransfer where
  encode x := .record [
    ("payment_id", encode x.paymentId),
    ("initiator", encode x.initiator),
    ("target", encode x.target),
    ("sender", encode x.sender),
    ("recipient", encode x.recipient),
    ("lock", encode x.lock),
    ("balance_proof", encode x.balanceProof)]
  decode v := do
    let paymentId ← v.field "payment_id"
    let initiator ← v.field "initiator"
    let target ← v.field "target"
    let sender ← v.field "sender"
    let recipient ← v.field "recipient"
    let lock ← v.field "lock"
    let balanceProof ← v.field "balance_proof"
    return ⟨paymentId, initiator, target, sender, recipient, lock, balanceProof⟩

instance : Codec SecretRequest where
  encode x := .record [
    ("payment_id", encode x.paymentId),
    ("secret_hash", encode x.secretHash),
    ("amount", encode x.amount)]
  decode v := do
    let paymentId ← v.field "payment_id"
    let secretHash ← v.field "secret_hash"
    let amount ← v.field "amount"
    return ⟨paymentId, secretHash, amount⟩

instance : Codec SecretReveal where
  encode x := .record [
    ("secret", encode x.secret)]
  decode v := do
    let secret ← v.field "secret"
    return ⟨secret⟩

instance : Codec Unlock where
  encode x := .record [
    ("payment_id", encode x.paymentId),
    ("secret", encode x.secret),
    ("balance_proof", encode x.balanceProof)]
  decode v := do
    let paymentId ← v.field "payment_id"
    let secret ← v.field "secret"
    let balanceProof ← v.field "balance_proof"
    return ⟨paymentId, secret, balanceProof⟩

instance : Codec LockRemoval where
  encode x := .record [
    ("secret_hash", encode x.secretHash),
    ("balance_proof", encode x.balanceProof)]
  decode v := do
    let secretHash ← v.field "secret_hash"
    let balanceProof ← v.field "balance_proof"
    return ⟨secretHash, balanceProof⟩

instance : Codec Disposal where
  encode x := .record [
    ("channel_id", encode x.channelId),
    ("lock", encode x.lock)]
  decode v := do
    let channelId ← v.field "channel_id"
    let lock ← v.field "lock"
    return ⟨channelId, lock⟩

instance : Codec Message where
  encode
    | .lockedTransfer x => .variant "LockedTransfer" (encode x)
    | .secretRequest x => .variant "SecretRequest" (encode x)
    | .secretReveal x => .variant "RevealSecret" (encode x)
    | .unlock x => .variant "Unlock" (encode x)
    | .lockRemoval x => .variant "RemoveExpiredLock" (encode x)
    | .disposal x => .variant "AnnounceDisposed" (encode x)
  decode v := match v.variant? with
    | some ("LockedTransfer", some d) => (decode d).map .lockedTransfer
    | some ("SecretRequest", some d) => (decode d).map .secretRequest
    | some ("RevealSecret", some d) => (decode d).map .secretReveal
    | some ("Unlock", some d) => (decode d).map .unlock
    | some ("RemoveExpiredLock", some d) => (decode d).map .lockRemoval
    | some ("AnnounceDisposed", some d) => (decode d).map .disposal
    | _ => none

instance : Codec TransferTerms where
  encode x := .record [
    ("payment_id", encode x.paymentId),
    ("token_network", encode x.tokenNetwork),
    ("amount", encode x.amount),
    ("initiator", encode x.initiator),
    ("target", encode x.target),
    ("expiration", encode x.expiration),
    ("secret_hash", encode x.secretHash),
    ("opt_secret", encode x.secret?)]
  decode v := do
    let paymentId ← v.field "payment_id"
    let tokenNetwork ← v.field "token_network"
    let amount ← v.field "amount"
    let initiator ← v.field "initiator"
    let target ← v.field "target"
    let expiration ← v.field "expiration"
    let secretHash ← v.field "secret_hash"
    let secret ← v.field "opt_secret"
    return ⟨paymentId, tokenNetwork, amount, initiator, target, expiration, secretHash, secret⟩

instance : Codec Route where
  encode x := .record [
    ("node_address", encode x.node),
    ("channel_id", encode x.channelId),
    ("available_balance", encode x.availableBalance),
    ("reveal_timeout", encode x.revealTimeout),
    ("settle_timeout", encode x.settleTimeout),
    ("opt_closed_block", encode x.closedBlock?)]
  decode v := do
    let node ← v.field "node_address"
    let channelId ← v.field "channel_id"
    let availableBalance ← v.field "available_balance"
    let revealTimeout ← v.field "reveal_timeout"
    let settleTimeout ← v.field "settle_timeout"
    let closedBlock ← v.field "opt_closed_block"
    return ⟨node, channelId, availableBalance, revealTimeout, settleTimeout, closedBlock⟩

instance : Codec Routes where
  encode x := .record [
    ("available_routes", encode x.available),
    ("ignored_routes", encode x.ignored),
    ("canceled_routes", encode x.canceled)]
  decode v := do
    let available ← v.field "available_routes"
    let ignored ← v.field "ignored_routes"
    let canceled ← v.field "canceled_routes"
    return ⟨available, ignored, canceled⟩

end PaymentNetwork

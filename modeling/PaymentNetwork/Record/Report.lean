import PaymentNetwork.Record.Value
import PaymentNetwork.Report

/-!
# The Written Form of Reports

How the reports to the application are written.

## Main definitions

* `Codec` instances for the types of `PaymentNetwork.Report`.
-/

namespace PaymentNetwork

instance : Codec TransferStatus where
  encode
    | .completed => .text "Completed"
    | .expired => .text "Expired"
    | .canceled => .text "Canceled"
  decode v := match v.variant? with
    | some ("Completed", none) => some .completed
    | some ("Expired", none) => some .expired
    | some ("Canceled", none) => some .canceled
    | _ => none

instance : Codec NoticeLevel where
  encode
    | .info => .text "Info"
    | .warning => .text "Warning"
    | .error => .text "Error"
  decode v := match v.variant? with
    | some ("Info", none) => some .info
    | some ("Warning", none) => some .warning
    | some ("Error", none) => some .error
    | _ => none

instance : Codec SentTransfer where
  encode x := .record [
    ("payment_id", encode x.paymentId),
    ("token_network", encode x.tokenNetwork),
    ("target", encode x.target),
    ("amount", encode x.amount),
    ("secret_hash", encode x.secretHash),
    ("status", encode x.status),
    ("opt_reason", encode x.reason?)]
  decode v := do
    let paymentId ← v.field "payment_id"
    let tokenNetwork ← v.field "token_network"
    let target ← v.field "target"
    let amount ← v.field "amount"
    let secretHash ← v.field "secret_hash"
    let status ← v.field "status"
    let reason ← v.field "opt_reason"
    return ⟨paymentId, tokenNetwork, target, amount, secretHash, status, reason⟩

instance : Codec ReceivedTransfer where
  encode x := .record [
    ("payment_id", encode x.paymentId),
    ("token_network", encode x.tokenNetwork),
    ("initiator", encode x.initiator),
    ("amount", encode x.amount),
    ("secret_hash", encode x.secretHash)]
  decode v := do
    let paymentId ← v.field "payment_id"
    let tokenNetwork ← v.field "token_network"
    let initiator ← v.field "initiator"
    let amount ← v.field "amount"
    let secretHash ← v.field "secret_hash"
    return ⟨paymentId, tokenNetwork, initiator, amount, secretHash⟩

instance : Codec Notice where
  encode x := .record [
    ("level", encode x.level),
    ("info", encode x.info)]
  decode v := do
    let level ← v.field "level"
    let info ← v.field "info"
    return ⟨level, info⟩

end PaymentNetwork

import PaymentNetwork.Record.Chain
import PaymentNetwork.Record.Message
import PaymentNetwork.Record.Report
import PaymentNetwork.Transfer.Basic

/-!
# The Written Form of Transfers

How the facts that reach a transfer, the effects that it has, and its state are
written.

## Main definitions

* `Codec` instances for the types of `PaymentNetwork.Transfer`.
-/

namespace PaymentNetwork

instance : Codec StartInitiator where
  encode x := .record [
    ("our_address", encode x.ourAddress),
    ("transfer", encode x.terms),
    ("routes", encode x.candidates)]
  decode v := do
    let ourAddress ← v.field "our_address"
    let terms ← v.field "transfer"
    let candidates ← v.field "routes"
    return ⟨ourAddress, terms, candidates⟩

instance : Codec StartMediator where
  encode x := .record [
    ("our_address", encode x.ourAddress),
    ("from_route", encode x.payerRoute),
    ("from_transfer", encode x.message),
    ("routes", encode x.candidates)]
  decode v := do
    let ourAddress ← v.field "our_address"
    let payerRoute ← v.field "from_route"
    let message ← v.field "from_transfer"
    let candidates ← v.field "routes"
    return ⟨ourAddress, payerRoute, message, candidates⟩

instance : Codec StartTarget where
  encode x := .record [
    ("our_address", encode x.ourAddress),
    ("from_route", encode x.payerRoute),
    ("from_transfer", encode x.message)]
  decode v := do
    let ourAddress ← v.field "our_address"
    let payerRoute ← v.field "from_route"
    let message ← v.field "from_transfer"
    return ⟨ourAddress, payerRoute, message⟩

instance : Codec RouteRefusal where
  encode x := .record [
    ("secret_hash", encode x.secretHash),
    ("channel_id", encode x.channelId),
    ("reason", encode x.reason)]
  decode v := do
    let secretHash ← v.field "secret_hash"
    let channelId ← v.field "channel_id"
    let reason ← v.field "reason"
    return ⟨secretHash, channelId, reason⟩

instance : Codec SecretRequested where
  encode x := .record [
    ("sender", encode x.sender),
    ("payment_id", encode x.paymentId),
    ("amount", encode x.amount),
    ("secret_hash", encode x.secretHash)]
  decode v := do
    let sender ← v.field "sender"
    let paymentId ← v.field "payment_id"
    let amount ← v.field "amount"
    let secretHash ← v.field "secret_hash"
    return ⟨sender, paymentId, amount, secretHash⟩

instance : Codec SecretRevealed where
  encode x := .record [
    ("sender", encode x.sender),
    ("secret", encode x.secret),
    ("secret_hash", encode x.secretHash)]
  decode v := do
    let sender ← v.field "sender"
    let secret ← v.field "secret"
    let secretHash ← v.field "secret_hash"
    return ⟨sender, secret, secretHash⟩

instance : Codec LockDisposed where
  encode x := .record [
    ("sender", encode x.sender),
    ("channel_id", encode x.channelId),
    ("lock", encode x.lock)]
  decode v := do
    let sender ← v.field "sender"
    let channelId ← v.field "channel_id"
    let lock ← v.field "lock"
    return ⟨sender, channelId, lock⟩

instance : Codec ProofMessage where
  encode
    | .unlock x => .variant "Unlock" (encode x)
    | .removal x => .variant "RemoveExpiredLock" (encode x)
  decode v := match v.variant? with
    | some ("Unlock", some d) => (decode d).map .unlock
    | some ("RemoveExpiredLock", some d) => (decode d).map .removal
    | _ => none

instance : Codec ProofReceived where
  encode x := .record [
    ("sender", encode x.sender),
    ("secret_hash", encode x.secretHash),
    ("kind", encode x.message)]
  decode v := do
    let sender ← v.field "sender"
    let secretHash ← v.field "secret_hash"
    let message ← v.field "kind"
    return ⟨sender, secretHash, message⟩

instance : Codec Input where
  encode
    | .block number =>
      .variant "Block" (.record [
        ("block_number", encode number)])
    | .startInitiator x => .variant "ActionInitInitiator" (encode x)
    | .startMediator x => .variant "ActionInitMediator" (encode x)
    | .startTarget x => .variant "ActionInitTarget" (encode x)
    | .routeRefused x => .variant "ActionCancelRoute" (encode x)
    | .secretRequested x => .variant "ReceiveSecretRequest" (encode x)
    | .secretRevealed x => .variant "ReceiveSecretReveal" (encode x)
    | .lockDisposed x => .variant "ReceiveAnnounceDisposed" (encode x)
    | .proofReceived x => .variant "ReceiveBalanceProof" (encode x)
    | .chain x => .variant "Contract" (encode x)
  decode v := match v.variant? with
    | some ("Block", some d) => do
      let number ← d.field "block_number"
      return .block number
    | some ("ActionInitInitiator", some d) => (decode d).map .startInitiator
    | some ("ActionInitMediator", some d) => (decode d).map .startMediator
    | some ("ActionInitTarget", some d) => (decode d).map .startTarget
    | some ("ActionCancelRoute", some d) => (decode d).map .routeRefused
    | some ("ReceiveSecretRequest", some d) => (decode d).map .secretRequested
    | some ("ReceiveSecretReveal", some d) => (decode d).map .secretRevealed
    | some ("ReceiveAnnounceDisposed", some d) => (decode d).map .lockDisposed
    | some ("ReceiveBalanceProof", some d) => (decode d).map .proofReceived
    | some ("Contract", some d) => (decode d).map .chain
    | _ => none

instance : Codec Effect where
  encode
    | .sendLockedTransfer recipient channelId terms =>
      .variant "SendLockedTransfer" (.record [
        ("recipient", encode recipient),
        ("channel_id", encode channelId),
        ("transfer", encode terms)])
    | .sendSecretRequest recipient paymentId amount secretHash =>
      .variant "SendSecretRequest" (.record [
        ("recipient", encode recipient),
        ("payment_id", encode paymentId),
        ("amount", encode amount),
        ("secret_hash", encode secretHash)])
    | .sendSecretReveal recipient secret =>
      .variant "SendRevealSecret" (.record [
        ("recipient", encode recipient),
        ("secret", encode secret)])
    | .sendUnlock recipient channelId paymentId secret secretHash =>
      .variant "SendUnlock" (.record [
        ("recipient", encode recipient),
        ("channel_id", encode channelId),
        ("payment_id", encode paymentId),
        ("secret", encode secret),
        ("secret_hash", encode secretHash)])
    | .sendLockRemoval recipient channelId secretHash =>
      .variant "SendRemoveExpiredLock" (.record [
        ("recipient", encode recipient),
        ("channel_id", encode channelId),
        ("secret_hash", encode secretHash)])
    | .sendDisposal recipient channelId lock =>
      .variant "SendAnnounceDisposed" (.record [
        ("recipient", encode recipient),
        ("channel_id", encode channelId),
        ("lock", encode lock)])
    | .call x => .variant "ContractSend" (encode x)
    | .sentSuccess paymentId tokenNetwork target amount secretHash =>
      .variant "TransferSentSuccess" (.record [
        ("payment_id", encode paymentId),
        ("token_network", encode tokenNetwork),
        ("target", encode target),
        ("amount", encode amount),
        ("secret_hash", encode secretHash)])
    | .sentFailed paymentId tokenNetwork target amount secretHash status reason =>
      .variant "TransferSentFailed" (.record [
        ("payment_id", encode paymentId),
        ("token_network", encode tokenNetwork),
        ("target", encode target),
        ("amount", encode amount),
        ("secret_hash", encode secretHash),
        ("status", encode status),
        ("reason", encode reason)])
    | .receivedSuccess paymentId tokenNetwork initiator amount secretHash =>
      .variant "TransferReceivedSuccess" (.record [
        ("payment_id", encode paymentId),
        ("token_network", encode tokenNetwork),
        ("initiator", encode initiator),
        ("amount", encode amount),
        ("secret_hash", encode secretHash)])
    | .unlockSuccess paymentId secretHash =>
      .variant "UnlockSuccess" (.record [
        ("payment_id", encode paymentId),
        ("secret_hash", encode secretHash)])
    | .unlockFailed paymentId secretHash reason =>
      .variant "UnlockFailed" (.record [
        ("payment_id", encode paymentId),
        ("secret_hash", encode secretHash),
        ("reason", encode reason)])
    | .notice level info =>
      .variant "Notice" (.record [
        ("level", encode level),
        ("info", encode info)])
  decode v := match v.variant? with
    | some ("SendLockedTransfer", some d) => do
      let recipient ← d.field "recipient"
      let channelId ← d.field "channel_id"
      let terms ← d.field "transfer"
      return .sendLockedTransfer recipient channelId terms
    | some ("SendSecretRequest", some d) => do
      let recipient ← d.field "recipient"
      let paymentId ← d.field "payment_id"
      let amount ← d.field "amount"
      let secretHash ← d.field "secret_hash"
      return .sendSecretRequest recipient paymentId amount secretHash
    | some ("SendRevealSecret", some d) => do
      let recipient ← d.field "recipient"
      let secret ← d.field "secret"
      return .sendSecretReveal recipient secret
    | some ("SendUnlock", some d) => do
      let recipient ← d.field "recipient"
      let channelId ← d.field "channel_id"
      let paymentId ← d.field "payment_id"
      let secret ← d.field "secret"
      let secretHash ← d.field "secret_hash"
      return .sendUnlock recipient channelId paymentId secret secretHash
    | some ("SendRemoveExpiredLock", some d) => do
      let recipient ← d.field "recipient"
      let channelId ← d.field "channel_id"
      let secretHash ← d.field "secret_hash"
      return .sendLockRemoval recipient channelId secretHash
    | some ("SendAnnounceDisposed", some d) => do
      let recipient ← d.field "recipient"
      let channelId ← d.field "channel_id"
      let lock ← d.field "lock"
      return .sendDisposal recipient channelId lock
    | some ("ContractSend", some d) => (decode d).map .call
    | some ("TransferSentSuccess", some d) => do
      let paymentId ← d.field "payment_id"
      let tokenNetwork ← d.field "token_network"
      let target ← d.field "target"
      let amount ← d.field "amount"
      let secretHash ← d.field "secret_hash"
      return .sentSuccess paymentId tokenNetwork target amount secretHash
    | some ("TransferSentFailed", some d) => do
      let paymentId ← d.field "payment_id"
      let tokenNetwork ← d.field "token_network"
      let target ← d.field "target"
      let amount ← d.field "amount"
      let secretHash ← d.field "secret_hash"
      let status ← d.field "status"
      let reason ← d.field "reason"
      return .sentFailed paymentId tokenNetwork target amount secretHash status reason
    | some ("TransferReceivedSuccess", some d) => do
      let paymentId ← d.field "payment_id"
      let tokenNetwork ← d.field "token_network"
      let initiator ← d.field "initiator"
      let amount ← d.field "amount"
      let secretHash ← d.field "secret_hash"
      return .receivedSuccess paymentId tokenNetwork initiator amount secretHash
    | some ("UnlockSuccess", some d) => do
      let paymentId ← d.field "payment_id"
      let secretHash ← d.field "secret_hash"
      return .unlockSuccess paymentId secretHash
    | some ("UnlockFailed", some d) => do
      let paymentId ← d.field "payment_id"
      let secretHash ← d.field "secret_hash"
      let reason ← d.field "reason"
      return .unlockFailed paymentId secretHash reason
    | some ("Notice", some d) => do
      let level ← d.field "level"
      let info ← d.field "info"
      return .notice level info
    | _ => none

instance : Codec InitiatorStatus where
  encode
    | .waitingSecretRequest => .text "WaitingSecretRequest"
    | .waitingUnlock => .text "WaitingUnlock"
    | .completed => .text "Completed"
    | .expired => .text "Expired"
    | .canceled => .text "Canceled"
  decode v := match v.variant? with
    | some ("WaitingSecretRequest", none) => some .waitingSecretRequest
    | some ("WaitingUnlock", none) => some .waitingUnlock
    | some ("Completed", none) => some .completed
    | some ("Expired", none) => some .expired
    | some ("Canceled", none) => some .canceled
    | _ => none

instance : Codec Initiator where
  encode x := .record [
    ("our_address", encode x.ourAddress),
    ("transfer", encode x.terms),
    ("routes", encode x.routes),
    ("opt_route", encode x.route?),
    ("block_number", encode x.blockNumber),
    ("status", encode x.status),
    ("counterpart_on_chain", encode x.counterpartOnChain),
    ("secret_registered", encode x.secretRegistered)]
  decode v := do
    let ourAddress ← v.field "our_address"
    let terms ← v.field "transfer"
    let routes ← v.field "routes"
    let route ← v.field "opt_route"
    let blockNumber ← v.field "block_number"
    let status ← v.field "status"
    let counterpartOnChain ← v.field "counterpart_on_chain"
    let secretRegistered ← v.field "secret_registered"
    return ⟨ourAddress, terms, routes, route, blockNumber, status, counterpartOnChain,
      secretRegistered⟩

instance : Codec MediatorStatus where
  encode
    | .forwardedToNextHop => .text "ForwardedToNextHop"
    | .waitingSecretPropagation => .text "WaitingSecretPropagation"
    | .completed => .text "Completed"
    | .expiredBoth => .text "ExpiredBoth"
    | .partialUnlockOnChain => .text "PartialUnlockOnChain"
    | .canceled => .text "Canceled"
  decode v := match v.variant? with
    | some ("ForwardedToNextHop", none) => some .forwardedToNextHop
    | some ("WaitingSecretPropagation", none) => some .waitingSecretPropagation
    | some ("Completed", none) => some .completed
    | some ("ExpiredBoth", none) => some .expiredBoth
    | some ("PartialUnlockOnChain", none) => some .partialUnlockOnChain
    | some ("Canceled", none) => some .canceled
    | _ => none

instance : Codec Mediator where
  encode x := .record [
    ("our_address", encode x.ourAddress),
    ("from_route", encode x.payerRoute),
    ("from_transfer", encode x.received),
    ("routes", encode x.routes),
    ("opt_to_route", encode x.payeeRoute?),
    ("opt_to_transfer", encode x.offered?),
    ("opt_secret", encode x.secret?),
    ("block_number", encode x.blockNumber),
    ("status", encode x.status),
    ("downstream_lock_removed", encode x.downstreamLockRemoved),
    ("payer_on_chain", encode x.payerOnChain)]
  decode v := do
    let ourAddress ← v.field "our_address"
    let payerRoute ← v.field "from_route"
    let received ← v.field "from_transfer"
    let routes ← v.field "routes"
    let payeeRoute ← v.field "opt_to_route"
    let offered ← v.field "opt_to_transfer"
    let secret ← v.field "opt_secret"
    let blockNumber ← v.field "block_number"
    let status ← v.field "status"
    let downstreamLockRemoved ← v.field "downstream_lock_removed"
    let payerOnChain ← v.field "payer_on_chain"
    return ⟨ourAddress, payerRoute, received, routes, payeeRoute, offered, secret, blockNumber,
      status, downstreamLockRemoved, payerOnChain⟩

instance : Codec TargetStatus where
  encode
    | .idle => .text "Idle"
    | .requestedSecret => .text "RequestedSecret"
    | .waitingUnlock => .text "WaitingUnlock"
    | .completed => .text "Completed"
    | .expired => .text "Expired"
  decode v := match v.variant? with
    | some ("Idle", none) => some .idle
    | some ("RequestedSecret", none) => some .requestedSecret
    | some ("WaitingUnlock", none) => some .waitingUnlock
    | some ("Completed", none) => some .completed
    | some ("Expired", none) => some .expired
    | _ => none

instance : Codec Target where
  encode x := .record [
    ("our_address", encode x.ourAddress),
    ("from_route", encode x.payerRoute),
    ("transfer", encode x.terms),
    ("block_number", encode x.blockNumber),
    ("status", encode x.status),
    ("payer_on_chain", encode x.payerOnChain)]
  decode v := do
    let ourAddress ← v.field "our_address"
    let payerRoute ← v.field "from_route"
    let terms ← v.field "transfer"
    let blockNumber ← v.field "block_number"
    let status ← v.field "status"
    let payerOnChain ← v.field "payer_on_chain"
    return ⟨ourAddress, payerRoute, terms, blockNumber, status, payerOnChain⟩

instance : Codec Role where
  encode
    | .initiator => .text "Initiator"
    | .mediator => .text "Mediator"
    | .target => .text "Target"
  decode v := match v.variant? with
    | some ("Initiator", none) => some .initiator
    | some ("Mediator", none) => some .mediator
    | some ("Target", none) => some .target
    | _ => none

instance : Codec Transfer where
  encode
    | .initiator x => .variant "Initiator" (encode x)
    | .mediator x => .variant "Mediator" (encode x)
    | .target x => .variant "Target" (encode x)
  decode v := match v.variant? with
    | some ("Initiator", some d) => (decode d).map .initiator
    | some ("Mediator", some d) => (decode d).map .mediator
    | some ("Target", some d) => (decode d).map .target
    | _ => none

end PaymentNetwork

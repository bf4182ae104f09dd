import PaymentNetwork.Record.Value
import PaymentNetwork.Chain.Event

/-!
# The Written Form of Ledger Events

How the events of the ledger and the calls to it are written.

## Main definitions

* `Codec` instances for the types of `PaymentNetwork.Chain.Event`.
-/

namespace PaymentNetwork

instance : Codec ChainEvent where
  encode
    | .tokenNetworkCreated token tokenNetwork block =>
      .variant "TokenNetworkCreated" (.record [
        ("token_address", encode token),
        ("token_network", encode tokenNetwork),
        ("block_number", encode block)])
    | .channelOpened tokenNetwork channelId participant1 participant2 settleTimeout block =>
      .variant "ChannelOpened" (.record [
        ("token_network", encode tokenNetwork),
        ("channel_id", encode channelId),
        ("participant1", encode participant1),
        ("participant2", encode participant2),
        ("settle_timeout", encode settleTimeout),
        ("block_number", encode block)])
    | .channelNewDeposit tokenNetwork channelId participant totalDeposit block =>
      .variant "ChannelNewDeposit" (.record [
        ("token_network", encode tokenNetwork),
        ("channel_id", encode channelId),
        ("participant", encode participant),
        ("total_deposit", encode totalDeposit),
        ("block_number", encode block)])
    | .channelWithdrawn tokenNetwork channelId participant totalWithdraw block =>
      .variant "ChannelWithdrawn" (.record [
        ("token_network", encode tokenNetwork),
        ("channel_id", encode channelId),
        ("participant", encode participant),
        ("total_withdraw", encode totalWithdraw),
        ("block_number", encode block)])
    | .channelClosed tokenNetwork channelId closer block =>
      .variant "ChannelClosed" (.record [
        ("token_network", encode tokenNetwork),
        ("channel_id", encode channelId),
        ("closing_participant", encode closer),
        ("block_number", encode block)])
    | .balanceProofUpdated tokenNetwork channelId participant nonce block =>
      .variant "BalanceProofUpdated" (.record [
        ("token_network", encode tokenNetwork),
        ("channel_id", encode channelId),
        ("participant", encode participant),
        ("nonce", encode nonce),
        ("block_number", encode block)])
    | .channelSettled tokenNetwork channelId block =>
      .variant "ChannelSettled" (.record [
        ("token_network", encode tokenNetwork),
        ("channel_id", encode channelId),
        ("block_number", encode block)])
    | .channelCooperativeSettled tokenNetwork channelId amount1 amount2 block =>
      .variant "ChannelCooperativeSettled" (.record [
        ("token_network", encode tokenNetwork),
        ("channel_id", encode channelId),
        ("participant1_amount", encode amount1),
        ("participant2_amount", encode amount2),
        ("block_number", encode block)])
    | .channelUnlocked tokenNetwork channelId participant secretHash transferredAmount block =>
      .variant "ChannelUnlocked" (.record [
        ("token_network", encode tokenNetwork),
        ("channel_id", encode channelId),
        ("participant", encode participant),
        ("secret_hash", encode secretHash),
        ("transferred_amount", encode transferredAmount),
        ("block_number", encode block)])
    | .secretRegistered secret secretHash block =>
      .variant "SecretRegistered" (.record [
        ("secret", encode secret),
        ("secret_hash", encode secretHash),
        ("block_number", encode block)])
  decode v := match v.variant? with
    | some ("TokenNetworkCreated", some d) => do
      let token ← d.field "token_address"
      let tokenNetwork ← d.field "token_network"
      let block ← d.field "block_number"
      return .tokenNetworkCreated token tokenNetwork block
    | some ("ChannelOpened", some d) => do
      let tokenNetwork ← d.field "token_network"
      let channelId ← d.field "channel_id"
      let participant1 ← d.field "participant1"
      let participant2 ← d.field "participant2"
      let settleTimeout ← d.field "settle_timeout"
      let block ← d.field "block_number"
      return .channelOpened tokenNetwork channelId participant1 participant2 settleTimeout block
    | some ("ChannelNewDeposit", some d) => do
      let tokenNetwork ← d.field "token_network"
      let channelId ← d.field "channel_id"
      let participant ← d.field "participant"
      let totalDeposit ← d.field "total_deposit"
      let block ← d.field "block_number"
      return .channelNewDeposit tokenNetwork channelId participant totalDeposit block
    | some ("ChannelWithdrawn", some d) => do
      let tokenNetwork ← d.field "token_network"
      let channelId ← d.field "channel_id"
      let participant ← d.field "participant"
      let totalWithdraw ← d.field "total_withdraw"
      let block ← d.field "block_number"
      return .channelWithdrawn tokenNetwork channelId participant totalWithdraw block
    | some ("ChannelClosed", some d) => do
      let tokenNetwork ← d.field "token_network"
      let channelId ← d.field "channel_id"
      let closer ← d.field "closing_participant"
      let block ← d.field "block_number"
      return .channelClosed tokenNetwork channelId closer block
    | some ("BalanceProofUpdated", some d) => do
      let tokenNetwork ← d.field "token_network"
      let channelId ← d.field "channel_id"
      let participant ← d.field "participant"
      let nonce ← d.field "nonce"
      let block ← d.field "block_number"
      return .balanceProofUpdated tokenNetwork channelId participant nonce block
    | some ("ChannelSettled", some d) => do
      let tokenNetwork ← d.field "token_network"
      let channelId ← d.field "channel_id"
      let block ← d.field "block_number"
      return .channelSettled tokenNetwork channelId block
    | some ("ChannelCooperativeSettled", some d) => do
      let tokenNetwork ← d.field "token_network"
      let channelId ← d.field "channel_id"
      let amount1 ← d.field "participant1_amount"
      let amount2 ← d.field "participant2_amount"
      let block ← d.field "block_number"
      return .channelCooperativeSettled tokenNetwork channelId amount1 amount2 block
    | some ("ChannelUnlocked", some d) => do
      let tokenNetwork ← d.field "token_network"
      let channelId ← d.field "channel_id"
      let participant ← d.field "participant"
      let secretHash ← d.field "secret_hash"
      let transferredAmount ← d.field "transferred_amount"
      let block ← d.field "block_number"
      return .channelUnlocked tokenNetwork channelId participant secretHash transferredAmount block
    | some ("SecretRegistered", some d) => do
      let secret ← d.field "secret"
      let secretHash ← d.field "secret_hash"
      let block ← d.field "block_number"
      return .secretRegistered secret secretHash block
    | _ => none

instance : Codec ChainCall where
  encode
    | .registerSecret secret deadline =>
      .variant "RegisterSecret" (.record [
        ("secret", encode secret),
        ("deadline", encode deadline)])
    | .closeChannel tokenNetwork channelId partner deadline =>
      .variant "ChannelClose" (.record [
        ("token_network", encode tokenNetwork),
        ("channel_id", encode channelId),
        ("partner", encode partner),
        ("deadline", encode deadline)])
    | .unlock tokenNetwork channelId partner secretHash deadline =>
      .variant "Unlock" (.record [
        ("token_network", encode tokenNetwork),
        ("channel_id", encode channelId),
        ("partner", encode partner),
        ("secret_hash", encode secretHash),
        ("deadline", encode deadline)])
  decode v := match v.variant? with
    | some ("RegisterSecret", some d) => do
      let secret ← d.field "secret"
      let deadline ← d.field "deadline"
      return .registerSecret secret deadline
    | some ("ChannelClose", some d) => do
      let tokenNetwork ← d.field "token_network"
      let channelId ← d.field "channel_id"
      let partner ← d.field "partner"
      let deadline ← d.field "deadline"
      return .closeChannel tokenNetwork channelId partner deadline
    | some ("Unlock", some d) => do
      let tokenNetwork ← d.field "token_network"
      let channelId ← d.field "channel_id"
      let partner ← d.field "partner"
      let secretHash ← d.field "secret_hash"
      let deadline ← d.field "deadline"
      return .unlock tokenNetwork channelId partner secretHash deadline
    | _ => none

end PaymentNetwork

import PaymentNetwork.Message

/-!
# Events and Calls of the Ledger

What a node learns from the ledger, and what it may ask of it.

An event carries the block at which it happened. A call carries the last block
at which it is still of use.

## Main definitions

* `ChainEvent`: An event seen on the ledger.
* `ChainCall`: A call that a transfer asks for.
-/

namespace PaymentNetwork

/-- An event seen on the ledger. -/
inductive ChainEvent where
  | tokenNetworkCreated (token tokenNetwork : Address) (block : Height)
  | channelOpened (tokenNetwork : Address) (channelId : ChannelId)
      (participant1 participant2 : Address) (settleTimeout block : Height)
  | channelNewDeposit (tokenNetwork : Address) (channelId : ChannelId) (participant : Address)
      (totalDeposit : Amount) (block : Height)
  | channelWithdrawn (tokenNetwork : Address) (channelId : ChannelId) (participant : Address)
      (totalWithdraw : Amount) (block : Height)
  | channelClosed (tokenNetwork : Address) (channelId : ChannelId) (closer : Address)
      (block : Height)
  /-- A participant submitted the balance proof of its partner to a closed
      channel. -/
  | balanceProofUpdated (tokenNetwork : Address) (channelId : ChannelId) (participant : Address)
      (nonce : Nonce) (block : Height)
  | channelSettled (tokenNetwork : Address) (channelId : ChannelId) (block : Height)
  /-- Both participants agreed to settle without a dispute. -/
  | channelCooperativeSettled (tokenNetwork : Address) (channelId : ChannelId)
      (amount1 amount2 : Amount) (block : Height)
  /-- A pending lock of `participant` was claimed on the ledger. -/
  | channelUnlocked (tokenNetwork : Address) (channelId : ChannelId) (participant : Address)
      (secretHash : SecretHash) (transferredAmount : Amount) (block : Height)
  | secretRegistered (secret : Secret) (secretHash : SecretHash) (block : Height)
deriving DecidableEq

namespace ChainEvent

/-- The block at which the event happened. -/
def block : ChainEvent → Height
  | tokenNetworkCreated _ _ b => b
  | channelOpened _ _ _ _ _ b => b
  | channelNewDeposit _ _ _ _ b => b
  | channelWithdrawn _ _ _ _ b => b
  | channelClosed _ _ _ b => b
  | balanceProofUpdated _ _ _ _ b => b
  | channelSettled _ _ b => b
  | channelCooperativeSettled _ _ _ _ b => b
  | channelUnlocked _ _ _ _ _ b => b
  | secretRegistered _ _ b => b

/-- The channel that the event is about, if any. -/
def channelId? : ChainEvent → Option ChannelId
  | tokenNetworkCreated .. => none
  | channelOpened _ c _ _ _ _ => some c
  | channelNewDeposit _ c _ _ _ => some c
  | channelWithdrawn _ c _ _ _ => some c
  | channelClosed _ c _ _ => some c
  | balanceProofUpdated _ c _ _ _ => some c
  | channelSettled _ c _ => some c
  | channelCooperativeSettled _ c _ _ _ => some c
  | channelUnlocked _ c _ _ _ _ => some c
  | secretRegistered .. => none

/-- The token network that the event is about, if any. -/
def tokenNetwork? : ChainEvent → Option Address
  | tokenNetworkCreated _ t _ => some t
  | channelOpened t _ _ _ _ _ => some t
  | channelNewDeposit t _ _ _ _ => some t
  | channelWithdrawn t _ _ _ _ => some t
  | channelClosed t _ _ _ => some t
  | balanceProofUpdated t _ _ _ _ => some t
  | channelSettled t _ _ => some t
  | channelCooperativeSettled t _ _ _ _ => some t
  | channelUnlocked t _ _ _ _ _ => some t
  | secretRegistered .. => none

/-- Does the event end the dispute about a channel? -/
def isSettlement : ChainEvent → Bool
  | channelSettled .. => true
  | _ => false

/-- Does the event start the dispute about a channel? -/
def isClose : ChainEvent → Bool
  | channelClosed .. => true
  | _ => false

end ChainEvent

/-- A call that a transfer asks for, with the last block at which it is of
    use. -/
inductive ChainCall where
  | registerSecret (secret : Secret) (deadline : Height)
  | closeChannel (tokenNetwork : Address) (channelId : ChannelId) (partner : Address)
      (deadline : Height)
  | unlock (tokenNetwork : Address) (channelId : ChannelId) (partner : Address)
      (secretHash : SecretHash) (deadline : Height)
deriving DecidableEq

namespace ChainCall

/-- The last block at which the call is of use. -/
def deadline : ChainCall → Height
  | registerSecret _ d => d
  | closeChannel _ _ _ d => d
  | unlock _ _ _ _ d => d

end ChainCall

end PaymentNetwork

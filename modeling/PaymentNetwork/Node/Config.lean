import PaymentNetwork.Connection.Policy

/-!
# Configuration of a Node

What an operator can set, the values that hold otherwise, and which settings make
sense together.

A payment expires after half of the settle timeout and has to leave room for the
reveal timeout. A reveal timeout of zero would leave no block to act in.

## Main definitions

* `NodeConfig`: The settings.
* `NodeConfig.standard`: The settings of an operator who only has an address.
* `NodeConfig.validate`: Refuse settings that make no sense.
* `NodeConfig.connectionSettings`: What follows for a token network.

## Theorems

* `NodeConfig.validate_eq_ok`: What accepted settings promise.
-/

namespace PaymentNetwork

/-- The settings of a node. -/
structure NodeConfig where
  ourAddress : Address
  /-- The blocks that a node needs to learn a secret and pass it on. -/
  revealTimeout : Height
  /-- The dispute window of the channels that the node opens. -/
  settleTimeout : Height
  /-- Ticks between two attempts at the ledger. -/
  chainBackoffTicks : Count
  settlePollTicks : Count
  openPollTicks : Count
  openMaxPolls : Count
  confirmBlocks : Height
  settleHoldBlocks : Height
  /-- How many reports wait for a slow reader. -/
  notifyBuffer : Count
  bootstrapAddress : Address
  channelTarget : Count
  /-- The fraction of the funds that is kept for channels opened by others. -/
  reserve : Float

/-- Why there is no configuration. -/
inductive ConfigError where
  /-- A file cannot be read or written. -/
  | inaccessible
  /-- A file does not describe a configuration. -/
  | malformed
  | invalidTimeouts
  | invalidConnectionPolicy
deriving DecidableEq

namespace ConfigError

/-- The name of the error. -/
def name : ConfigError → String
  | inaccessible => "IoError"
  | malformed => "TomlDeError"
  | invalidTimeouts => "InvalidTimeouts"
  | invalidConnectionPolicy => "InvalidConnectionPolicy"

end ConfigError

namespace NodeConfig

/-- The partner that stands in for a network without participants. -/
def standardBootstrap : Address := FixedBytes.replicate 20 2

/-- The settings of an operator who only has an address. -/
def standard (ourAddress : Address) : NodeConfig where
  ourAddress := ourAddress
  revealTimeout := 10
  settleTimeout := 600
  chainBackoffTicks := 1
  settlePollTicks := 60
  openPollTicks := 1
  openMaxPolls := 120
  confirmBlocks := 1
  settleHoldBlocks := 100
  notifyBuffer := 16
  bootstrapAddress := standardBootstrap
  channelTarget := 3
  reserve := 0.4

instance : Inhabited NodeConfig := ⟨standard default⟩

/-- Is the reveal timeout positive and below half of the settle timeout? -/
def hasRoomToReveal (c : NodeConfig) : Bool :=
  decide (c.revealTimeout ≠ 0) && decide (c.revealTimeout < c.settleTimeout.half)

/-- Is there a channel to aim at, and is the reserve a fraction? -/
def hasPolicy (c : NodeConfig) : Bool :=
  decide (c.channelTarget ≠ 0) && isFraction c.reserve

/-- Refuse settings that make no sense. -/
def validate (c : NodeConfig) : Except ConfigError Unit :=
  if !c.hasRoomToReveal then .error .invalidTimeouts
  else if !c.hasPolicy then .error .invalidConnectionPolicy
  else .ok ()

/-- What follows for a token network. -/
def connectionSettings (c : NodeConfig) (tokenNetwork : Address) : ConnectionSettings where
  tokenNetwork := tokenNetwork
  ourAddress := c.ourAddress
  bootstrapAddress := c.bootstrapAddress
  settleTimeout := c.settleTimeout
  settlePollTicks := c.settlePollTicks
  openPollTicks := c.openPollTicks
  openMaxPolls := c.openMaxPolls

/-- The policy of a node that joins a network with some funds. -/
def policy (c : NodeConfig) (funds : Amount) : Policy := ⟨funds, c.channelTarget, c.reserve⟩

theorem validate_eq_ok {c : NodeConfig} (h : c.validate = .ok ()) :
    0 < c.revealTimeout.val ∧ c.revealTimeout.val < c.settleTimeout.val / 2 := by
  unfold validate at h
  split at h
  · cases h
  · rename_i hroom
    have hr : c.hasRoomToReveal = true := by simpa using hroom
    unfold hasRoomToReveal at hr
    rw [Bool.and_eq_true, decide_eq_true_eq, decide_eq_true_eq] at hr
    refine ⟨Nat.pos_of_ne_zero fun h0 => hr.1 (Word.ext (by simpa using h0)), ?_⟩
    simpa [Word.lt_iff] using hr.2

end NodeConfig

end PaymentNetwork

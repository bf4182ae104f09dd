import PaymentNetwork.Chain.Submission
import PaymentNetwork.Connection.Policy

/-!
# Joining and Leaving a Token Network

The operations of a node on its membership in a token network.

An operation that looks at the funds or spends some uses the policy alone: it
waits until no other operation does, and lets go of it only at its end. The one
exception is leaving, which closes channels under the policy and waits for their
settlement without it, since that takes a whole dispute.

Each operation is a machine that waits at each point where time passes: for the
policy, for the ledger, or for the clock. Between two waits it runs without
interruption. What it waits for and whether it uses the policy are functions of
where it stands, so any order in which several operations take turns is a
sequence of `resume` steps.

## Main definitions

* `Operation`: What a node can ask for.
* `Phase`: Where an operation stands.
* `Membership`: The policy and the view that all operations share.
* `Phase.wants`, `Phase.usesPolicy`: What an operation waits for, and whether it
  uses the policy meanwhile.
* `Membership.begin`, `Membership.resume`: The steps of an operation.
-/

namespace PaymentNetwork

/-- Why an operation failed. -/
inductive ConnectionError where
  /-- No funds, no channels to aim at, or a reserve that is no fraction. -/
  | invalidArgument
  | ledger (e : LedgerError)
  /-- A channel that was opened did not come into view. -/
  | channelNotVisible
  | noChannelWithPartner
  | clockStopped
deriving DecidableEq

namespace ConnectionError

/-- The name of the error. -/
def name : ConnectionError → String
  | invalidArgument => "InvalidArgument"
  | ledger _ => "LedgerError"
  | channelNotVisible => "ChannelNotVisible"
  | noChannelWithPartner => "NoChannelWithPartner"
  | clockStopped => "SleepTicksError"

end ConnectionError

/-- What a node can ask for. -/
inductive Operation where
  /-- Join the network. -/
  | connect (policy : Policy)
  /-- Open more channels if the policy asks for them. -/
  | retryConnect
  /-- Put funds into a channel that a partner opened and funded. -/
  | joinChannel (partner : Address) (deposit : Amount)
  /-- Close our channels and wait for their settlement. -/
  | leave (onlyReceiving : Bool)
  /-- Open one channel and fund it. -/
  | openAndDeposit (partner : Address) (funding : Amount)
  | wantsMoreChannels
  | fundsRemaining
  /-- Are we leaving the network, or not in it? -/
  | leaveState

/-- What an operation comes to. -/
inductive OperationResult where
  | done
  | closed (channelIds : List ChannelId)
  | opened (channelId : ChannelId)
  | answer (b : Bool)
  | amount (a : Amount)
  | failed (e : ConnectionError)
deriving DecidableEq

/-- What follows when one channel was opened, or could not be. -/
inductive Errand where
  /-- The result is the channel. -/
  | single
  /-- More channels are to be opened, whatever became of this one. -/
  | batch (rest : List Address)
deriving DecidableEq

/-- Where an operation stands. -/
inductive Phase where
  /-- It waits for the policy. -/
  | queued (op : Operation)
  /-- It opens a channel with the stand-in. -/
  | bootstrapping
  /-- It opens a channel. -/
  | opening (partner : Address) (funding : Amount) (errand : Errand)
  /-- It waits for a channel to come into view, for the `polls`-th time. -/
  | polling (channelId : ChannelId) (polls : Nat) (funding : Amount) (errand : Errand)
  /-- It funds a channel that it opened. -/
  | funding (channelId : ChannelId) (amount : Amount) (errand : Errand)
  /-- It funds a channel that a partner opened. -/
  | joining (channelId : ChannelId) (amount : Amount)
  /-- It closes a channel, with more to close and some closed already. -/
  | closing (current : Channel) (rest : List Channel) (closed : List ChannelId)
  /-- It waits for the settlement of channels. -/
  | settling (closed : List ChannelId)
  | ended (result : OperationResult)

namespace Phase

/-- What an operation waits for. -/
def wants (s : ConnectionSettings) : Phase → Want
  | queued _ => .policy
  | bootstrapping => .ledger (.openChannel s.tokenNetwork s.bootstrapAddress s.settleTimeout)
  | opening partner _ _ => .ledger (.openChannel s.tokenNetwork partner s.settleTimeout)
  | polling .. => .ticks s.openPollTicks
  | funding channelId amount _ => .ledger (.deposit s.tokenNetwork channelId amount)
  | joining channelId amount => .ledger (.deposit s.tokenNetwork channelId amount)
  | closing c _ _ => .ledger (.closeChannel s.tokenNetwork c.id c.partner.address)
  | settling _ => .ticks s.settlePollTicks
  | ended _ => .nothing

end Phase

namespace Errand

/-- Does the errand belong to an operation that uses the policy? -/
def usesPolicy : Errand → Bool
  | single => false
  | batch _ => true

end Errand

namespace Phase

/-- Does an operation use the policy at this point? -/
def usesPolicy : Phase → Bool
  | queued _ => false
  | bootstrapping => true
  | opening _ _ errand => errand.usesPolicy
  | polling _ _ _ errand => errand.usesPolicy
  | funding _ _ errand => errand.usesPolicy
  | joining .. => true
  | closing .. => true
  | settling _ => false
  | ended _ => false

end Phase

/-- What all operations on a network share. -/
structure Membership where
  view : NetworkView
  policy : Policy

namespace Membership

variable (s : ConnectionSettings)

/-- Open a channel with each of some partners, one after the other. -/
def openNext (funding : Amount) : List Address → Phase
  | [] => .ended .done
  | partner :: rest => .opening partner funding (.batch rest)

/-- What follows when one channel was opened, or could not be. -/
def finishOpening (errand : Errand) (funding : Amount)
    (result : Except ConnectionError ChannelId) : Phase :=
  match errand with
  | .batch rest => openNext funding rest
  | .single =>
    match result with
    | .ok channelId => .ended (.opened channelId)
    | .error e => .ended (.failed e)

/-- Fund a channel if it is in view by now, and wait for it otherwise. -/
def lookForChannel (m : Membership) (channelId : ChannelId) (polls : Nat) (funding : Amount)
    (errand : Errand) : Phase :=
  match m.view.channel? channelId with
  | some _ =>
    if funding = 0 then finishOpening errand funding (.ok channelId)
    else .funding channelId funding errand
  | none =>
    -- The funds stay out of a channel that never came into view.
    if s.openMaxPolls.val ≤ polls then finishOpening errand funding (.error .channelNotVisible)
    else .polling channelId polls funding errand

/-- Open the channels that are missing. -/
def addPartners (m : Membership) : Phase :=
  openNext m.policy.perPartner (s.newPartners m.view (s.missing m.view m.policy))

/-- Is every one of these channels settled, or not in view? -/
def allSettled (m : Membership) (channelIds : List ChannelId) : Bool :=
  channelIds.all fun id => match m.view.channel? id with
    | some c => c.isSettled
    | none => true

/-- Close some channels, one after the other, and then wait for the settlement of
    those that were closed. -/
def closeNext (m : Membership) (closed : List ChannelId) : List Channel → Phase
  | c :: rest => .closing c rest closed
  | [] => if m.allSettled closed then .ended (.closed closed) else .settling closed

/-- Is there nothing to spend here, or no wish to? -/
def isIdle (m : Membership) : Bool :=
  decide (m.policy.funds = 0) || m.view.isBlocked s.tokenNetwork

/-- What of the deposit of a partner we match. -/
def joiningFunds (m : Membership) (deposit : Amount) : Amount :=
  (deposit.min (s.fundsRemaining m.view m.policy)).min m.policy.perPartner

/-- An operation was given the policy. -/
def granted (m : Membership) : Operation → Membership × Phase
  | .connect policy =>
    let m' := { m with policy := policy }
    (m', if (m.view.participants s.tokenNetwork).isEmpty then .bootstrapping
      else m'.addPartners s)
  | .retryConnect =>
    (m, if m.isIdle s || !s.wantsMoreChannels m.view m.policy then .ended .done
      else m.addPartners s)
  | .joinChannel partner deposit =>
    let amount := m.joiningFunds s deposit
    (m, if m.isIdle s || decide (amount = 0) then .ended .done
      else match m.view.channelByPartner? s.tokenNetwork partner with
        | none => .ended (.failed .noChannelWithPartner)
        | some c => .joining c.id amount)
  | .leave onlyReceiving =>
    -- First of all nothing opens a channel here any more.
    let m' : Membership :=
      { view := m.view.setBlocked s.tokenNetwork true
        policy := { m.policy with channelTarget := 0 } }
    let channels := if onlyReceiving then s.receivingChannels m'.view
      else m'.view.openChannels s.tokenNetwork
    (m', m'.closeNext [] channels)
  | .openAndDeposit partner funding => (m, .opening partner funding .single)
  | .wantsMoreChannels => (m, .ended (.answer (s.wantsMoreChannels m.view m.policy)))
  | .fundsRemaining => (m, .ended (.amount (s.fundsRemaining m.view m.policy)))
  | .leaveState =>
    (m, .ended (.answer (m.view.isBlocked s.tokenNetwork || decide (m.policy.channelTarget = 0))))

/-- An operation starts. Joining checks its arguments and allows automatic
    connection before it waits for the policy, and opening a single channel does
    not need the policy. -/
def begin (m : Membership) (op : Operation) : Membership × Phase :=
  match op with
  | .connect policy =>
    if policy.isValid then
      ({ m with view := m.view.setBlocked s.tokenNetwork false }, .queued op)
    else (m, .ended (.failed .invalidArgument))
  | .openAndDeposit partner funding => (m, .opening partner funding .single)
  | _ => (m, .queued op)

/-- The wait of an operation ends. -/
def resume (m : Membership) (p : Phase) (w : Wake) : Membership × Phase :=
  match p, w with
  | .queued op, .granted => m.granted s op
  | .bootstrapping, .answered (.ok _) => (m, m.addPartners s)
  | .bootstrapping, .answered (.error e) => (m, .ended (.failed (.ledger e)))
  | .opening _ funding errand, .answered (.ok (.opened channelId)) =>
    (m, m.lookForChannel s channelId 0 funding errand)
  | .opening _ funding errand, .answered (.ok _) =>
    (m, finishOpening errand funding (.error .channelNotVisible))
  | .opening _ funding errand, .answered (.error e) =>
    (m, finishOpening errand funding (.error (.ledger e)))
  | .polling channelId polls funding errand, .ticked true =>
    (m, m.lookForChannel s channelId (polls + 1) funding errand)
  | .polling _ _ funding errand, .ticked false =>
    (m, finishOpening errand funding (.error .clockStopped))
  | .funding channelId amount errand, .answered (.ok _) =>
    (m, finishOpening errand amount (.ok channelId))
  | .funding _ amount errand, .answered (.error e) =>
    (m, finishOpening errand amount (.error (.ledger e)))
  | .joining .., .answered (.ok _) => (m, .ended .done)
  | .joining .., .answered (.error e) => (m, .ended (.failed (.ledger e)))
  | .closing c rest closed, .answered (.ok _) => (m, m.closeNext (closed ++ [c.id]) rest)
  -- A channel that could not be closed is not waited for.
  | .closing _ rest closed, .answered (.error _) => (m, m.closeNext closed rest)
  | .settling closed, .ticked true => (m, m.closeNext closed [])
  | .settling _, .ticked false => (m, .ended (.failed .clockStopped))
  | p, _ => (m, p)

end Membership

end PaymentNetwork

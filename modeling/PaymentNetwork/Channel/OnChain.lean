import PaymentNetwork.Chain.Event
import PaymentNetwork.Channel.Basic

/-!
# Ledger Events in a Channel

What an event of the ledger changes in the channel it names.

Deposits, withdrawals and claimed locks change the end of the participant they
name. A channel that is open closes once; a settlement is taken as it comes.
Events of other channels change nothing.

## Main definitions

* `Channel.sideOf?`: The end that belongs to an address.
* `Channel.applyEvent`: The channel after an event.
-/

namespace PaymentNetwork

namespace Channel

/-- The end that belongs to an address, ours before the partner's. -/
def sideOf? (c : Channel) (participant : Address) : Option Side :=
  if participant = c.ours.address then some .ours
  else if participant = c.partner.address then some .partner
  else none

/-- Change the end of a participant. Strangers have none. -/
def applyFor (c : Channel) (participant : Address) (change : EndChange) : Channel :=
  match c.sideOf? participant with
  | some side => c.applyAt side change
  | none => c

/-- The channel after an event of the ledger. -/
def applyEvent (c : Channel) (e : ChainEvent) : Channel :=
  if e.channelId? = some c.id then
    match e with
    | .channelNewDeposit _ _ participant total _ => c.applyFor participant (.contractBalance total)
    | .channelWithdrawn _ _ participant total _ => c.applyFor participant (.withdrawn total)
    | .channelClosed _ _ _ block => if c.isOpen then { c with status := .closed block } else c
    | .channelSettled _ _ block => { c with status := .settled block }
    | .channelCooperativeSettled _ _ _ _ block => { c with status := .settled block }
    | .channelUnlocked _ _ participant secretHash _ _ =>
      c.applyFor participant (.removeLock secretHash)
    | .channelOpened .. => c
    | .balanceProofUpdated .. => c
    | .tokenNetworkCreated .. => c
    | .secretRegistered .. => c
  else c

end Channel

end PaymentNetwork

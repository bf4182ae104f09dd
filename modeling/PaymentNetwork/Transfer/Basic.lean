import PaymentNetwork.Transfer.Initiator
import PaymentNetwork.Transfer.Mediator
import PaymentNetwork.Transfer.Target

/-!
# Transfers

A transfer in any of the three parts that a node can play in it.

## Main definitions

* `Role`: The part we play.
* `Transfer`: The state of a transfer.
* `Transfer.step`: React to a fact.

## Theorems

* `Transfer.step_routeRefused_cost`: What a refusal costs a transfer.
-/

namespace PaymentNetwork

/-- The part that we play in a transfer. -/
inductive Role where
  | initiator
  | mediator
  | target
deriving DecidableEq

namespace Role

/-- The place of a role in the order of roles. -/
def rank : Role → Nat
  | initiator => 0
  | mediator => 1
  | target => 2

theorem rank_injective {a b : Role} (h : a.rank = b.rank) : a = b := by
  cases a <;> cases b <;> simp_all [rank]

end Role

/-- The state of a transfer, for one of the roles. -/
inductive Transfer where
  | initiator (s : Initiator)
  | mediator (s : Mediator)
  | target (s : Target)
deriving DecidableEq

namespace Transfer

/-- The part that we play. -/
def role : Transfer → Role
  | initiator _ => .initiator
  | mediator _ => .mediator
  | target _ => .target

/-- The hash that all locks of the transfer are on. -/
def secretHash : Transfer → SecretHash
  | initiator s => s.terms.secretHash
  | mediator s => s.received.secretHash
  | target s => s.terms.secretHash

/-- Is the transfer over? Nothing happens to it from then on. -/
def isTerminal : Transfer → Bool
  | initiator s => s.status.isTerminal
  | mediator s => s.status.isTerminal
  | target s => s.status.isTerminal

/-- The number of candidate routes that were not tried yet. -/
def routesLeft : Transfer → Nat
  | initiator s => s.routes.available.length
  | mediator s => s.routes.available.length
  | target _ => 0

/-- React to a fact. -/
def step : Transfer → Input → Transfer × List Effect
  | initiator s, i => (s.step i).map initiator id
  | mediator s, i => (s.step i).map mediator id
  | target s, i => (s.step i).map target id

/-- A refusal pays for every locked transfer that it causes with a route. -/
theorem step_routeRefused_cost (t : Transfer) (refusal : RouteRefusal) :
    (t.step (.routeRefused refusal)).1.routesLeft
        + Effect.lockedTransfers (t.step (.routeRefused refusal)).2
      ≤ t.routesLeft := by
  cases t with
  | initiator s => exact s.step_routeRefused_cost refusal
  | mediator s => exact s.step_routeRefused_cost refusal
  | target s =>
      cases h : s.status <;>
        simp [step, Target.step, h, routesLeft, TargetStatus.isTerminal, Effect.lockedTransfers]

end Transfer

end PaymentNetwork

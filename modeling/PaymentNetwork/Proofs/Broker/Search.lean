import PaymentNetwork.Proofs.Broker.Run
import PaymentNetwork.Proofs.Transfer.Routing

/-!
# Searching for a Channel

Which channel a lock goes into in the end, when channels may refuse it.

The search is spread over two machines that know nothing of each other. A transfer asks for a
lock over one route and stops there. The broker offers the lock to the channel of this route,
and a refusal of the channel is told to the transfer as a fact, which may make it ask for a
lock over another route. So nothing in either of them says that the lock goes into the first
channel that takes it.

What ties them together is what a transfer is going to do whatever it is told. `Search.Runs`
says that it asks for the routes of a list one after the other, as each is refused for
whatever reason, and that it gives up when none is left. Both kinds of transfers that send
locks do this with the usable ones of their routes, in order. On the other side the broker
does not touch the channels while it is refused. So it comes to `List.find?` on the list.

## Main definitions

* `Search`, `Search.Runs`: What a transfer does as its routes are refused.
* `Initiator.search`, `Mediator.search`: What the two kinds of transfers do.
* `Broker.carries`: The channel of a route takes a lock.

## Theorems

* `Initiator.search_runs`, `Mediator.search_runs`: They try their usable routes in order.
* `Search.Runs.drain_of_find?_eq_some`: The lock goes into the first channel that takes it.
* `Search.Runs.drain_of_find?_eq_none`: If there is none, no channel is touched.
-/

namespace PaymentNetwork

/-! ### Usable routes -/

namespace Routes

variable {rs : Routes} {usable : Route → Bool} {r : Route} {rest : List Route}

/-- The first usable route is taken, and the usable ones that are left are the others. -/
theorem popBest_of_filter_eq_cons (h : rs.available.filter usable = r :: rest) :
    ∃ routes, rs.popBest usable = (some r, routes) ∧
      routes.available.filter usable = rest := by
  obtain ⟨skipped, later, hsplit, hskipped, hr, hlater⟩ := List.filter_eq_cons_iff.mp h
  have hpass : ∀ q ∈ skipped, (!usable q) = true := fun q hq => by
    rw [Bool.not_eq_true', Bool.eq_false_iff]
    exact hskipped q hq
  have hdrop : rs.available.dropWhile (fun q => !usable q) = r :: later := by
    rw [hsplit, List.dropWhile_append_of_pos hpass, List.dropWhile_cons_of_neg (by rw [hr]; decide)]
  refine ⟨(rs.popBest usable).2, Prod.ext (congrArg List.head? hdrop) rfl, ?_⟩
  exact (congrArg (fun left => left.tail.filter usable) hdrop).trans hlater

/-- Without a usable route none is taken. -/
theorem popBest_of_filter_eq_nil (h : rs.available.filter usable = []) :
    ∃ routes, rs.popBest usable = (none, routes) := by
  have hdrop : rs.available.dropWhile (fun q => !usable q) = [] := by
    rw [List.dropWhile_eq_nil_iff]
    intro q hq
    rw [Bool.not_eq_true', Bool.eq_false_iff]
    exact List.filter_eq_nil_iff.mp h q hq
  exact ⟨(rs.popBest usable).2, Prod.ext (congrArg List.head? hdrop) rfl⟩

end Routes

/-! ### Searches -/

/-- What a transfer looks for, and what becomes of it. -/
structure Search where
  /-- The terms of the lock that is asked for. -/
  terms : TransferTerms
  /-- The transfer when a lock was asked for over the route. -/
  Waits : Route → Transfer → Prop
  /-- The transfer when it gave up. -/
  Over : Transfer → Prop
  /-- What is asked for then. -/
  last : List Effect

namespace Search

/-- The transfer asks for a lock over the first of the routes. For whatever reason that is
    refused, it does the same with the rest of them, until it gives up. -/
inductive Runs (s : Search) : List Route → Transfer × List Effect → Prop where
  | givesUp {t : Transfer} (h : s.Over t) : Runs s [] (t, s.last)
  | waits {r : Route} {rest : List Route} {t : Transfer} (h : s.Waits r t)
      (refused : ∀ reason, Runs s rest
        (t.step (.routeRefused ⟨s.terms.secretHash, r.channelId, reason⟩))) :
      Runs s (r :: rest) (t, [.sendLockedTransfer r.node r.channelId s.terms])

end Search

/-- The search of an initiator, which gives the payment up in the end. -/
def Initiator.search (terms : TransferTerms) : Search where
  terms := { terms with secret? := none }
  Waits r t := ∃ s, t = .initiator s ∧ s.status = .waitingSecretRequest ∧ s.route? = some r ∧
    s.terms = terms
  Over t := ∃ s, t = .initiator s ∧ s.status = .canceled ∧ s.terms = terms
  last := [failed terms .canceled "no usable route"]

/-- An initiator tries its usable routes in order. -/
theorem Initiator.search_runs (s : Initiator) :
    (search s.terms).Runs (s.routes.available.filter s.usable)
      (s.tryNextRoute.map .initiator id) := by
  generalize hroutes : s.routes.available.filter s.usable = routes
  -- What is usable does not change, and the usable routes become fewer.
  induction routes generalizing s with
  | nil =>
      obtain ⟨_, hpop⟩ := Routes.popBest_of_filter_eq_nil hroutes
      rw [tryNextRoute, hpop]
      exact .givesUp ⟨_, rfl, rfl, rfl⟩
  | cons r rest ih =>
      obtain ⟨later, hpop, hlater⟩ := Routes.popBest_of_filter_eq_cons hroutes
      rw [tryNextRoute, hpop]
      refine .waits ⟨_, rfl, rfl, rfl, rfl⟩ (fun reason => ?_)
      -- The refusal puts the route away, and the search goes on with the usable ones left.
      rw [Transfer.step, step_of_reroutes]
      · exact ih
          { s with
            routes := later.cancel r
            route? := none
            counterpartOnChain := false
            status := .waitingSecretRequest } hlater
      · exact ⟨rfl, rfl, decide_eq_true rfl⟩

/-- The search of a mediator, which gives the lock of the payer back in the end. -/
def Mediator.search (s : Mediator) : Search where
  terms := s.offer
  Waits r t := ∃ s', t = .mediator s' ∧ s'.status = .forwardedToNextHop ∧
    s'.payeeRoute? = some r ∧ s'.received = s.received
  Over t := ∃ s', t = .mediator s' ∧ s'.status = .canceled ∧ s'.received = s.received
  last := [.sendDisposal s.payerRoute.node s.payerRoute.channelId s.received.lock,
    .notice .info ("no route for mediated transfer " ++ s.received.secretHash.toText
      ++ ", disposed upstream")]

/-- A mediator tries its usable routes in order. -/
theorem Mediator.search_runs (s : Mediator) :
    s.search.Runs (s.routes.available.filter s.usable) (s.tryNextRoute.map .mediator id) := by
  generalize hroutes : s.routes.available.filter s.usable = routes
  induction routes generalizing s with
  | nil =>
      obtain ⟨_, hpop⟩ := Routes.popBest_of_filter_eq_nil hroutes
      rw [tryNextRoute, hpop]
      exact .givesUp ⟨_, rfl, rfl, rfl⟩
  | cons r rest ih =>
      obtain ⟨later, hpop, hlater⟩ := Routes.popBest_of_filter_eq_cons hroutes
      rw [tryNextRoute, hpop]
      refine .waits ⟨_, rfl, rfl, rfl, rfl⟩ (fun reason => ?_)
      -- The refusal puts the route away, and the search goes on with the usable ones left.
      rw [Transfer.step, step_of_reroutes]
      · exact ih
          { s with
            routes := later.cancel r
            payeeRoute? := none
            offered? := some s.offer
            downstreamLockRemoved := false
            status := .forwardedToNextHop } hlater
      · exact ⟨rfl, rfl, decide_eq_true rfl⟩

/-! ### The broker's part -/

namespace Broker

/-- Does the channel of the route take a lock on these terms? -/
def carries (view : NetworkView) (block : Height) (terms : TransferTerms) (r : Route) : Bool :=
  (view.withPartnerChannel r.channelId r.node (·.sendTransfer terms block)).isOk

end Broker

namespace Search

variable {s : Search} {routes : List Route} {begun : Transfer × List Effect}
  {view : NetworkView} {block : Height}

/-- The lock goes into the first channel that takes it. The channels that refused it are as
    they were. -/
theorem Runs.drain_of_find?_eq_some (h : s.Runs routes begun) {r : Route}
    (hfirst : routes.find? (Broker.carries view block s.terms) = some r) :
    ∃ t m view', s.Waits r t ∧
      view.withPartnerChannel r.channelId r.node (·.sendTransfer s.terms block) = .ok (m, view') ∧
      Broker.drain view block begun.1 begun.2
        = (t, ⟨view', [.send r.node (.lockedTransfer m)]⟩) := by
  induction h with
  | givesUp => cases hfirst
  | @waits q rest t hwaits refused ih =>
      rw [List.find?_cons] at hfirst
      rw [Broker.drain]
      cases hoffer : view.withPartnerChannel q.channelId q.node (·.sendTransfer s.terms block) with
      | ok sent =>
          obtain ⟨m, view'⟩ := sent
          rw [Broker.carries, hoffer] at hfirst
          cases hfirst
          refine ⟨t, m, view', hwaits, hoffer, ?_⟩
          simp only [Broker.drain]
      | error e =>
          -- Nothing was sent, and the rest of the list is offered to the same channels.
          rw [Broker.carries, hoffer] at hfirst
          simp only [List.nil_append]
          exact ih e.describe hfirst

/-- If no channel takes the lock, the transfer gives up, and all channels are as they were. -/
theorem Runs.drain_of_find?_eq_none (h : s.Runs routes begun)
    (hnone : routes.find? (Broker.carries view block s.terms) = none) :
    ∃ t, s.Over t ∧
      Broker.drain view block begun.1 begun.2 = Broker.drain view block t s.last := by
  induction h with
  | @givesUp t hover => exact ⟨t, hover, rfl⟩
  | @waits q rest t hwaits refused ih =>
      rw [List.find?_cons] at hnone
      rw [Broker.drain]
      cases hoffer : view.withPartnerChannel q.channelId q.node (·.sendTransfer s.terms block) with
      | ok sent =>
          rw [Broker.carries, hoffer] at hnone
          cases hnone
      | error e =>
          rw [Broker.carries, hoffer] at hnone
          simp only [List.nil_append]
          exact ih e.describe hnone

end Search

end PaymentNetwork

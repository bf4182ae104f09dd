import Mathlib.Data.List.TakeWhile
import PaymentNetwork.Proofs.Sorting
import PaymentNetwork.Proofs.Transfer.Disposal

/-!
# Passing a Lock On

Which locks a mediator offers, and when it gives the received one back.

The lock that a mediator offers has to expire a reveal timeout before the one it
received, and whoever takes it needs a reveal timeout of its own before that. Both
are asked for in plain numbers here, while the mediator computes them with sums and
differences that stop at the largest height and at zero. `safe_iff` shows that
stopping makes no difference: a difference that stopped at zero leaves no time for
the payee, and a sum that stopped at the largest height is not smaller than anything.

The routes are tried in the order of the candidates, each at most once. The start
and every fact after which the current route failed are a decision about those that
are left: the first one that suits gets the lock, and if none does the lock goes back
to the payer. No other fact sends a lock on or gives one back. Between two decisions
time passes, so a route that suited at the start may not suit any more, and each
decision is made at the block of the state that makes it.

A route is open if it carries no closing block. The candidates are known as they
were at the start, and only the route that is in use learns of an event of the
ledger.

## Main definitions

* `StartMediator.Safe`: An expiration that leaves both neighbours enough time.
* `StartMediator.Suits`, `StartMediator.choice`: A route that can take the lock, and
  the first one of several.
* `Mediator.Reroutes`: The current route failed.
* `Mediator.Forwards`: A lock that is offered over a route.
* `Mediator.Decides`: What comes of a decision about some routes.
* `Mediator.KeepsRoutes`, `Mediator.KeepsOffer`: What comes of a fact that asks for no
  decision.
* `Mediator.ForwardingLaw`: What a mediator does with its routes in a run.

## Theorems

* `StartMediator.safe_iff`: A margin computed with sums and differences that stop.
* `Mediator.tryNextRoute_decides`: Trying the next route is a decision.
* `Mediator.step_decides`, `Mediator.step_keepsRoutes`, `Mediator.step_keepsOffer`: A fact
  asks for a decision, or leaves the routes alone and the lock that is offered.
* `Mediator.run_forwardingLaw`: The law for every run.
-/

namespace PaymentNetwork

namespace StartMediator

variable (a : StartMediator) (now : Height)

/-- The lock may be offered over the route with this expiration. It expires the reveal
    timeout of the payer before the lock that was received, which is not at the same
    block, and after the reveal timeout of the route. -/
structure Safe (r : Route) (expiration : Height) : Prop where
  exact : expiration.val + a.payerRoute.revealTimeout.val = a.message.lock.expiration.val
  earlier : expiration.val < a.message.lock.expiration.val
  later : now.val + r.revealTimeout.val < expiration.val

/-- The transfer can go over the route at this block. -/
structure Suits (r : Route) : Prop where
  isOpen : r.isOpen = true
  notPayer : r.node ≠ a.payerRoute.node
  carries : a.message.lock.amount ≤ r.availableBalance
  margin : ∃ expiration, a.Safe now r expiration

variable {a now}

/-- There is at most one safe expiration, and the mediator finds it. -/
theorem safe_iff {r : Route} {expiration : Height} :
    a.Safe now r expiration ↔ expiration = a.deadline ∧
      a.deadline < a.message.lock.expiration ∧ now.satAdd r.revealTimeout < a.deadline := by
  have hbound := expiration.isLt
  have hreceived := a.message.lock.expiration.isLt
  rw [Word.lt_iff, Word.lt_iff, Word.val_satAdd, deadline, Word.val_satSub]
  constructor
  · rintro ⟨hexact, hearlier, hlater⟩
    have hval : expiration.val
        = a.message.lock.expiration.val - a.payerRoute.revealTimeout.val := by omega
    exact ⟨Word.ext hval, by omega, by omega⟩
  · rintro ⟨rfl, hearlier, hlater⟩
    rw [Word.val_satSub] at hbound
    -- The difference did not stop at zero: something is smaller than it.
    have hpositive : 0 < a.message.lock.expiration.val - a.payerRoute.revealTimeout.val := by
      omega
    refine ⟨?_, ?_, ?_⟩
    · rw [Word.val_satSub]
      omega
    · rw [Word.val_satSub]
      omega
    · -- Neither did the sum stop at the largest height: nothing is larger than that.
      rw [Word.val_satSub]
      omega

theorem suits_iff {r : Route} :
    a.Suits now r ↔ r.isOpen = true ∧ r.node ≠ a.payerRoute.node ∧
      a.message.lock.amount ≤ r.availableBalance ∧
      a.deadline < a.message.lock.expiration ∧ now.satAdd r.revealTimeout < a.deadline := by
  constructor
  · rintro ⟨hopen, hpayer, hcarries, expiration, hsafe⟩
    exact ⟨hopen, hpayer, hcarries, (safe_iff.mp hsafe).2⟩
  · rintro ⟨hopen, hpayer, hcarries, hmargin⟩
    exact ⟨hopen, hpayer, hcarries, a.deadline, safe_iff.mpr ⟨rfl, hmargin⟩⟩

instance (r : Route) : Decidable (a.Suits now r) := decidable_of_iff _ suits_iff.symm

variable (a now)

/-- The first of some routes that suits. -/
def choice (available : List Route) : Option Route :=
  available.find? (fun r => decide (a.Suits now r))

/-- The lock that was received goes back to the payer. -/
def disposal : Effect :=
  .sendDisposal a.payerRoute.node a.payerRoute.channelId a.message.lock

variable {a now}

theorem choice_eq_none_iff {available : List Route} :
    a.choice now available = none ↔ ∀ r ∈ available, ¬ a.Suits now r := by
  rw [choice, List.find?_eq_none]
  exact forall₂_congr (fun r _ => not_congr (decide_eq_true_iff))

theorem suits_of_choice {available : List Route} {r : Route}
    (h : a.choice now available = some r) : a.Suits now r := by
  have hfound := List.find?_some h
  exact of_decide_eq_true hfound

end StartMediator

namespace Mediator

/-- The current route failed: its channel refused the lock, or the payee gave the lock
    up. The fact is about the lock that was offered, and the secret is not known. -/
def Reroutes (s : Mediator) : Input → Prop
  | .routeRefused refusal => s.status = .forwardedToNextHop ∧
      refusal.secretHash = s.received.secretHash ∧ s.goesOver refusal.channelId = true
  | .lockDisposed d => s.status = .forwardedToNextHop ∧ s.isPayee d.sender = true ∧
      s.goesOver d.channelId = true ∧ s.offeredLock d.lock = true
  | _ => False

/-- The terms of a lock that is offered over a route at a block. They are those of the
    transfer that was received, with another expiration and without a secret. -/
structure Forwards (a : StartMediator) (now : Height) (r : Route) (t : TransferTerms) :
    Prop where
  suits : a.Suits now r
  safe : a.Safe now r t.expiration
  amount : t.amount = a.message.lock.amount
  secretHash : t.secretHash = a.message.lock.secretHash
  paymentId : t.paymentId = a.message.paymentId
  tokenNetwork : t.tokenNetwork = a.message.balanceProof.tokenNetwork
  initiator : t.initiator = a.message.initiator
  target : t.target = a.message.target
  secret? : t.secret? = none

/-- What comes of a decision about the routes that are left at a block. -/
structure Decides (a : StartMediator) (now : Height) (available : List Route)
    (r : Mediator × List Effect) : Prop where
  /-- The first route that suits gets the lock. -/
  forwards : ∀ route, a.choice now available = some route →
    r.1.status = .forwardedToNextHop ∧
    ∃ t, Forwards a now route t ∧
      r.2 = [.sendLockedTransfer route.node route.channelId t]
  /-- If none suits, the lock goes back to the payer, once, and nobody else gets one. -/
  returns : (∀ route ∈ available, ¬ a.Suits now route) →
    r.1.status = .canceled ∧ r.2.filter Effect.isDisposal = [a.disposal] ∧
    r.2.any Effect.isLockedTransfer = false
  /-- Routes that were looked at are not looked at again. -/
  consumes : r.1.routes.available <:+ available
  blockNumber : r.1.blockNumber = now

/-- What comes of a fact that asks for no decision. -/
structure KeepsRoutes (s : Mediator) (r : Mediator × List Effect) : Prop where
  routes : r.1.routes = s.routes
  canceled : r.1.status = .canceled → s.status = .canceled
  sendsNoLock : r.2.any Effect.isLockedTransfer = false
  disposesOfNone : r.2.any Effect.isDisposal = false

/-- What a mediator does with its routes, from the start on and at every fact. -/
structure ForwardingLaw (a : StartMediator) (block : Height) (inputs : List Input) :
    Prop where
  /-- The start is a decision about all candidates. -/
  start : Decides a block (Routes.ofCandidates a.candidates).available (start a block)
  /-- A fact after which the current route failed is a decision about the routes that
      are left, at the block of the state. -/
  reroutes : ∀ before i after, inputs = before ++ i :: after →
    (stateAfter a block before).Reroutes i →
    Decides a (stateAfter a block before).blockNumber
      (stateAfter a block before).routes.available ((stateAfter a block before).step i)
  /-- No other fact sends a lock on or gives one back. -/
  keeps : ∀ before i after, inputs = before ++ i :: after →
    ¬ (stateAfter a block before).Reroutes i →
    (stateAfter a block before).KeepsRoutes ((stateAfter a block before).step i)
  /-- The routes that are left are the last ones of the candidates. -/
  consumes : (stateAfter a block inputs).routes.available
    <:+ (Routes.ofCandidates a.candidates).available
  /-- Every lock that was sent on went over a candidate that suited at the block of the
      state that sent it. -/
  sent : ∀ node channelId t,
    .sendLockedTransfer node channelId t ∈ effectsOf a block inputs →
    ∃ before route, before <+: inputs ∧ route ∈ a.candidates ∧ route.node = node ∧
      route.channelId = channelId ∧
      Forwards a (stateAfter a block before).blockNumber route t
  /-- The received lock was given back once if the transfer is canceled, and not at all
      otherwise. -/
  disposals : (effectsOf a block inputs).filter Effect.isDisposal
    = if (stateAfter a block inputs).status = .canceled then [a.disposal] else []

/-! ### Decisions -/

section Decisions

variable {a : StartMediator} {s : Mediator}

/-- The mediator finds the routes that suit. -/
theorem OfDeal.usable_eq (h : OfDeal a s) (r : Route) :
    s.usable r = decide (a.Suits s.blockNumber r) := by
  have hdownstream : s.downstreamExpiration = a.deadline := h.payerDeadline
  have hreceived : s.received.expiration = a.message.lock.expiration :=
    congrArg TransferTerms.expiration h.received
  have hamount : s.received.amount = a.message.lock.amount :=
    congrArg TransferTerms.amount h.received
  rw [Bool.eq_iff_iff, decide_eq_true_iff, StartMediator.suits_iff, usable, hdownstream,
    hreceived, hamount, h.node]
  simp only [Bool.and_eq_true, decide_eq_true_eq, and_assoc]

theorem OfDeal.popBest_fst (h : OfDeal a s) :
    (s.routes.popBest s.usable).1 = a.choice s.blockNumber s.routes.available := by
  rw [StartMediator.choice, ← funext h.usable_eq, List.find?_eq_head?_dropWhile_not]
  rfl

/-- What the mediator offers over a route that suits. -/
theorem OfDeal.forwards (h : OfDeal a s) {r : Route} (hsuits : a.Suits s.blockNumber r) :
    Forwards a s.blockNumber r s.offer := by
  obtain ⟨expiration, hsafe⟩ := hsuits.margin
  have hdownstream : s.downstreamExpiration = a.deadline := h.payerDeadline
  have hoffer : s.offer
      = { TransferTerms.ofMessage a.message with expiration := expiration, secret? := none } := by
    rw [offer, h.received, hdownstream, (StartMediator.safe_iff.mp hsafe).1]
  rw [hoffer]
  exact ⟨hsuits, hsafe, rfl, rfl, rfl, rfl, rfl, rfl, rfl⟩

theorem popBest_suffix (rs : Routes) (usable : Route → Bool) :
    (rs.popBest usable).2.available <:+ rs.available :=
  (List.tail_suffix _).trans (List.dropWhile_suffix _)

theorem tryNextRoute_decides (h : OfDeal a s) :
    Decides a s.blockNumber s.routes.available s.tryNextRoute := by
  have hfound := h.popBest_fst
  have hleft := popBest_suffix s.routes s.usable
  unfold tryNextRoute
  split
  · rename_i r routes heq
    rw [heq] at hfound hleft
    have hchosen : a.choice s.blockNumber s.routes.available = some r := hfound.symm
    have hsuits : a.Suits s.blockNumber r := StartMediator.suits_of_choice hchosen
    refine ⟨fun route hroute => ?_, fun hnone => ?_, hleft, rfl⟩
    · obtain rfl : r = route := Option.some.inj (hfound.trans hroute)
      exact ⟨rfl, _, h.forwards hsuits, rfl⟩
    · exact absurd hsuits (hnone r (List.mem_of_find?_eq_some hchosen))
  · rename_i routes heq
    rw [heq] at hfound hleft
    refine ⟨fun route hroute => ?_, fun _ => ?_, hleft, rfl⟩
    · -- No route was found, so none can be the choice.
      cases hfound.trans hroute
    · rw [h.payerRoute, h.received]
      exact ⟨rfl, rfl, rfl⟩

theorem abandonRoute_decides (h : OfDeal a s) :
    Decides a s.blockNumber s.routes.available s.abandonRoute := by
  unfold abandonRoute
  split
  · rename_i r hr
    -- The failed route is remembered elsewhere, and those that are left stay.
    have hdeal : OfDeal a { s with routes := s.routes.cancel r, payeeRoute? := none } :=
      ⟨h.received, h.payerRoute⟩
    exact tryNextRoute_decides hdeal
  · exact tryNextRoute_decides h

theorem start_decides (a : StartMediator) (block : Height) :
    Decides a block (Routes.ofCandidates a.candidates).available (start a block) := by
  -- A mediator starts by trying its routes.
  have htries : ∃ s : Mediator, start a block = s.tryNextRoute ∧ OfDeal a s ∧
      s.blockNumber = block ∧ s.routes = Routes.ofCandidates a.candidates :=
    ⟨_, rfl, ⟨rfl, rfl⟩, rfl, rfl⟩
  obtain ⟨s, heq, hdeal, rfl, hroutes⟩ := htries
  rw [heq, ← hroutes]
  exact tryNextRoute_decides hdeal

/-- A fact after which the current route failed makes the mediator try another. -/
theorem step_of_reroutes {i : Input} (hfails : s.Reroutes i) : s.step i = s.abandonRoute := by
  cases i with
  | routeRefused refusal =>
      obtain ⟨hstatus, hhash, hover⟩ := hfails
      rw [step_routeRefused, if_pos hstatus, onRefusal, if_pos ⟨hhash, hover⟩]
  | lockDisposed d =>
      obtain ⟨hstatus, hpayee, hover, hlock⟩ := hfails
      have hstep : s.step (.lockDisposed d) = s.onDisposal d := by
        unfold step
        rw [hstatus]
        rfl
      rw [hstep, onDisposal, hpayee, hover, hlock, if_pos (by decide)]
  | _ => cases hfails

/-- So such a fact asks for a decision. -/
theorem step_decides (h : OfDeal a s) {i : Input} (hfails : s.Reroutes i) :
    Decides a s.blockNumber s.routes.available (s.step i) := by
  rw [step_of_reroutes hfails]
  exact abandonRoute_decides h

end Decisions

/-! ### Facts that ask for no decision -/

section Handlers

variable (s : Mediator)

theorem keepsRoutes_self : s.KeepsRoutes (s, []) := ⟨rfl, id, rfl, rfl⟩

theorem keepsRoutes_notice (level : NoticeLevel) (info : String) :
    s.KeepsRoutes (s, [.notice level info]) :=
  ⟨rfl, id, rfl, rfl⟩

variable {s}

/-- What was done to the rest of the state before does not matter. -/
theorem KeepsRoutes.of_same {s₀ : Mediator} {r : Mediator × List Effect} (h : s₀.KeepsRoutes r)
    (hroutes : s₀.routes = s.routes) (hstatus : s₀.status = .canceled → s.status = .canceled) :
    s.KeepsRoutes r :=
  ⟨h.routes.trans hroutes, fun hcanceled => hstatus (h.canceled hcanceled), h.sendsNoLock,
    h.disposesOfNone⟩

variable (s)

theorem claim_sends_no_lock (secret : Secret) :
    (s.claim secret).any Effect.isLockedTransfer = false := by
  unfold claim
  cases s.payerOnChain with
  | false => rfl
  | true => rfl

theorem payPayee_sends_no_lock (secret : Secret) :
    (s.payPayee secret).any Effect.isLockedTransfer = false := by
  rcases payPayee_cases s secret with heq | ⟨r, t, -, -, -, heq⟩
  · rw [heq]
    rfl
  · rw [heq]
    rfl

theorem removeDownstream_keepsRoutes : s.KeepsRoutes s.removeDownstream := by
  unfold removeDownstream
  split
  · split
    · exact ⟨rfl, id, rfl, rfl⟩
    · exact s.keepsRoutes_self
  · exact s.keepsRoutes_self

theorem expire_keepsRoutes : s.KeepsRoutes s.expire := by
  unfold expire
  split
  · exact ⟨rfl, fun h => (nomatch h), rfl, rfl⟩
  · exact s.keepsRoutes_self

theorem checkPayerDeadline_keepsRoutes : s.KeepsRoutes s.checkPayerDeadline := by
  unfold checkPayerDeadline
  split
  · split
    · exact ⟨rfl, fun h => (nomatch h), s.claim_sends_no_lock _, s.claim_no_disposal _⟩
    · exact s.keepsRoutes_self
  · exact s.keepsRoutes_self

theorem learnSecret_keepsRoutes (secret : Secret) : s.KeepsRoutes (s.learnSecret secret) := by
  have hcheck := checkPayerDeadline_keepsRoutes
    { s with secret? := some secret, status := .waitingSecretPropagation }
  refine ⟨hcheck.routes, fun h => (nomatch hcheck.canceled h), ?_, s.learnSecret_no_disposal secret⟩
  rw [learnSecret_snd, List.any_append, List.any_cons, payPayee_sends_no_lock, hcheck.sendsNoLock]
  rfl

theorem onBlock_keepsRoutes (block : Height) : s.KeepsRoutes (s.onBlock block) := by
  have hremoved := removeDownstream_keepsRoutes { s with blockNumber := block }
  have hexpired := expire_keepsRoutes ({ s with blockNumber := block }).removeDownstream.1
  unfold onBlock
  dsimp only
  split
  · -- Waiting for the payee, a mediator takes its lock back before it gives up.
    have hboth := hexpired.of_same hremoved.routes hremoved.canceled
    refine ⟨hboth.routes, hboth.canceled, ?_, ?_⟩
    · rw [List.any_append, hremoved.sendsNoLock, hboth.sendsNoLock]
      rfl
    · rw [List.any_append, hremoved.disposesOfNone, hboth.disposesOfNone]
      rfl
  · exact (checkPayerDeadline_keepsRoutes _).of_same rfl id
  · exact ⟨rfl, id, rfl, rfl⟩

theorem onSecretReveal_keepsRoutes (r : SecretRevealed) :
    s.KeepsRoutes (s.onSecretReveal r) := by
  unfold onSecretReveal
  split
  · exact s.keepsRoutes_self
  · split
    · exact s.keepsRoutes_notice _ _
    · exact s.learnSecret_keepsRoutes r.secret

theorem onProof_keepsRoutes (p : ProofReceived) : s.KeepsRoutes (s.onProof p) := by
  unfold onProof
  split
  · exact s.keepsRoutes_self
  · split
    · exact ⟨rfl, fun h => (nomatch h), rfl, rfl⟩
    · exact s.keepsRoutes_notice _ _

theorem onChain_keepsRoutes (e : ChainEvent) : s.KeepsRoutes (s.onChain e) := by
  unfold onChain
  split
  · split
    · exact ⟨rfl, id, rfl, rfl⟩
    · exact ⟨rfl, id, rfl, rfl⟩
  · split
    · exact s.learnSecret_keepsRoutes _
    · exact s.keepsRoutes_self
  · exact s.keepsRoutes_self

end Handlers

/-- A fact that does not fail the current route leaves the routes alone. -/
theorem step_keepsRoutes {s : Mediator} {i : Input} (h : ¬ s.Reroutes i) :
    s.KeepsRoutes (s.step i) := by
  unfold step
  split
  · exact s.keepsRoutes_self
  · split
    · exact s.onBlock_keepsRoutes _
    · rename_i refusal hstatus
      -- A refusal of another lock, or over another channel, is ignored.
      rw [onRefusal, if_neg (fun hfails => h ⟨hstatus, hfails⟩)]
      exact s.keepsRoutes_self
    · rename_i d hstatus
      rw [onDisposal, if_neg]
      · exact s.keepsRoutes_self
      · intro hfails
        rw [Bool.and_eq_true, Bool.and_eq_true] at hfails
        exact h ⟨hstatus, hfails.1.1, hfails.1.2, hfails.2⟩
    · exact s.keepsRoutes_notice _ _
    · exact s.onSecretReveal_keepsRoutes _
    · exact s.onProof_keepsRoutes _
    · exact s.onChain_keepsRoutes _
    · exact s.keepsRoutes_self

/-- The lock that is offered stays, and so does the node that it is offered to. -/
structure KeepsOffer (s s' : Mediator) : Prop where
  offered? : s'.offered? = s.offered?
  payee : s'.payeeRoute?.map Route.node = s.payeeRoute?.map Route.node

section KeepsOffer

variable (s : Mediator)

theorem keepsOffer_refl : s.KeepsOffer s := ⟨rfl, rfl⟩

theorem KeepsOffer.trans {s s' s'' : Mediator} (h : s.KeepsOffer s') (h' : s'.KeepsOffer s'') :
    s.KeepsOffer s'' :=
  ⟨h'.offered?.trans h.offered?, h'.payee.trans h.payee⟩

theorem checkPayerDeadline_keepsOffer : s.KeepsOffer s.checkPayerDeadline.1 := by
  unfold checkPayerDeadline
  split
  · split
    · exact ⟨rfl, rfl⟩
    · exact s.keepsOffer_refl
  · exact s.keepsOffer_refl

theorem learnSecret_keepsOffer (secret : Secret) : s.KeepsOffer (s.learnSecret secret).1 := by
  have hcheck := checkPayerDeadline_keepsOffer
    { s with secret? := some secret, status := .waitingSecretPropagation }
  exact ⟨hcheck.offered?, hcheck.payee⟩

theorem removeDownstream_keepsOffer : s.KeepsOffer s.removeDownstream.1 := by
  unfold removeDownstream
  split
  · split
    · exact ⟨rfl, rfl⟩
    · exact s.keepsOffer_refl
  · exact s.keepsOffer_refl

theorem expire_keepsOffer : s.KeepsOffer s.expire.1 := by
  unfold expire
  split
  · exact ⟨rfl, rfl⟩
  · exact s.keepsOffer_refl

theorem onBlock_keepsOffer (block : Height) : s.KeepsOffer (s.onBlock block).1 := by
  have hclock : s.KeepsOffer { s with blockNumber := block } := ⟨rfl, rfl⟩
  unfold onBlock
  dsimp only
  split
  · exact hclock.trans ((removeDownstream_keepsOffer _).trans (expire_keepsOffer _))
  · exact hclock.trans (checkPayerDeadline_keepsOffer _)
  · exact hclock

theorem onSecretReveal_keepsOffer (r : SecretRevealed) :
    s.KeepsOffer (s.onSecretReveal r).1 := by
  unfold onSecretReveal
  split
  · exact s.keepsOffer_refl
  · split
    · exact s.keepsOffer_refl
    · exact s.learnSecret_keepsOffer r.secret

theorem onProof_keepsOffer (p : ProofReceived) : s.KeepsOffer (s.onProof p).1 := by
  unfold onProof
  split
  · exact s.keepsOffer_refl
  · split
    · exact ⟨rfl, rfl⟩
    · exact s.keepsOffer_refl

theorem onChain_keepsOffer (e : ChainEvent) : s.KeepsOffer (s.onChain e).1 := by
  unfold onChain
  split
  · rename_i tokenNetwork channelId participant block
    split
    · exact ⟨rfl, rfl⟩
    · -- A channel that closes leads to the same node as before.
      have hnode : ∀ r : Route, (closeRoute r channelId block).node = r.node := by
        intro r
        unfold closeRoute
        split
        · rfl
        · rfl
      refine ⟨rfl, ?_⟩
      cases s.payeeRoute? with
      | none => rfl
      | some r => exact congrArg some (hnode r)
  · split
    · exact s.learnSecret_keepsOffer _
    · exact s.keepsOffer_refl
  · exact s.keepsOffer_refl

end KeepsOffer

/-- A fact that does not fail the current route leaves the offered lock alone. -/
theorem step_keepsOffer {s : Mediator} {i : Input} (h : ¬ s.Reroutes i) :
    s.KeepsOffer (s.step i).1 := by
  unfold step
  split
  · exact s.keepsOffer_refl
  · split
    · exact s.onBlock_keepsOffer _
    · rename_i refusal hstatus
      rw [onRefusal, if_neg (fun hfails => h ⟨hstatus, hfails⟩)]
      exact s.keepsOffer_refl
    · rename_i d hstatus
      rw [onDisposal, if_neg]
      · exact s.keepsOffer_refl
      · intro hfails
        rw [Bool.and_eq_true, Bool.and_eq_true] at hfails
        exact h ⟨hstatus, hfails.1.1, hfails.1.2, hfails.2⟩
    · exact s.keepsOffer_refl
    · exact s.onSecretReveal_keepsOffer _
    · exact s.onProof_keepsOffer _
    · exact s.onChain_keepsOffer _
    · exact s.keepsOffer_refl

/-! ### The law -/

section Law

variable {a : StartMediator} {now : Height} {available : List Route}
  {r : Mediator × List Effect}

/-- A decision sends the lock on, or gives it back and ends the transfer. -/
theorem Decides.cases (h : Decides a now available r) :
    (∃ route t, route ∈ available ∧ Forwards a now route t ∧
      r.1.status = .forwardedToNextHop ∧
      r.2 = [.sendLockedTransfer route.node route.channelId t]) ∨
    (r.1.status = .canceled ∧ r.2.filter Effect.isDisposal = [a.disposal] ∧
      r.2.any Effect.isLockedTransfer = false) := by
  cases hchoice : a.choice now available with
  | some route =>
      obtain ⟨hstatus, t, hforwards, hsent⟩ := h.forwards route hchoice
      exact Or.inl ⟨route, t, List.mem_of_find?_eq_some hchoice, hforwards, hstatus, hsent⟩
  | none => exact Or.inr (h.returns (StartMediator.choice_eq_none_iff.mp hchoice))

/-- Each locked transfer that comes of a decision goes over a route that suits. -/
theorem Decides.sent (h : Decides a now available r) {node : Address} {channelId : ChannelId}
    {t : TransferTerms} (hmem : .sendLockedTransfer node channelId t ∈ r.2) :
    ∃ route ∈ available, route.node = node ∧ route.channelId = channelId ∧
      Forwards a now route t := by
  rcases h.cases with ⟨route, t', hroute, hforwards, -, hsent⟩ | ⟨-, -, hnone⟩
  · rw [hsent, List.mem_singleton] at hmem
    cases hmem
    exact ⟨route, hroute, rfl, rfl, hforwards⟩
  · exact absurd rfl (List.any_eq_false.mp hnone _ hmem)

/-- A decision gives the lock back once or not at all. -/
theorem Decides.disposals (h : Decides a now available r) :
    r.2.filter Effect.isDisposal = if r.1.status = .canceled then [a.disposal] else [] := by
  rcases h.cases with ⟨route, t, -, -, hstatus, hsent⟩ | ⟨hstatus, hreturned, -⟩
  · rw [hsent, hstatus]
    rfl
  · rw [hreturned, if_pos hstatus]

/-- What a fact makes of the routes: a decision about them, or nothing. -/
theorem step_suffix {s : Mediator} (h : OfDeal a s) (i : Input) :
    (s.step i).1.routes.available <:+ s.routes.available := by
  by_cases hfails : s.Reroutes i
  · exact (step_decides h hfails).consumes
  · have hsame := congrArg Routes.available (step_keepsRoutes hfails).routes
    exact hsame ▸ List.suffix_refl _

/-- A lock that is sent on goes over one of the routes that were left. -/
theorem step_sent {s : Mediator} (h : OfDeal a s) {i : Input} {node : Address}
    {channelId : ChannelId} {t : TransferTerms}
    (hmem : .sendLockedTransfer node channelId t ∈ (s.step i).2) :
    ∃ route ∈ s.routes.available, route.node = node ∧ route.channelId = channelId ∧
      Forwards a s.blockNumber route t := by
  by_cases hfails : s.Reroutes i
  · exact (step_decides h hfails).sent hmem
  · exact absurd rfl (List.any_eq_false.mp (step_keepsRoutes hfails).sendsNoLock _ hmem)

/-- The received lock is given back by the fact that cancels the transfer. -/
theorem step_disposals {s : Mediator} (h : OfDeal a s) (i : Input) :
    (if s.status = .canceled then [a.disposal] else [])
        ++ (s.step i).2.filter Effect.isDisposal
      = if (s.step i).1.status = .canceled then [a.disposal] else [] := by
  by_cases hcanceled : s.status = .canceled
  · -- Nothing happens to a transfer that is canceled.
    rw [step_of_isTerminal (by rw [hcanceled]; rfl), if_pos hcanceled]
    rfl
  · rw [if_neg hcanceled, List.nil_append]
    by_cases hfails : s.Reroutes i
    · exact (step_decides h hfails).disposals
    · have hkeeps := step_keepsRoutes hfails
      rw [if_neg (fun hlater => hcanceled (hkeeps.canceled hlater))]
      exact List.filter_eq_nil_iff.mpr (List.any_eq_false.mp hkeeps.disposesOfNone)

variable (a) (block : Height)

theorem stateAfter_snoc (inputs : List Input) (i : Input) :
    stateAfter a block (inputs ++ [i]) = ((stateAfter a block inputs).step i).1 := by
  rw [stateAfter_append]
  rfl

theorem effectsOf_snoc (inputs : List Input) (i : Input) :
    effectsOf a block (inputs ++ [i])
      = effectsOf a block inputs ++ ((stateAfter a block inputs).step i).2 := by
  rw [effectsOf_append, Machine.effects_cons, Machine.effects_nil, List.append_nil]

theorem stateAfter_suffix (inputs : List Input) :
    (stateAfter a block inputs).routes.available
      <:+ (Routes.ofCandidates a.candidates).available := by
  induction inputs using List.reverseRec with
  | nil => exact (start_decides a block).consumes
  | append_singleton inputs i ih =>
      rw [stateAfter_snoc]
      exact (step_suffix (stateAfter_ofDeal a block inputs) i).trans ih

theorem mem_candidates {route : Route}
    (h : route ∈ (Routes.ofCandidates a.candidates).available) : route ∈ a.candidates :=
  (sortBy_perm _ a.candidates).mem_iff.mp h

theorem effectsOf_sent {inputs : List Input} {node : Address} {channelId : ChannelId}
    {t : TransferTerms} (hmem : .sendLockedTransfer node channelId t ∈ effectsOf a block inputs) :
    ∃ before route, before <+: inputs ∧ route ∈ a.candidates ∧ route.node = node ∧
      route.channelId = channelId ∧
      Forwards a (stateAfter a block before).blockNumber route t := by
  induction inputs using List.reverseRec with
  | nil =>
      -- The induction is on the last fact, whose state all the others have led to.
      have hstart := start_decides a block
      have hsent : .sendLockedTransfer node channelId t ∈ (start a block).2 := by
        rwa [effectsOf, Machine.effects_nil, List.append_nil] at hmem
      obtain ⟨route, hroute, hnode, hid, hforwards⟩ := hstart.sent hsent
      refine ⟨[], route, List.prefix_refl [], mem_candidates a hroute, hnode, hid, ?_⟩
      have hblock : (stateAfter a block []).blockNumber = block := hstart.blockNumber
      rwa [hblock]
  | append_singleton inputs i ih =>
      rw [effectsOf_snoc] at hmem
      rcases List.mem_append.mp hmem with hearlier | hnow
      · obtain ⟨before, route, hprefix, hrest⟩ := ih hearlier
        exact ⟨before, route, hprefix.trans (List.prefix_append inputs [i]), hrest⟩
      · -- The routes that are left are candidates.
        obtain ⟨route, hroute, hrest⟩ := step_sent (stateAfter_ofDeal a block inputs) hnow
        exact ⟨inputs, route, List.prefix_append inputs [i],
          mem_candidates a ((stateAfter_suffix a block inputs).subset hroute), hrest⟩

theorem effectsOf_disposals (inputs : List Input) :
    (effectsOf a block inputs).filter Effect.isDisposal
      = if (stateAfter a block inputs).status = .canceled then [a.disposal] else [] := by
  induction inputs using List.reverseRec with
  | nil =>
      rw [effectsOf, Machine.effects_nil, List.append_nil]
      exact (start_decides a block).disposals
  | append_singleton inputs i ih =>
      rw [effectsOf_snoc, stateAfter_snoc, List.filter_append, ih]
      exact step_disposals (stateAfter_ofDeal a block inputs) i

/-- In every run a mediator passes its lock on over routes that leave enough time, and
    gives it back once there is none left. -/
theorem run_forwardingLaw (inputs : List Input) : ForwardingLaw a block inputs where
  start := start_decides a block
  reroutes before _ _ _ hfails := step_decides (stateAfter_ofDeal a block before) hfails
  keeps _ _ _ _ h := step_keepsRoutes h
  consumes := stateAfter_suffix a block inputs
  sent _ _ _ hmem := effectsOf_sent a block hmem
  disposals := effectsOf_disposals a block inputs

end Law

end Mediator

end PaymentNetwork

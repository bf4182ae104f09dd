import PaymentNetwork.Proofs.Transfer.Timeliness

/-!
# What a Transfer Relies On

The lock of ours that a transfer in progress stands for, and how it is given up.

A transfer that pays somebody remembers a route and some terms, and takes it for granted
that the channel of the route holds a lock on these terms. It never looks. What it
remembers is right only if it is changed at the same moments as the channel, and this
module says when that is.

A reaction to a fact does one of three things with the pledge of a transfer. It asks for
nothing that concerns locks of ours, and the pledge stays or is dropped. It spends the
pledge: it asks to unlock the lock with its secret, or to take it back after it expired,
and the pledge is gone. Or it seeks a new one: it asks for a locked transfer and pledges
it beforehand, and if the channel refuses, the transfer goes on to the next route. The
routes come to an end, and so does the search.

## Main definitions

* `Pledge`, `Transfer.pledge?`: The lock that a transfer stands for.
* `Effect.Spends`: The effect gives the lock of a pledge up.
* `Mediator.Offered`, `Transfer.Engaged`: A transfer that has to have a route has one.
* `Transfer.Seeks`: A reaction looks for a route until there is one, or none is left.
* `Transfer.Conduct`, `Transfer.Reacts`: The three things that a reaction does with a
  pledge.
* `Input.Honest`: Secrets that a fact tells of belong to their hashes.

## Theorems

* `Initiator.tryNextRoute_seeks`, `Mediator.tryNextRoute_seeks`: Trying the next route is
  a search.
* `Initiator.step_reacts`, `Mediator.step_reacts`, `Transfer.step_reacts`: What any fact
  makes of the pledge.
* `Transfer.lt_of_pledge?`: The lock of a pledge has not expired.
* `Transfer.initiator_start_reacts`, `Transfer.mediator_start_reacts`,
  `Transfer.target_start_reacts`: What a transfer begins with.
-/

namespace PaymentNetwork

/-- A lock of ours in a channel with a node. -/
structure Pledge where
  recipient : Address
  channelId : ChannelId
  lock : Lock
deriving DecidableEq

namespace Pledge

/-- The pledges are about the same place in the same channel. -/
def Clashes (p q : Pledge) : Prop :=
  p.channelId = q.channelId ∧ p.lock.secretHash = q.lock.secretHash

end Pledge

namespace Effect

/-- The effect gives up the lock of a pledge: it unlocks it with its secret, or takes it
    back after it expired. -/
def Spends (p : Pledge) (now : Height) : Effect → Prop
  | sendUnlock recipient channelId _ secret _ =>
    recipient = p.recipient ∧ channelId = p.channelId ∧ hashSecret secret = p.lock.secretHash
  | sendLockRemoval recipient channelId secretHash =>
    recipient = p.recipient ∧ channelId = p.channelId ∧ secretHash = p.lock.secretHash ∧
      p.lock.expiration ≤ now
  | _ => False

end Effect

namespace Input

/-- Secrets that the fact tells of belong to their hashes. -/
def Honest : Input → Prop
  | secretRevealed r => hashSecret r.secret = r.secretHash
  | chain (.secretRegistered secret secretHash _) => hashSecret secret = secretHash
  | _ => True

end Input

namespace Mediator

/-- The mediator offered a lock over a route. It took it back, or thinks so, exactly if the
    lock expired. -/
structure Offered (s : Mediator) (r : Route) (t : TransferTerms) : Prop where
  route : s.payeeRoute? = some r
  offer : s.offered? = some t
  secretHash : t.secretHash = s.received.secretHash
  removed_iff : s.downstreamLockRemoved = false ↔ s.blockNumber < t.expiration

end Mediator

namespace Transfer

/-- The lock of ours that the transfer takes to be pending. -/
def pledge? : Transfer → Option Pledge
  | initiator s =>
    if s.status.isTerminal then none
    else s.route?.map fun r => ⟨r.node, r.channelId, s.terms.lock⟩
  | mediator s =>
    if s.status = .forwardedToNextHop ∧ s.downstreamLockRemoved = false then
      s.payeeRoute?.bind fun r => s.offered?.map fun t => ⟨r.node, r.channelId, t.lock⟩
    else none
  | target _ => none

/-- A transfer that has to have a route has one. -/
def Engaged : Transfer → Prop
  | initiator s => ¬ s.status.isTerminal = true → ∃ r, s.route? = some r
  | mediator s => s.status = .forwardedToNextHop → ∃ r t, s.Offered r t
  | target _ => True

/-- The reaction looks for a route. Either it gives up, and asks for nothing that concerns
    locks of ours. Or it asks for a locked transfer, and looks for the next route if that
    is refused, for whatever reason. -/
inductive Seeks : Transfer × List Effect → Prop where
  | gaveUp {t : Transfer} {effects : List Effect} (hnone : t.pledge? = none)
      (hquiet : effects.all Effect.isQuiet = true) : Seeks (t, effects)
  | tries {t : Transfer} {recipient : Address} {channelId : ChannelId} {terms : TransferTerms}
      (hpledge : t.pledge? = some ⟨recipient, channelId, terms.lock⟩)
      (hrefused : ∀ reason,
        Seeks (t.step (.routeRefused ⟨terms.secretHash, channelId, reason⟩))) :
      Seeks (t, [.sendLockedTransfer recipient channelId terms])

/-- What a reaction does with the pledge that the transfer had before. -/
inductive Conduct (old? : Option Pledge) (now : Height) : Transfer × List Effect → Prop where
  /-- The pledge stays or is dropped. -/
  | keeps {t : Transfer} {effects : List Effect} (hpledge : t.pledge? = old? ∨ t.pledge? = none)
      (hquiet : effects.all Effect.isQuiet = true) : Conduct old? now (t, effects)
  /-- The lock is given up. -/
  | spends {t : Transfer} {p : Pledge} {first later : List Effect} {e : Effect}
      (hold : old? = some p) (hspends : e.Spends p now) (hnone : t.pledge? = none)
      (hfirst : first.all Effect.isQuiet = true) (hlater : later.all Effect.isQuiet = true) :
      Conduct old? now (t, first ++ e :: later)
  /-- The transfer looks for another route. -/
  | seeks {r : Transfer × List Effect} (h : Seeks r) : Conduct old? now r

theorem Conduct.spends_head {old? : Option Pledge} {now : Height} {t : Transfer} {p : Pledge}
    {later : List Effect} {e : Effect} (hold : old? = some p) (hspends : e.Spends p now)
    (hnone : t.pledge? = none) (hlater : later.all Effect.isQuiet = true) :
    Conduct old? now (t, e :: later) := by
  have h : Conduct old? now (t, [] ++ e :: later) := .spends hold hspends hnone rfl hlater
  exact h

/-- When nothing is left to do, the pledge is the one before, or none. -/
theorem Conduct.pledge?_of_nil {old? : Option Pledge} {now : Height} {r : Transfer × List Effect}
    (h : Conduct old? now r) (hnil : r.2 = []) : r.1.pledge? = old? ∨ r.1.pledge? = none := by
  cases h with
  | keeps hpledge hquiet => exact hpledge
  | spends hold hspends hnone hfirst hlater =>
      exact absurd hnil (List.append_ne_nil_of_right_ne_nil _ (List.cons_ne_nil _ _))
  | seeks h =>
      cases h with
      | gaveUp hnone hquiet => exact Or.inr hnone
      | tries hpledge hrefused => cases hnil

/-- What the first effect of a reaction may be: one that leaves locks of ours alone, one
    that gives the pledge up, or the locked transfer of a search. -/
theorem Conduct.first_cases {old? : Option Pledge} {now : Height} {r : Transfer × List Effect}
    (h : Conduct old? now r) {e : Effect} {rest : List Effect} (heffects : r.2 = e :: rest) :
    (e.isQuiet = true ∧ Conduct old? now (r.1, rest)) ∨
    (∃ p, old? = some p ∧ e.Spends p now ∧ Conduct none now (r.1, rest)) ∨
    (∃ recipient channelId terms, e = .sendLockedTransfer recipient channelId terms ∧ rest = [] ∧
      r.1.pledge? = some ⟨recipient, channelId, terms.lock⟩ ∧
      ∀ reason, Seeks (r.1.step (.routeRefused ⟨terms.secretHash, channelId, reason⟩))) := by
  -- Quiet effects occur in two of the three things, and are peeled the same way.
  have hquiet_cons : ∀ {effects : List Effect}, effects.all Effect.isQuiet = true →
      effects = e :: rest → e.isQuiet = true ∧ rest.all Effect.isQuiet = true := by
    intro effects hquiet heq
    rw [heq, List.all_cons, Bool.and_eq_true] at hquiet
    exact hquiet
  cases h with
  | keeps hpledge hquiet =>
      obtain ⟨hfirst, hlater⟩ := hquiet_cons hquiet heffects
      exact Or.inl ⟨hfirst, .keeps hpledge hlater⟩
  | @spends t p first later e' hold hspends hnone hfirst hlater =>
      -- The effect that gives the pledge up comes now, or after something quiet.
      cases first with
      | nil =>
          cases heffects
          exact Or.inr (Or.inl ⟨p, hold, hspends, .keeps (Or.inr hnone) hlater⟩)
      | cons f first =>
          cases heffects
          rw [List.all_cons, Bool.and_eq_true] at hfirst
          exact Or.inl ⟨hfirst.1, .spends hold hspends hnone hfirst.2 hlater⟩
  | seeks h =>
      cases h with
      | gaveUp hnone hquiet =>
          obtain ⟨hfirst, hlater⟩ := hquiet_cons hquiet heffects
          exact Or.inl ⟨hfirst, .keeps (Or.inr hnone) hlater⟩
      | tries hpledge hrefused =>
          cases heffects
          exact Or.inr (Or.inr ⟨_, _, _, rfl, rfl, hpledge, hrefused⟩)

/-- A reaction that does one of the three things, and leaves the transfer engaged. -/
structure Reacts (old? : Option Pledge) (now : Height) (r : Transfer × List Effect) : Prop where
  conduct : Conduct old? now r
  engaged : r.1.Engaged

/-- Whoever is over stands for nothing. -/
theorem pledge?_of_isTerminal {t : Transfer} (h : t.isTerminal = true) : t.pledge? = none := by
  cases t with
  | initiator s => exact if_pos h
  | mediator s =>
      refine if_neg (fun hforwarded => ?_)
      cases (congrArg MediatorStatus.isTerminal hforwarded.1).symm.trans h
  | target s => rfl

theorem reacts_self {t : Transfer} (h : t.Engaged) (now : Height) :
    Reacts t.pledge? now (t, []) :=
  ⟨.keeps (Or.inl rfl) rfl, h⟩

end Transfer

/-! ### The initiator -/

namespace Initiator

variable {s : Initiator} {now : Height}

theorem pledge?_eq {r : Route} (h : ¬ s.status.isTerminal = true) (hroute : s.route? = some r) :
    (Transfer.initiator s).pledge? = some ⟨r.node, r.channelId, s.terms.lock⟩ := by
  rw [Transfer.pledge?, if_neg h, hroute]
  rfl

/-- A refusal of the lock that was asked for last makes the initiator look further. -/
theorem step_ownRefusal {r : Route} (hstatus : s.status = .waitingSecretRequest)
    (hroute : s.route? = some r) (reason : String) :
    s.step (.routeRefused ⟨s.terms.secretHash, r.channelId, reason⟩)
      = tryNextRoute { s with routes := s.routes.cancel r, route? := none } := by
  have hgoes : s.goesOver r.channelId = true := by
    rw [goesOver, hroute]
    exact decide_eq_true rfl
  rw [step_routeRefused, if_pos hstatus, onRefusal, if_pos ⟨rfl, hgoes⟩, abandonRoute, hroute]

/-- Trying the next route is a search, by induction on the routes that are left. -/
theorem tryNextRoute_seeks (s : Initiator) :
    Transfer.Seeks (s.tryNextRoute.map .initiator id) := by
  have hlength := s.routes.popBest_length s.usable
  cases hpop : s.routes.popBest s.usable with
  | mk found routes =>
      rw [hpop] at hlength
      rw [tryNextRoute, hpop]
      cases found with
      | none => exact .gaveUp rfl rfl
      | some r =>
          -- The route that was popped is pledged, and a refusal of it leaves fewer to pop.
          refine .tries rfl (fun reason => ?_)
          have hrefusal := step_ownRefusal (s := { s with
            routes := routes, route? := some r, counterpartOnChain := false,
            status := .waitingSecretRequest }) rfl rfl reason
          have hstep := congrArg (Prod.map Transfer.initiator id) hrefusal
          exact (congrArg Transfer.Seeks hstep).mpr (tryNextRoute_seeks _)
termination_by s.routes.available.length
decreasing_by
  exact Nat.lt_of_succ_le hlength

theorem tryNextRoute_engaged (s : Initiator) : (Transfer.initiator s.tryNextRoute.1).Engaged := by
  unfold tryNextRoute
  split
  · rename_i r routes hpop
    exact fun _ => ⟨r, rfl⟩
  · exact fun h => absurd rfl h

theorem abandonRoute_reacts (s : Initiator) (old? : Option Pledge) (now : Height) :
    Transfer.Reacts old? now (s.abandonRoute.map .initiator id) := by
  unfold abandonRoute
  split
  · exact ⟨.seeks (tryNextRoute_seeks _), tryNextRoute_engaged _⟩
  · exact ⟨.seeks (tryNextRoute_seeks s), tryNextRoute_engaged s⟩

/-- Registering the secret concerns no lock of ours. -/
theorem registerSecret_cases (s : Initiator) :
    s.registerSecret = (s, []) ∨ ∃ secret, s.registerSecret = ({ s with secretRegistered := true },
      [.call (.registerSecret secret (s.terms.expiration.satSub 1))]) := by
  unfold registerSecret
  split
  · rename_i secret hsecret
    split
    · exact Or.inr ⟨secret, rfl⟩
    · exact Or.inl rfl
  · exact Or.inl rfl

section Step

variable {r : Route}

/-- An initiator in progress that keeps its route and its terms keeps its pledge. -/
theorem reacts_of_same (hprogress : ¬ s.status.isTerminal = true) (hroute : s.route? = some r)
    {u : Initiator} (hprogress' : ¬ u.status.isTerminal = true) (hroute' : u.route? = some r)
    (hterms : u.terms = s.terms) {effects : List Effect}
    (hquiet : effects.all Effect.isQuiet = true) :
    Transfer.Reacts (Transfer.initiator s).pledge? now (.initiator u, effects) := by
  refine ⟨.keeps (Or.inl ?_) hquiet, fun _ => ⟨r, hroute'⟩⟩
  rw [pledge?_eq hprogress' hroute', pledge?_eq hprogress hroute, hterms]

/-- An initiator that gives up takes its lock back, if the channel was not closed. -/
theorem expire_reacts (hprogress : ¬ s.status.isTerminal = true) (hroute : s.route? = some r)
    (hnow : s.blockNumber ≤ now) {first : List Effect}
    (hfirst : first.all Effect.isQuiet = true) :
    Transfer.Reacts (Transfer.initiator s).pledge? now
      (.initiator s.expire.1, first ++ s.expire.2) := by
  by_cases hexpired : s.terms.expiration ≤ s.blockNumber
  · rw [expire, if_pos hexpired, removal, hroute]
    refine ⟨?_, fun h => absurd rfl h⟩
    -- A channel that was closed is not asked, and the pledge is dropped.
    by_cases hclosed : s.counterpartOnChain = true
    · simp only [if_pos hclosed]
      refine .keeps (Or.inr rfl) ?_
      rw [List.all_append, hfirst]
      rfl
    · simp only [if_neg hclosed]
      exact .spends (pledge?_eq hprogress hroute)
        ⟨rfl, rfl, rfl, Nat.le_trans hexpired hnow⟩ rfl hfirst rfl
  · rw [expire, if_neg hexpired]
    refine reacts_of_same hprogress hroute hprogress hroute rfl ?_
    rw [List.append_nil]
    exact hfirst

theorem onBlock_reacts (hprogress : ¬ s.status.isTerminal = true) (hroute : s.route? = some r)
    {block : Height} (hnow : block ≤ now) :
    Transfer.Reacts (Transfer.initiator s).pledge? now ((s.onBlock block).map .initiator id) := by
  have hpledge := pledge?_eq hprogress hroute
  rw [onBlock]
  -- Whether or not the secret is registered first, the route and the terms stay.
  rcases registerSecret_cases { s with blockNumber := block } with heq | ⟨secret, heq⟩
  · rw [heq, hpledge, ← pledge?_eq (s := { s with blockNumber := block }) hprogress hroute]
    exact expire_reacts (s := { s with blockNumber := block }) hprogress hroute hnow rfl
  · rw [heq, hpledge, ← pledge?_eq (s := { s with
      blockNumber := block, secretRegistered := true }) hprogress hroute]
    exact expire_reacts (s := { s with blockNumber := block, secretRegistered := true })
      hprogress hroute hnow rfl

theorem onSecretReveal_reacts (hprogress : ¬ s.status.isTerminal = true)
    (hroute : s.route? = some r) {reveal : SecretRevealed}
    (hhonest : hashSecret reveal.secret = reveal.secretHash) :
    Transfer.Reacts (Transfer.initiator s).pledge? now
      ((s.onSecretReveal reveal).map .initiator id) := by
  rw [onSecretReveal, hroute]
  dsimp only
  split
  · exact reacts_of_same hprogress hroute hprogress hroute rfl rfl
  · split
    · exact reacts_of_same hprogress hroute hprogress hroute rfl rfl
    · -- The secret is paid for with the lock.
      rename_i hhash
      have hopens : hashSecret reveal.secret = s.terms.secretHash :=
        hhonest.trans (Decidable.not_not.mp hhash)
      rw [pledge?_eq hprogress hroute]
      exact ⟨.spends_head rfl ⟨rfl, rfl, hopens⟩ rfl rfl, fun h => absurd rfl h⟩

/-- What an initiator does with its pledge. -/
theorem step_reacts (hengaged : (Transfer.initiator s).Engaged) {i : Input} (hhonest : i.Honest)
    (hnow : ∀ number, i = .block number → number ≤ now) :
    Transfer.Reacts (Transfer.initiator s).pledge? now ((s.step i).map .initiator id) := by
  by_cases hterminal : s.status.isTerminal = true
  · rw [step_of_isTerminal hterminal]
    exact Transfer.reacts_self hengaged now
  · -- One case per handler. Only blocks, refusals, disposals and secrets move the pledge.
    obtain ⟨r, hroute⟩ := hengaged hterminal
    unfold step
    rw [if_neg hterminal]
    split
    · exact onBlock_reacts hterminal hroute (hnow _ rfl)
    · unfold onRefusal
      split
      · exact abandonRoute_reacts s _ now
      · exact Transfer.reacts_self hengaged now
    · unfold onSecretRequest
      dsimp only
      split
      · split
        · exact reacts_of_same (u := { s with status := .waitingUnlock }) hterminal hroute
            Bool.false_ne_true hroute rfl rfl
        · exact reacts_of_same hterminal hroute hterminal hroute rfl rfl
      · exact reacts_of_same hterminal hroute hterminal hroute rfl rfl
    · unfold onDisposal
      split
      · exact Transfer.reacts_self hengaged now
      · split
        · exact reacts_of_same hterminal hroute hterminal hroute rfl rfl
        · exact abandonRoute_reacts s _ now
    · exact reacts_of_same hterminal hroute hterminal hroute rfl rfl
    · exact onSecretReveal_reacts hterminal hroute hhonest
    · unfold onChain
      split
      · split
        · exact reacts_of_same (u := { s with counterpartOnChain := true }) hterminal hroute
            hterminal hroute rfl rfl
        · exact Transfer.reacts_self hengaged now
      · split
        · exact ⟨.keeps (Or.inr rfl) rfl, fun h => absurd rfl h⟩
        · exact Transfer.reacts_self hengaged now
      · exact Transfer.reacts_self hengaged now
    · exact Transfer.reacts_self hengaged now

end Step

/-- A payment begins with the clock of the node. -/
theorem start_blockNumber (a : StartInitiator) (block : Height) :
    (start a block).1.blockNumber = block := by
  unfold start
  dsimp only
  split
  · rfl
  · split
    · rfl
    · exact tryNextRoute_blockNumber _

end Initiator

/-! ### The mediator -/

theorem Routes.usable_of_popBest {rs : Routes} {usable : Route → Bool} {r : Route}
    {routes : Routes} (h : rs.popBest usable = (some r, routes)) : usable r = true := by
  have hhead := List.head?_dropWhile_not (fun r => !usable r) rs.available
  have hfound : (rs.available.dropWhile fun r => !usable r).head? = some r := congrArg Prod.fst h
  rw [hfound] at hhead
  have hnot : (!usable r) = false := by simpa using hhead
  simpa using hnot

namespace Mediator

variable {s : Mediator} {now : Height}

theorem pledge?_of_ne (h : s.status ≠ .forwardedToNextHop) :
    (Transfer.mediator s).pledge? = none :=
  if_neg (fun hforwarded => h hforwarded.1)

theorem pledge?_of_removed (h : s.downstreamLockRemoved = true) :
    (Transfer.mediator s).pledge? = none := by
  refine if_neg (fun hforwarded => ?_)
  cases h.symm.trans hforwarded.2

theorem Offered.pledge?_eq {r : Route} {t : TransferTerms} (h : s.Offered r t)
    (hforwarded : s.status = .forwardedToNextHop) (hopen : s.downstreamLockRemoved = false) :
    (Transfer.mediator s).pledge? = some ⟨r.node, r.channelId, t.lock⟩ := by
  rw [Transfer.pledge?, if_pos ⟨hforwarded, hopen⟩, h.route, h.offer]
  rfl

/-- A mediator that does not wait for the payee stands for nothing. -/
theorem reacts_of_ne (old? : Option Pledge) (h : s.status ≠ .forwardedToNextHop)
    {effects : List Effect} (hquiet : effects.all Effect.isQuiet = true) :
    Transfer.Reacts old? now (.mediator s, effects) :=
  ⟨.keeps (Or.inr (pledge?_of_ne h)) hquiet, fun hforwarded => absurd hforwarded h⟩

theorem step_ownRefusal {r : Route} (hstatus : s.status = .forwardedToNextHop)
    (hroute : s.payeeRoute? = some r) (reason : String) :
    s.step (.routeRefused ⟨s.received.secretHash, r.channelId, reason⟩)
      = tryNextRoute { s with routes := s.routes.cancel r, payeeRoute? := none } := by
  have hgoes : s.goesOver r.channelId = true := by
    rw [goesOver, hroute]
    exact decide_eq_true rfl
  rw [step_routeRefused, if_pos hstatus, onRefusal, if_pos ⟨rfl, hgoes⟩, abandonRoute, hroute]

/-- Trying the next route is a search, by induction on the routes that are left. -/
theorem tryNextRoute_seeks (s : Mediator) : Transfer.Seeks (s.tryNextRoute.map .mediator id) := by
  have hlength := s.routes.popBest_length s.usable
  cases hpop : s.routes.popBest s.usable with
  | mk found routes =>
      rw [hpop] at hlength
      rw [tryNextRoute, hpop]
      cases found with
      | none => exact .gaveUp rfl rfl
      | some r =>
          -- The route that was popped is pledged, and a refusal of it leaves fewer to pop.
          refine .tries rfl (fun reason => ?_)
          have hrefusal := step_ownRefusal (s := { s with
            routes := routes, payeeRoute? := some r, offered? := some s.offer,
            downstreamLockRemoved := false, status := .forwardedToNextHop }) rfl rfl reason
          have hstep := congrArg (Prod.map Transfer.mediator id) hrefusal
          exact (congrArg Transfer.Seeks hstep).mpr (tryNextRoute_seeks _)
termination_by s.routes.available.length
decreasing_by
  exact Nat.lt_of_succ_le hlength

/-- A usable route leaves the offered lock time. -/
theorem lt_of_usable {r : Route} (h : s.usable r = true) :
    s.blockNumber < s.downstreamExpiration := by
  have htime := of_decide_eq_true (Bool.and_eq_true_iff.mp h).2
  have hbound := s.blockNumber.isLt
  rw [Word.lt_iff, Word.val_satAdd] at htime
  rw [Word.lt_iff]
  omega

theorem tryNextRoute_engaged (s : Mediator) : (Transfer.mediator s.tryNextRoute.1).Engaged := by
  unfold tryNextRoute
  split
  · rename_i r routes hpop
    -- The route was usable, so the lock over it is not yet one to take back.
    have htime := lt_of_usable (Routes.usable_of_popBest hpop)
    exact fun _ => ⟨r, s.offer, rfl, rfl, rfl, iff_of_true rfl htime⟩
  · exact fun h => nomatch h

theorem abandonRoute_reacts (s : Mediator) (old? : Option Pledge) (now : Height) :
    Transfer.Reacts old? now (s.abandonRoute.map .mediator id) := by
  unfold abandonRoute
  split
  · exact ⟨.seeks (tryNextRoute_seeks _), tryNextRoute_engaged _⟩
  · exact ⟨.seeks (tryNextRoute_seeks s), tryNextRoute_engaged s⟩

theorem claim_quiet (s : Mediator) (secret : Secret) :
    (s.claim secret).all Effect.isQuiet = true := by
  unfold claim
  split
  · rfl
  · rfl

/-- Whether or not the claim is due, nothing of it concerns locks of ours. -/
theorem checkPayerDeadline_quiet (s : Mediator) :
    s.checkPayerDeadline.2.all Effect.isQuiet = true := by
  unfold checkPayerDeadline
  split
  · split
    · exact claim_quiet s _
    · rfl
  · rfl

theorem checkPayerDeadline_ne (h : s.status ≠ .forwardedToNextHop) :
    s.checkPayerDeadline.1.status ≠ .forwardedToNextHop := by
  unfold checkPayerDeadline
  split
  · split
    · exact fun hforwarded => nomatch hforwarded
    · exact h
  · exact h

section Step

variable {r : Route} {t : TransferTerms}

theorem expire_cases (s : Mediator) :
    s.expire = (s, []) ∨
    (s.expire.1.status ≠ .forwardedToNextHop ∧ s.expire.2.all Effect.isQuiet = true) := by
  unfold expire
  split
  · exact Or.inr ⟨(fun hforwarded => nomatch hforwarded), rfl⟩
  · exact Or.inl rfl

/-- What a block finds of the offered lock: it is taken back if it just expired. -/
theorem Offered.onBlock_eq (h : s.Offered r t) (hforwarded : s.status = .forwardedToNextHop)
    (block : Height) :
    s.onBlock block =
      if s.downstreamLockRemoved = false ∧ t.expiration ≤ block then
        (expire { s with blockNumber := block, downstreamLockRemoved := true }).map id
          (.sendLockRemoval r.node r.channelId t.secretHash :: ·)
      else expire { s with blockNumber := block } := by
  -- What was remembered decides both whether there is a lock to remove and which.
  have hremove : removeDownstream { s with blockNumber := block } =
      if !s.downstreamLockRemoved && decide (t.expiration ≤ block) then
        ({ s with blockNumber := block, downstreamLockRemoved := true },
          [.sendLockRemoval r.node r.channelId t.secretHash])
      else ({ s with blockNumber := block }, []) := by
    unfold removeDownstream
    simp only [h.route, h.offer]
  have hblock : s.onBlock block =
      ((removeDownstream { s with blockNumber := block }).1.expire.1,
        (removeDownstream { s with blockNumber := block }).2
          ++ (removeDownstream { s with blockNumber := block }).1.expire.2) := by
    unfold onBlock
    split
    · rfl
    · rename_i hwaiting
      cases hforwarded.symm.trans hwaiting
    · rename_i hother _
      exact absurd hforwarded hother
  rw [hblock, hremove]
  by_cases hdue : s.downstreamLockRemoved = false ∧ t.expiration ≤ block
  · have hguard : (!s.downstreamLockRemoved && decide (t.expiration ≤ block)) = true := by
      rw [hdue.1, decide_eq_true hdue.2]
      rfl
    rw [if_pos hguard, if_pos hdue]
    rfl
  · have hguard : ¬ (!s.downstreamLockRemoved && decide (t.expiration ≤ block)) = true := by
      intro hguard
      rw [Bool.and_eq_true_iff, Bool.not_eq_true'] at hguard
      exact hdue ⟨hguard.1, of_decide_eq_true hguard.2⟩
    rw [if_neg hguard, if_neg hdue]
    rfl

/-- On a block, a mediator takes back the lock that it offered when it expires. -/
theorem onBlock_reacts (hforwarded : s.status = .forwardedToNextHop) (h : s.Offered r t)
    {block : Height} (hclock : s.blockNumber ≤ block) (hnow : block ≤ now) :
    Transfer.Reacts (Transfer.mediator s).pledge? now ((s.onBlock block).map .mediator id) := by
  rw [h.onBlock_eq hforwarded]
  by_cases hdue : s.downstreamLockRemoved = false ∧ t.expiration ≤ block
  · -- The lock expired with this block.
    rw [if_pos hdue]
    have hpledge := h.pledge?_eq hforwarded hdue.1
    have hspends : Effect.Spends ⟨r.node, r.channelId, t.lock⟩ now
        (.sendLockRemoval r.node r.channelId t.secretHash) :=
      ⟨rfl, rfl, rfl, Nat.le_trans hdue.2 hnow⟩
    rcases expire_cases { s with blockNumber := block, downstreamLockRemoved := true } with
      heq | ⟨hne, hquiet⟩
    · rw [heq]
      have hstays : Mediator.Offered
          { s with blockNumber := block, downstreamLockRemoved := true } r t :=
        ⟨h.route, h.offer, h.secretHash,
          iff_of_false (fun hopen => nomatch hopen) (Word.not_lt.mpr hdue.2)⟩
      exact ⟨.spends_head hpledge hspends (pledge?_of_removed rfl) rfl, fun _ => ⟨r, t, hstays⟩⟩
    · exact ⟨.spends_head hpledge hspends (pledge?_of_ne hne) hquiet,
        fun hstill => absurd hstill hne⟩
  · rw [if_neg hdue]
    rcases expire_cases { s with blockNumber := block } with heq | ⟨hne, hquiet⟩
    · rw [heq]
      -- Time passes, and does not change whether the lock expired.
      have hremoved : s.downstreamLockRemoved = false ↔ block < t.expiration := by
        constructor
        · exact fun hopen => Word.not_le.mp (fun hexpired => hdue ⟨hopen, hexpired⟩)
        · exact fun hlater => h.removed_iff.mpr (Nat.lt_of_le_of_lt hclock hlater)
      refine ⟨.keeps (Or.inl rfl) rfl, fun _ => ⟨r, t, ?_⟩⟩
      exact ⟨h.route, h.offer, h.secretHash, hremoved⟩
    · exact reacts_of_ne _ hne hquiet

theorem Offered.payPayee_eq (h : s.Offered r t) (secret : Secret) :
    s.payPayee secret =
      if s.unlocksPayee r t then
        [.sendUnlock r.node r.channelId t.paymentId secret t.secretHash,
          .unlockSuccess t.paymentId t.secretHash]
      else [] := by
  unfold payPayee
  simp only [h.route, h.offer]

/-- A mediator that learns the secret pays with the lock, unless that expired or the
    channel was closed. -/
theorem learnSecret_reacts (hforwarded : s.status = .forwardedToNextHop) (h : s.Offered r t)
    {secret : Secret} (hopens : hashSecret secret = s.received.secretHash) :
    Transfer.Reacts (Transfer.mediator s).pledge? now
      ((s.learnSecret secret).map .mediator id) := by
  have hne : (s.learnSecret secret).1.status ≠ .forwardedToNextHop := by
    rw [learnSecret_fst]
    exact checkPayerDeadline_ne (fun hstill => nomatch hstill)
  have hclaimed := checkPayerDeadline_quiet
    { s with secret? := some secret, status := .waitingSecretPropagation }
  refine ⟨?_, fun hstill => absurd hstill hne⟩
  change Transfer.Conduct _ now (.mediator (s.learnSecret secret).1, (s.learnSecret secret).2)
  rw [learnSecret_snd, h.payPayee_eq]
  by_cases hpays : s.unlocksPayee r t = true
  · rw [if_pos hpays]
    have hintime : s.blockNumber < t.expiration :=
      of_decide_eq_true (Bool.and_eq_true_iff.mp hpays).2
    have hpledge := h.pledge?_eq hforwarded (h.removed_iff.mpr hintime)
    have hspends : Effect.Spends ⟨r.node, r.channelId, t.lock⟩ now
        (.sendUnlock r.node r.channelId t.paymentId secret t.secretHash) :=
      ⟨rfl, rfl, hopens.trans h.secretHash.symm⟩
    -- The payer is shown the secret before the payee is paid.
    have hconduct : Transfer.Conduct (Transfer.mediator s).pledge? now
        (.mediator (s.learnSecret secret).1, [.sendSecretReveal s.payerRoute.node secret]
          ++ .sendUnlock r.node r.channelId t.paymentId secret t.secretHash
          :: (.unlockSuccess t.paymentId t.secretHash :: (checkPayerDeadline
            { s with secret? := some secret, status := .waitingSecretPropagation }).2)) :=
      .spends hpledge hspends (pledge?_of_ne hne) rfl hclaimed
    exact hconduct
  · rw [if_neg hpays]
    exact .keeps (Or.inr (pledge?_of_ne hne)) hclaimed

theorem closeRoute_node (r : Route) (channelId : ChannelId) (block : Height) :
    (closeRoute r channelId block).node = r.node := by
  unfold closeRoute
  split
  · rfl
  · rfl

theorem closeRoute_channelId (r : Route) (channelId : ChannelId) (block : Height) :
    (closeRoute r channelId block).channelId = r.channelId := by
  unfold closeRoute
  split
  · rfl
  · rfl

/-- The ledger changes nothing about the lock that was offered, unless it shows the
    secret. -/
theorem onChain_reacts (hforwarded : s.status = .forwardedToNextHop) (h : s.Offered r t)
    {e : ChainEvent} (hhonest : Input.Honest (.chain e)) :
    Transfer.Reacts (Transfer.mediator s).pledge? now ((s.onChain e).map .mediator id) := by
  have hengaged : (Transfer.mediator s).Engaged := fun _ => ⟨r, t, h⟩
  cases e with
  | channelClosed tokenNetwork channelId closer block =>
      rw [onChain]
      split
      · exact ⟨.keeps (Or.inl rfl) rfl, fun _ =>
          ⟨r, t, h.route, h.offer, h.secretHash, h.removed_iff⟩⟩
      · -- A closed route is marked so, and still leads through the same channel.
        have hstays : Mediator.Offered
            { s with payeeRoute? := s.payeeRoute?.map (closeRoute · channelId block) }
            (closeRoute r channelId block) t :=
          ⟨congrArg (Option.map (closeRoute · channelId block)) h.route, h.offer, h.secretHash,
            h.removed_iff⟩
        refine ⟨.keeps ?_ rfl, fun _ => ⟨_, t, hstays⟩⟩
        rcases Bool.eq_false_or_eq_true s.downstreamLockRemoved with hremoved | hremoved
        · exact Or.inr (pledge?_of_removed hremoved)
        · refine Or.inl ((hstays.pledge?_eq hforwarded hremoved).trans ?_)
          rw [h.pledge?_eq hforwarded hremoved, closeRoute_node, closeRoute_channelId]
  | secretRegistered secret secretHash block =>
      rw [onChain]
      split
      · rename_i hours
        exact learnSecret_reacts hforwarded h (Eq.trans hhonest hours.1)
      · exact Transfer.reacts_self hengaged now
  | _ => exact Transfer.reacts_self hengaged now

theorem onSecretReveal_reacts (hforwarded : s.status = .forwardedToNextHop) (h : s.Offered r t)
    {reveal : SecretRevealed} (hhonest : hashSecret reveal.secret = reveal.secretHash) :
    Transfer.Reacts (Transfer.mediator s).pledge? now
      ((s.onSecretReveal reveal).map .mediator id) := by
  have hengaged : (Transfer.mediator s).Engaged := fun _ => ⟨r, t, h⟩
  unfold onSecretReveal
  split
  · exact Transfer.reacts_self hengaged now
  · split
    · exact ⟨.keeps (Or.inl rfl) rfl, hengaged⟩
    · rename_i hhash
      exact learnSecret_reacts hforwarded h (hhonest.trans (Decidable.not_not.mp hhash))

/-- A mediator that does not wait for the payee never does so again. -/
theorem step_reacts_of_ne (old? : Option Pledge) (hne : s.status ≠ .forwardedToNextHop)
    (i : Input) : Transfer.Reacts old? now ((s.step i).map .mediator id) := by
  have hsame : ∀ (u : Mediator) (effects : List Effect), u.status = s.status →
      effects.all Effect.isQuiet = true → Transfer.Reacts old? now (.mediator u, effects) :=
    fun u effects hstatus hquiet => reacts_of_ne old? (fun h => hne (hstatus.symm.trans h)) hquiet
  unfold step
  split
  · exact hsame s [] rfl rfl
  · split
    · rename_i number
      unfold onBlock
      split
      · rename_i hforwarded
        exact absurd hforwarded hne
      · exact reacts_of_ne (s := (checkPayerDeadline { s with blockNumber := number }).1) old?
          (checkPayerDeadline_ne hne) (checkPayerDeadline_quiet _)
      · exact hsame _ _ rfl rfl
    · rename_i hforwarded
      exact absurd hforwarded hne
    · rename_i hforwarded
      exact absurd hforwarded hne
    · exact hsame _ _ rfl rfl
    · rename_i hforwarded
      exact absurd hforwarded hne
    · unfold onProof
      split
      · exact hsame _ _ rfl rfl
      · split
        · exact reacts_of_ne (s := { s with status := .completed }) old?
            (fun hforwarded => nomatch hforwarded) rfl
        · exact hsame _ _ rfl rfl
    · unfold onChain
      split
      · split
        · exact hsame _ _ rfl rfl
        · exact hsame _ _ rfl rfl
      · split
        · rename_i hours
          exact absurd hours.2 hne
        · exact hsame _ _ rfl rfl
      · exact hsame _ _ rfl rfl
    · exact hsame _ _ rfl rfl

/-- What a mediator does with its pledge. -/
theorem step_reacts (hengaged : (Transfer.mediator s).Engaged) {i : Input} (hhonest : i.Honest)
    (hclock : ∀ number, i = .block number → s.blockNumber ≤ number)
    (hnow : ∀ number, i = .block number → number ≤ now) :
    Transfer.Reacts (Transfer.mediator s).pledge? now ((s.step i).map .mediator id) := by
  by_cases hforwarded : s.status = .forwardedToNextHop
  · obtain ⟨r, t, h⟩ := hengaged hforwarded
    unfold step
    split
    · exact Transfer.reacts_self hengaged now
    · split
      · exact onBlock_reacts hforwarded h (hclock _ rfl) (hnow _ rfl)
      · unfold onRefusal
        split
        · exact abandonRoute_reacts s _ now
        · exact Transfer.reacts_self hengaged now
      · unfold onDisposal
        split
        · exact abandonRoute_reacts s _ now
        · exact Transfer.reacts_self hengaged now
      · rename_i hwaiting
        cases hforwarded.symm.trans hwaiting
      · exact onSecretReveal_reacts hforwarded h hhonest
      · rename_i hwaiting
        cases hforwarded.symm.trans hwaiting
      · exact onChain_reacts hforwarded h hhonest
      · exact Transfer.reacts_self hengaged now
  · exact step_reacts_of_ne _ hforwarded i

end Step

end Mediator

/-! ### The target -/

namespace Target

variable (s : Target)

theorem claim_quiet (secret : Secret) : (s.claim secret).all Effect.isQuiet = true := by
  unfold claim
  split
  · rfl
  · rfl

theorem checkUnlockDeadline_quiet : s.checkUnlockDeadline.2.all Effect.isQuiet = true := by
  unfold checkUnlockDeadline
  split
  · split
    · exact claim_quiet s _
    · rfl
  · rfl

theorem learnSecret_quiet (secret : Secret) :
    (s.learnSecret secret).2.all Effect.isQuiet = true := by
  rw [learnSecret_snd]
  exact checkUnlockDeadline_quiet _

theorem expire_quiet : s.expire.2.all Effect.isQuiet = true := by
  unfold expire
  split
  · rfl
  · rfl

/-- A target has no locks of its own. -/
theorem step_quiet (i : Input) : (s.step i).2.all Effect.isQuiet = true := by
  unfold step
  split
  · rfl
  · split
    · unfold onBlock
      split
      · exact expire_quiet _
      · exact expire_quiet _
      · exact checkUnlockDeadline_quiet _
      · rfl
    · unfold onSecretReveal
      split
      · rfl
      · exact learnSecret_quiet s _
    · unfold onProof
      split
      · rfl
      · split
        · rfl
        · rfl
    · unfold onChain
      split
      · split
        · rfl
        · rfl
      · split
        · exact learnSecret_quiet s _
        · rfl
      · rfl
    · rfl

theorem start_quiet (a : StartTarget) (block : Height) :
    (start a block).2.all Effect.isQuiet = true := by
  unfold start
  dsimp only
  split
  · rfl
  · rfl

theorem start_blockNumber (a : StartTarget) (block : Height) :
    (start a block).1.blockNumber = block := by
  unfold start
  dsimp only
  split
  · rfl
  · rfl

end Target

/-! ### Any transfer -/

namespace Transfer

section Reacts

variable {t : Transfer} {now : Height}

/-- What any fact makes of the pledge of a transfer. -/
theorem step_reacts (hengaged : t.Engaged) {i : Input} (hhonest : i.Honest)
    (hclock : ∀ number, i = .block number → t.blockNumber ≤ number ∧ number ≤ now) :
    Reacts t.pledge? now (t.step i) := by
  cases t with
  | initiator s =>
      exact Initiator.step_reacts hengaged hhonest (fun number heq => (hclock number heq).2)
  | mediator s =>
      exact Mediator.step_reacts hengaged hhonest (fun number heq => (hclock number heq).1)
        (fun number heq => (hclock number heq).2)
  | target s => exact ⟨.keeps (Or.inl rfl) (s.step_quiet i), trivial⟩

/-- A refusal leaves a transfer engaged. -/
theorem Engaged.refused (h : t.Engaged) (refusal : RouteRefusal) :
    (t.step (.routeRefused refusal)).1.Engaged := by
  have hreacts : Reacts t.pledge? t.blockNumber (t.step (.routeRefused refusal)) :=
    step_reacts h trivial (fun number heq => nomatch heq)
  exact hreacts.engaged

/-- The clock of a transfer is never ahead. -/
theorem step_blockNumber_le (h : t.blockNumber ≤ now) {i : Input}
    (hclock : ∀ number, i = .block number → number ≤ now) : (t.step i).1.blockNumber ≤ now := by
  by_cases hterminal : t.isTerminal = true
  · rw [step_of_isTerminal hterminal]
    exact h
  · rw [step_blockNumber hterminal]
    cases i with
    | block number => exact hclock number rfl
    | _ => exact h

/-- What a transfer in progress stands for has not expired, if the transfer is current. -/
theorem lt_of_pledge? (hengaged : t.Engaged) (hcurrent : t.Current now) {p : Pledge}
    (hp : t.pledge? = some p) : now < p.lock.expiration := by
  have hprogress : ¬ t.isTerminal = true := by
    intro hterminal
    cases (pledge?_of_isTerminal hterminal).symm.trans hp
  cases t with
  | initiator s =>
      obtain ⟨r, hroute⟩ := hengaged hprogress
      rw [Initiator.pledge?_eq hprogress hroute] at hp
      cases hp
      exact hcurrent.onTime hprogress
  | mediator s =>
      by_cases hforwarded : s.status = .forwardedToNextHop
      · obtain ⟨r, terms, h⟩ := hengaged hforwarded
        -- The clock of a transfer in progress is that of the node.
        rcases Bool.eq_false_or_eq_true s.downstreamLockRemoved with hremoved | hremoved
        · cases (Mediator.pledge?_of_removed hremoved).symm.trans hp
        · rw [h.pledge?_eq hforwarded hremoved] at hp
          cases hp
          have hclock : s.blockNumber = now := hcurrent.clock hprogress
          exact hclock ▸ h.removed_iff.mp hremoved
      · cases (Mediator.pledge?_of_ne hforwarded).symm.trans hp
  | target s => cases hp

/-- A payment begins with a search. -/
theorem initiator_start_reacts (a : StartInitiator) (block now : Height) :
    Reacts none now ((Initiator.start a block).map .initiator id) := by
  unfold Initiator.start
  dsimp only
  split
  · exact ⟨.seeks (.gaveUp rfl rfl), fun h => absurd rfl h⟩
  · split
    · exact ⟨.seeks (.gaveUp rfl rfl), fun h => absurd rfl h⟩
    · exact ⟨.seeks (Initiator.tryNextRoute_seeks _), Initiator.tryNextRoute_engaged _⟩

/-- So does a transfer that is passed on. -/
theorem mediator_start_reacts (a : StartMediator) (block now : Height) :
    Reacts none now ((Mediator.start a block).map .mediator id) :=
  ⟨.seeks (Mediator.tryNextRoute_seeks _), Mediator.tryNextRoute_engaged _⟩

/-- A transfer that is received has nothing to do with locks of ours. -/
theorem target_start_reacts (a : StartTarget) (block now : Height) :
    Reacts none now ((Target.start a block).map .target id) :=
  ⟨.keeps (Or.inl rfl) (Target.start_quiet a block), trivial⟩

end Reacts

end Transfer

end PaymentNetwork

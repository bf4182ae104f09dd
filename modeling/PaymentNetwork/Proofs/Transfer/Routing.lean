import PaymentNetwork.Proofs.Transfer.Forwarding
import PaymentNetwork.Proofs.Transfer.Payment
import PaymentNetwork.Proofs.Transfer.Pledge

/-!
# The Order of the Routes

Which routes a payment tries, in which order, and why it goes on to the next.

The routes of a payment are in one of four places: available, ignored, canceled, or in
use. An initiator and a mediator move them about in the same way. A search for a route
passes over the available ones that do not suit, takes the first that does, and puts the
one that failed with the canceled. Nothing else moves a route. So no route is lost or
tried twice, and what was tried so far, followed by what is available, is a part of the
sorted candidates in their order. This one fact gives the order of the locks that were
sent: larger balances first, and the candidates' own order where balances are equal.

A search needs a reason. The lock that was sent last was refused by its channel, or its
receiver gave up exactly that lock. And the secret must not be out: whatever shows or
uses it ends the searching for good, or a payment could be made twice.

What the two machines have in common is a `Router`, and everything about runs is proved of
routers.

## Main definitions

* `Route.Precedes`: One candidate is tried before another.
* `Routes.channels`: The channels in all four places.
* `Routes.Advances`: What a search does to the routes.
* `Effect.pledges`: The locks that are sent among some effects.
* `Input.Rejects`: The fact refuses a lock, or gives it up.
* `Router`, `Router.Lawful`: A machine that tries routes.
* `Router.Law`, `RoutingLaw`: What becomes of the routes in a run.

## Theorems

* `Routes.ofCandidates_ordered`: The candidates are sorted, and stably so.
* `Routes.popBest_advances`, `Routes.Advances.channels_perm`: A search loses no route.
* `Router.Lawful.run`: The law for a machine that tries routes.
* `Initiator.router_lawful`, `Mediator.router_lawful`: The two such machines.
* `run_routingLaw`: The law for both.
-/

namespace PaymentNetwork

/-! ### The four places of a route -/

namespace Route

/-- Where the route leads, and through which channel. -/
def place (r : Route) : Address × ChannelId := (r.node, r.channelId)

/-- The first route is tried before the second: it has more balance, or as much and an
    earlier place among the candidates. -/
def Precedes (candidates : List Route) (r r' : Route) : Prop :=
  r'.availableBalance < r.availableBalance ∨
    r'.availableBalance = r.availableBalance ∧ [r, r'].Sublist candidates

end Route

namespace Routes

/-- The candidates are tried in the order of their balances, and those of equal balance in
    their own order. -/
theorem ofCandidates_ordered (candidates : List Route) :
    (ofCandidates candidates).available.Pairwise (Route.Precedes candidates) := by
  have hbalances : (ofCandidates candidates).available.Pairwise fun a b =>
      decide (b.availableBalance ≤ a.availableBalance) = true := by
    refine pairwise_sortBy (fun a b c hab hbc => ?_) (fun a b => ?_) candidates
    · exact decide_eq_true (Nat.le_trans (of_decide_eq_true hbc) (of_decide_eq_true hab))
    · rw [decide_eq_true_eq, decide_eq_true_eq]
      exact Nat.le_total _ _
  refine List.pairwise_iff_forall_sublist.mpr (fun {r r'} hpair => ?_)
  have hle : r'.availableBalance ≤ r.availableBalance :=
    of_decide_eq_true (List.pairwise_iff_forall_sublist.mp hbalances hpair)
  rcases Nat.lt_or_eq_of_le hle with hlt | heq
  · exact Or.inl hlt
  · -- The sort keeps what the candidates have of one balance.
    have heq : r'.availableBalance = r.availableBalance := Word.ext heq
    have hkept : (ofCandidates candidates).available.filter
          (fun c => c.availableBalance = r.availableBalance)
        = candidates.filter (fun c => c.availableBalance = r.availableBalance) := by
      refine filter_sortBy (fun a b ha hb => decide_eq_true ?_) candidates
      rw [of_decide_eq_true ha, of_decide_eq_true hb]
      exact Nat.le_refl _
    have hboth : [r, r'].filter (fun c => c.availableBalance = r.availableBalance) = [r, r'] := by
      simp [heq]
    have hsub := hpair.filter (fun c => c.availableBalance = r.availableBalance)
    rw [hkept, hboth] at hsub
    exact Or.inr ⟨heq, hsub.trans List.filter_sublist⟩

/-- The channels of the routes in all places, the one in use included. -/
def channels (rs : Routes) (current? : Option Route) : List ChannelId :=
  (rs.available ++ rs.ignored ++ rs.canceled ++ current?.toList).map Route.channelId

/-- Put the route that failed away. -/
def putAway (rs : Routes) (failed? : Option Route) : Routes :=
  { rs with canceled := rs.canceled ++ failed?.toList }

theorem putAway_none (rs : Routes) : rs.putAway none = rs := by
  rw [putAway, Option.toList_none, List.append_nil]

/-- A search puts the route that failed away, passes over some of the available ones, and
    takes the next, if there is one. -/
def Advances (rs : Routes) (failed? next? : Option Route) (rs' : Routes) : Prop :=
  ∃ skipped, rs.available = skipped ++ (next?.toList ++ rs'.available) ∧
    rs'.ignored = rs.ignored ++ skipped ∧ rs'.canceled = rs.canceled ++ failed?.toList

theorem popBest_advances (rs : Routes) (failed? : Option Route) (usable : Route → Bool) :
    rs.Advances failed? ((rs.putAway failed?).popBest usable).1
      ((rs.putAway failed?).popBest usable).2 := by
  refine ⟨rs.available.takeWhile (fun r => !usable r), ?_, rfl, rfl⟩
  have hsplit := List.takeWhile_append_dropWhile (l := rs.available) (p := fun r => !usable r)
  simp only [popBest, putAway]
  cases hrest : rs.available.dropWhile (fun r => !usable r) with
  | nil =>
      rw [hrest] at hsplit
      exact hsplit.symm
  | cons r rest =>
      rw [hrest] at hsplit
      exact hsplit.symm

/-- No search loses a route. -/
theorem Advances.channels_perm {rs rs' : Routes} {failed? next? : Option Route}
    (h : rs.Advances failed? next? rs') : (rs'.channels next?).Perm (rs.channels failed?) := by
  rcases h with ⟨skipped, havailable, hignored, hcanceled⟩
  refine List.Perm.map _ (List.perm_iff_count.mpr (fun r => ?_))
  rw [havailable, hignored, hcanceled]
  simp only [List.count_append]
  omega

end Routes

/-! ### Locks that are sent and given up -/

/-- To whom the lock goes, and through which channel. -/
def Pledge.place (p : Pledge) : Address × ChannelId := (p.recipient, p.channelId)

namespace Effect

/-- The lock that the effect sends, if it sends one. -/
def pledge? : Effect → Option Pledge
  | sendLockedTransfer recipient channelId terms => some ⟨recipient, channelId, terms.lock⟩
  | _ => none

/-- The locks that are sent among some effects. -/
def pledges (es : List Effect) : List Pledge := es.filterMap pledge?

theorem pledges_append (es fs : List Effect) : pledges (es ++ fs) = pledges es ++ pledges fs :=
  List.filterMap_append

theorem pledges_of_no_lock {es : List Effect} (h : es.any isLockedTransfer = false) :
    pledges es = [] := by
  refine List.filterMap_eq_nil_iff.mpr (fun e he => ?_)
  have hno := List.any_eq_false.mp h e he
  cases e with
  | sendLockedTransfer => exact absurd rfl hno
  | _ => rfl

end Effect

/-- The channel of the lock refused to carry it, or its receiver gave up exactly this
    lock. -/
def Input.Rejects (p : Pledge) : Input → Prop
  | .routeRefused refusal => refusal.channelId = p.channelId
  | .lockDisposed d => d.sender = p.recipient ∧ d.channelId = p.channelId ∧ d.lock = p.lock
  | _ => False

/-! ### Machines that try routes -/

/-- A machine that tries routes, one at a time. -/
structure Router (σ : Type) where
  step : σ → Input → σ × List Effect
  routes : σ → Routes
  /-- The route that the lock goes over. -/
  current? : σ → Option Route
  /-- The lock that goes over it. -/
  lock? : σ → Option Lock
  /-- May another route be tried if this one fails? -/
  searches : σ → Bool

namespace Router

variable {σ : Type} (R : Router σ)

/-- The fact rejects the lock on the current route. -/
def Fails (s : σ) (i : Input) : Prop :=
  ∃ r, R.current? s = some r ∧
    ∀ lock, R.lock? s = some lock → i.Rejects ⟨r.node, r.channelId, lock⟩

/-- What comes of a search: the current route is put away, and a lock is sent over the next
    one, if there is one. -/
structure Tries (s : σ) (r : σ × List Effect) : Prop where
  advances : (R.routes s).Advances (R.current? s) (R.current? r.1) (R.routes r.1)
  sends : ∀ next, R.current? r.1 = some next → ∃ lock, R.lock? r.1 = some lock ∧
    Effect.pledges r.2 = [⟨next.node, next.channelId, lock⟩]
  givesUp : R.current? r.1 = none → Effect.pledges r.2 = []
  quiet : ∀ e ∈ r.2, e.needsSecret = false

/-- What comes of any other fact: the routes stay where they are, and no lock is sent. -/
structure Keeps (s : σ) (r : σ × List Effect) : Prop where
  routes : R.routes r.1 = R.routes s
  place : (R.current? r.1).map Route.place = (R.current? s).map Route.place
  lock? : R.lock? r.1 = R.lock? s
  pledges : Effect.pledges r.2 = []

/-- The machine searches when the current route fails and at no other fact. It does not
    search any more when the secret is used. -/
structure Lawful : Prop where
  step_cases : ∀ s i, (R.searches s = true ∧ R.Fails s i ∧ R.Tries s (R.step s i)) ∨
    R.Keeps s (R.step s i)
  searches_of_step : ∀ s i, R.searches (R.step s i).1 = true →
    R.searches s = true ∧ ∀ e ∈ (R.step s i).2, e.needsSecret = false

/-- What is known after a run that began with some candidates, from everything that was
    asked for on the way. -/
structure Traced (candidates : List Route) (s : σ) (es : List Effect) : Prop where
  channels : ((R.routes s).channels (R.current? s)).Perm (candidates.map Route.channelId)
  /-- What was tried and what is available is a part of the sorted candidates. -/
  order : ∃ used : List Route, (Effect.pledges es).map Pledge.place = used.map Route.place ∧
    (used ++ (R.routes s).available).Sublist (Routes.ofCandidates candidates).available
  /-- The lock on the current route is the one that was sent last. -/
  current : ∀ r, R.current? s = some r → ∃ p, (Effect.pledges es).getLast? = some p ∧
    p.place = r.place ∧ R.lock? s = some p.lock

/-- The machine after some facts. -/
def stateAfter (start : σ × List Effect) (inputs : List Input) : σ :=
  Machine.run R.step start.1 inputs

/-- Everything that was asked for, from the start on. -/
def effectsOf (start : σ × List Effect) (inputs : List Input) : List Effect :=
  start.2 ++ Machine.effects R.step start.1 inputs

/-- What becomes of some candidates, whatever facts reach the machine and in whatever
    order. -/
structure Law (candidates : List Route) (start : σ × List Effect) : Prop where
  /-- The routes in all places are the candidates, each once. -/
  channels : ∀ inputs, let s := R.stateAfter start inputs
    ((R.routes s).channels (R.current? s)).Perm (candidates.map Route.channelId) ∧
    ((R.routes s).channels (R.current? s)).Nodup
  /-- The locks go over candidates with different channels, in the order of the
      candidates. -/
  order : ∀ inputs, ∃ used : List Route,
    (Effect.pledges (R.effectsOf start inputs)).map Pledge.place = used.map Route.place ∧
    used ⊆ candidates ∧ (used.map Route.channelId).Nodup ∧
    used.Pairwise (Route.Precedes candidates)
  /-- The start sends one lock at most. -/
  start_once : (Effect.pledges start.2).length ≤ 1
  /-- A later transition sends one at most, and only if the fact rejects the lock that was
      sent last, which is the one on the current route. -/
  rejected : ∀ before i, Effect.pledges (R.step (R.stateAfter start before) i).2 ≠ [] →
    (Effect.pledges (R.step (R.stateAfter start before) i).2).length = 1 ∧
    ∃ r p, R.current? (R.stateAfter start before) = some r ∧
      R.lock? (R.stateAfter start before) = some p.lock ∧ p.place = r.place ∧
      (Effect.pledges (R.effectsOf start before)).getLast? = some p ∧ i.Rejects p
  /-- The transition that first uses the secret sends no lock, and none is sent after it. -/
  secret : ∀ before i after,
    (∃ e ∈ (R.step (R.stateAfter start before) i).2, e.needsSecret = true) →
    Effect.pledges (Machine.effects R.step (R.stateAfter start before) (i :: after)) = []

section Traced

variable {R} {candidates : List Route} {s : σ} {es : List Effect}

/-- A machine that did nothing yet has all its candidates available. -/
theorem traced_initial (hroutes : R.routes s = Routes.ofCandidates candidates)
    (hcurrent : R.current? s = none) (hsent : Effect.pledges es = []) :
    R.Traced candidates s es := by
  refine ⟨?_, ⟨[], ?_, ?_⟩, fun r hr => ?_⟩
  · rw [hroutes, hcurrent, Routes.channels, Option.toList_none]
    simp only [Routes.ofCandidates, List.append_nil]
    exact (sortBy_perm _ candidates).map _
  · rw [hsent]
    rfl
  · rw [hroutes]
    exact List.Sublist.refl _
  · rw [hcurrent] at hr
    cases hr

theorem Traced.keeps (h : R.Traced candidates s es) {r : σ × List Effect} (hkeeps : R.Keeps s r) :
    R.Traced candidates r.1 (es ++ r.2) := by
  have hchannel : (R.current? r.1).map Route.channelId = (R.current? s).map Route.channelId := by
    have hplace := congrArg (Option.map Prod.snd) hkeeps.place
    rwa [Option.map_map, Option.map_map] at hplace
  refine ⟨?_, ?_, fun next hnext => ?_⟩
  · have hperm := h.channels
    rw [Routes.channels, List.map_append, ← Option.toList_map] at hperm ⊢
    rwa [hkeeps.routes, hchannel]
  · rw [Effect.pledges_append, hkeeps.pledges, List.append_nil, hkeeps.routes]
    exact h.order
  · -- The route may have been closed in the meantime, and is still the same channel.
    rw [Effect.pledges_append, hkeeps.pledges, List.append_nil, hkeeps.lock?]
    have hplace := hkeeps.place
    rw [hnext] at hplace
    obtain ⟨old, hold, heq⟩ := Option.map_eq_some_iff.mp hplace.symm
    obtain ⟨p, hlast, hp, hlock⟩ := h.current old hold
    exact ⟨p, hlast, hp.trans heq, hlock⟩

theorem Traced.tries (h : R.Traced candidates s es) {r : σ × List Effect} (htries : R.Tries s r) :
    R.Traced candidates r.1 (es ++ r.2) := by
  obtain ⟨used, hused, hsorted⟩ := h.order
  obtain ⟨skipped, havailable, -, -⟩ := htries.advances
  refine ⟨htries.advances.channels_perm.trans h.channels,
    ⟨used ++ (R.current? r.1).toList, ?_, ?_⟩, fun next hnext => ?_⟩
  · rw [Effect.pledges_append, List.map_append, List.map_append, hused]
    cases hcurrent : R.current? r.1 with
    | none =>
        rw [htries.givesUp hcurrent]
        rfl
    | some next =>
        obtain ⟨lock, -, hsends⟩ := htries.sends next hcurrent
        rw [hsends]
        rfl
  · rw [havailable] at hsorted
    refine List.Sublist.trans ?_ hsorted
    rw [List.append_assoc]
    exact (List.Sublist.refl used).append (List.sublist_append_right skipped _)
  · obtain ⟨lock, hlock, hsends⟩ := htries.sends next hnext
    rw [Effect.pledges_append, hsends]
    exact ⟨_, List.getLast?_concat, rfl, hlock⟩

/-- A machine whose first search was made with all candidates available. -/
theorem traced_tryNext (h : R.Traced candidates s []) {r : σ × List Effect}
    (htries : R.Tries s r) :
    R.Traced candidates r.1 r.2 ∧ (Effect.pledges r.2).length ≤ 1 := by
  refine ⟨h.tries htries, ?_⟩
  cases hcurrent : R.current? r.1 with
  | none =>
      rw [htries.givesUp hcurrent]
      exact Nat.zero_le 1
  | some next =>
      obtain ⟨lock, -, hsends⟩ := htries.sends next hcurrent
      rw [hsends]
      exact Nat.le_refl 1

end Traced

namespace Lawful

variable {R} (hR : R.Lawful) {candidates : List Route} {s : σ} {es : List Effect}

include hR

theorem traced_run (h : R.Traced candidates s es) (inputs : List Input) :
    R.Traced candidates (Machine.run R.step s inputs) (es ++ Machine.effects R.step s inputs) := by
  induction inputs generalizing s es with
  | nil =>
      rw [Machine.effects_nil, List.append_nil]
      exact h
  | cons i rest ih =>
      rw [Machine.run_cons, Machine.effects_cons, ← List.append_assoc]
      rcases hR.step_cases s i with ⟨-, -, htries⟩ | hkeeps
      · exact ih (h.tries htries)
      · exact ih (h.keeps hkeeps)

/-- A machine that does not search sends no lock any more. -/
theorem pledges_effects_of_not_searches (h : R.searches s = false) (inputs : List Input) :
    Effect.pledges (Machine.effects R.step s inputs) = [] := by
  induction inputs generalizing s with
  | nil => rfl
  | cons i rest ih =>
      have hnext : R.searches (R.step s i).1 = false := by
        refine Bool.eq_false_iff.mpr (fun hsearches => ?_)
        rw [(hR.searches_of_step s i hsearches).1] at h
        cases h
      rcases hR.step_cases s i with ⟨hsearches, -, -⟩ | hkeeps
      · rw [h] at hsearches
        cases hsearches
      · rw [Machine.effects_cons, Effect.pledges_append, hkeeps.pledges, ih hnext]
        rfl

/-- A machine that is traced from its start keeps to the law. -/
theorem run {start : σ × List Effect} (hdistinct : (candidates.map Route.channelId).Nodup)
    (hstart : R.Traced candidates start.1 start.2)
    (honce : (Effect.pledges start.2).length ≤ 1) : R.Law candidates start where
  channels inputs := by
    have hperm := (hR.traced_run hstart inputs).channels
    exact ⟨hperm, hperm.nodup_iff.mpr hdistinct⟩
  order inputs := by
    obtain ⟨used, hused, hsorted⟩ := (hR.traced_run hstart inputs).order
    have hsub := (List.sublist_append_left used _).trans hsorted
    have hperm : (Routes.ofCandidates candidates).available.Perm candidates :=
      sortBy_perm _ candidates
    refine ⟨used, hused, List.Subset.trans hsub.subset hperm.subset, ?_, ?_⟩
    · exact ((hperm.map Route.channelId).nodup_iff.mpr hdistinct).sublist (hsub.map _)
    · exact (Routes.ofCandidates_ordered candidates).sublist hsub
  start_once := honce
  rejected before i hsends := by
    -- Something is sent, so the step gives up the route that is tried, and that one has the lock
    -- that was sent last.
    have htraced := hR.traced_run hstart before
    rcases hR.step_cases (R.stateAfter start before) i with ⟨-, ⟨r, hr, hrejects⟩, htries⟩ | hkeeps
    · refine ⟨?_, ?_⟩
      · cases hnext : R.current? (R.step (R.stateAfter start before) i).1 with
        | none => exact absurd (htries.givesUp hnext) hsends
        | some next =>
            obtain ⟨lock, -, hone⟩ := htries.sends next hnext
            rw [hone]
            rfl
      · obtain ⟨p, hlast, hplace, hlock⟩ := htraced.current r hr
        have hsame : Pledge.mk r.node r.channelId p.lock = p := by
          have hnode : p.recipient = r.node := congrArg Prod.fst hplace
          have hchannel : p.channelId = r.channelId := congrArg Prod.snd hplace
          rw [← hnode, ← hchannel]
        exact ⟨r, p, hr, hlock, hplace, hlast, hsame ▸ hrejects p.lock hlock⟩
    · exact absurd hkeeps.pledges hsends
  secret before i after := by
    rintro ⟨e, he, hneeds⟩
    -- A step with the secret in it ends the search, and no step begins one again.
    have hdone : R.searches (R.step (R.stateAfter start before) i).1 = false := by
      refine Bool.eq_false_iff.mpr (fun hsearches => ?_)
      rw [(hR.searches_of_step _ i hsearches).2 e he] at hneeds
      cases hneeds
    rw [Machine.effects_cons, Effect.pledges_append,
      hR.pledges_effects_of_not_searches hdone, List.append_nil]
    rcases hR.step_cases (R.stateAfter start before) i with ⟨-, -, htries⟩ | hkeeps
    · rw [htries.quiet e he] at hneeds
      cases hneeds
    · exact hkeeps.pledges

end Lawful

end Router

/-! ### The initiator -/

namespace Initiator

/-- The current route failed: its channel refused the lock, or the next hop gave the lock
    up. The secret was not released. -/
def Reroutes (s : Initiator) : Input → Prop
  | .routeRefused refusal => s.status = .waitingSecretRequest ∧
      refusal.secretHash = s.terms.secretHash ∧ s.goesOver refusal.channelId = true
  | .lockDisposed d => s.status = .waitingSecretRequest ∧
      s.goesTo d.sender d.channelId = true ∧ d.lock = s.terms.lock
  | _ => False

/-- What comes of a fact that does not fail the current route. -/
structure KeepsRoute (s : Initiator) (r : Initiator × List Effect) : Prop where
  routes : r.1.routes = s.routes
  route? : r.1.route? = s.route?
  terms : r.1.terms = s.terms
  sendsNoLock : r.2.any Effect.isLockedTransfer = false

section Routing

variable {s : Initiator} {i : Input}

theorem goesOver_iff {id : ChannelId} :
    s.goesOver id = true ↔ ∃ r, s.route? = some r ∧ r.channelId = id := by
  unfold goesOver
  split
  · rename_i r hr
    rw [hr, decide_eq_true_iff]
    simp
  · rename_i hnone
    rw [hnone]
    simp

theorem goesTo_iff {node : Address} {id : ChannelId} :
    s.goesTo node id = true ↔ ∃ r, s.route? = some r ∧ r.node = node ∧ r.channelId = id := by
  unfold goesTo
  split
  · rename_i r hr
    rw [hr, Bool.and_eq_true, decide_eq_true_iff, decide_eq_true_iff]
    simp
  · rename_i hnone
    rw [hnone]
    simp

/-- A fact after which the current route failed makes the initiator try another. -/
theorem step_of_reroutes (hfails : s.Reroutes i) : s.step i = s.abandonRoute := by
  cases i with
  | routeRefused refusal =>
      obtain ⟨hstatus, hhash, hover⟩ := hfails
      rw [step_routeRefused, if_pos hstatus, onRefusal, if_pos ⟨hhash, hover⟩]
  | lockDisposed d =>
      obtain ⟨hstatus, hto, hlock⟩ := hfails
      have hstep : s.step (.lockDisposed d) = s.onDisposal d := by
        unfold step
        rw [hstatus]
        rfl
      have hours : ¬ (d.lock.secretHash ≠ s.terms.secretHash
          ∨ (!s.goesTo d.sender d.channelId) = true) := by
        rw [hto, hlock]
        rintro (hne | hnot)
        · exact hne rfl
        · cases hnot
      rw [hstep, onDisposal, if_neg hours, if_neg (not_not_intro hlock)]
  | _ => cases hfails

variable (s)

theorem keepsRoute_self : s.KeepsRoute (s, []) := ⟨rfl, rfl, rfl, rfl⟩

theorem keepsRoute_warning (info : String) : s.KeepsRoute (s, [warning info]) :=
  ⟨rfl, rfl, rfl, rfl⟩

theorem onSecretRequest_keepsRoute (r : SecretRequested) :
    s.KeepsRoute (s.onSecretRequest r) := by
  unfold onSecretRequest
  dsimp only
  split
  · split
    · exact ⟨rfl, rfl, rfl, rfl⟩
    · exact s.keepsRoute_warning _
  · exact s.keepsRoute_warning _

theorem onSecretReveal_keepsRoute (r : SecretRevealed) : s.KeepsRoute (s.onSecretReveal r) := by
  unfold onSecretReveal
  split
  · split
    · exact s.keepsRoute_self
    · split
      · exact s.keepsRoute_warning _
      · exact ⟨rfl, rfl, rfl, rfl⟩
  · exact s.keepsRoute_self

theorem registerSecret_keepsRoute : s.KeepsRoute s.registerSecret := by
  unfold registerSecret
  split
  · split
    · exact ⟨rfl, rfl, rfl, rfl⟩
    · exact s.keepsRoute_self
  · exact s.keepsRoute_self

theorem expire_keepsRoute : s.KeepsRoute s.expire := by
  have hremoval : s.removal.any Effect.isLockedTransfer = false := by
    unfold removal
    split
    · split
      · rfl
      · rfl
    · rfl
  unfold expire
  split
  · refine ⟨rfl, rfl, rfl, ?_⟩
    rw [List.any_append, hremoval]
    rfl
  · exact s.keepsRoute_self

theorem onBlock_keepsRoute (number : Height) : s.KeepsRoute (s.onBlock number) := by
  have hregistered := registerSecret_keepsRoute { s with blockNumber := number }
  have hexpired := expire_keepsRoute ({ s with blockNumber := number }).registerSecret.1
  refine ⟨hexpired.routes.trans hregistered.routes, hexpired.route?.trans hregistered.route?,
    hexpired.terms.trans hregistered.terms, ?_⟩
  unfold onBlock
  rw [List.any_append, hregistered.sendsNoLock, hexpired.sendsNoLock]
  rfl

theorem onChain_keepsRoute (e : ChainEvent) : s.KeepsRoute (s.onChain e) := by
  unfold onChain
  split
  · split
    · exact ⟨rfl, rfl, rfl, rfl⟩
    · exact s.keepsRoute_self
  · split
    · exact ⟨rfl, rfl, rfl, rfl⟩
    · exact s.keepsRoute_self
  · exact s.keepsRoute_self

variable {s}

/-- A fact that does not fail the current route leaves the routes alone. -/
theorem step_keepsRoute (h : ¬ s.Reroutes i) : s.KeepsRoute (s.step i) := by
  unfold step
  split
  · exact s.keepsRoute_self
  · split
    · exact s.onBlock_keepsRoute _
    · rename_i refusal hstatus
      rw [onRefusal, if_neg (fun hfails => h ⟨hstatus, hfails⟩)]
      exact s.keepsRoute_self
    · exact s.onSecretRequest_keepsRoute _
    · rename_i d hstatus
      unfold onDisposal
      split
      · exact s.keepsRoute_self
      · rename_i hours
        split
        · exact s.keepsRoute_warning _
        · rename_i hlock
          -- A disposal of the lock by the next hop fails the route.
          rw [not_or, Bool.not_eq_true', Bool.not_eq_false] at hours
          exact absurd ⟨hstatus, hours.2, Decidable.not_not.mp hlock⟩ h
    · exact s.keepsRoute_warning _
    · exact s.onSecretReveal_keepsRoute _
    · exact s.onChain_keepsRoute _
    · exact s.keepsRoute_self

end Routing

/-- The initiator as a machine that tries routes. -/
def router : Router Initiator where
  step := step
  routes := Initiator.routes
  current? := Initiator.route?
  lock? s := some s.terms.lock
  searches s := decide (s.status = .waitingSecretRequest)

section Router

variable {s s₀ : Initiator}

/-- Trying the next route, when the current one was put away. -/
theorem tryNextRoute_tries (hroutes : s₀.routes = s.routes.putAway s.route?) :
    router.Tries s s₀.tryNextRoute := by
  have hadvances := s.routes.popBest_advances s.route? s₀.usable
  rw [← hroutes] at hadvances
  unfold tryNextRoute
  split
  · rename_i r routes heq
    rw [heq] at hadvances
    refine ⟨hadvances, fun next hnext => ⟨_, rfl, ?_⟩, fun hnone => ?_, ?_⟩
    · cases hnext
      rfl
    · cases hnone
    · simp [Effect.needsSecret]
  · rename_i routes heq
    rw [heq] at hadvances
    refine ⟨hadvances, fun next hnext => ?_, fun _ => rfl, ?_⟩
    · cases hnext
    · simp [failed, Effect.needsSecret]

theorem abandonRoute_tries (s : Initiator) : router.Tries s s.abandonRoute := by
  unfold abandonRoute
  split
  · rename_i r hr
    exact tryNextRoute_tries (by rw [hr]; rfl)
  · rename_i hnone
    exact tryNextRoute_tries (by rw [hnone, Routes.putAway_none])

theorem fails_of_reroutes {i : Input} (hfails : s.Reroutes i) :
    router.searches s = true ∧ router.Fails s i := by
  cases i with
  | routeRefused refusal =>
      obtain ⟨hstatus, -, hover⟩ := hfails
      obtain ⟨r, hr, hid⟩ := goesOver_iff.mp hover
      exact ⟨decide_eq_true hstatus, r, hr, fun _ _ => hid.symm⟩
  | lockDisposed d =>
      obtain ⟨hstatus, hto, hlock⟩ := hfails
      obtain ⟨r, hr, hnode, hid⟩ := goesTo_iff.mp hto
      refine ⟨decide_eq_true hstatus, r, hr, fun lock hsome => ⟨hnode.symm, hid.symm, ?_⟩⟩
      exact hlock.trans (Option.some.inj hsome)
  | _ => cases hfails

theorem router_lawful : router.Lawful where
  step_cases s i := by
    by_cases hfails : s.Reroutes i
    · have htries := abandonRoute_tries s
      rw [← step_of_reroutes hfails] at htries
      exact Or.inl ⟨(fails_of_reroutes hfails).1, (fails_of_reroutes hfails).2, htries⟩
    · have hkeeps := step_keepsRoute hfails
      exact Or.inr ⟨hkeeps.routes, congrArg _ hkeeps.route?,
        congrArg (fun t => some (TransferTerms.lock t)) hkeeps.terms,
        Effect.pledges_of_no_lock hkeeps.sendsNoLock⟩
  searches_of_step s i hsearches := by
    have hsearches : (s.step i).1.status = .waitingSecretRequest := of_decide_eq_true hsearches
    have hmoves := s.step_moves i
    change decide (s.status = .waitingSecretRequest) = true ∧ ∀ e ∈ (s.step i).2, _
    generalize s.step i = r at hmoves hsearches ⊢
    cases hmoves with
    | keeps hterms hstatus hnotices =>
        refine ⟨decide_eq_true (hstatus.symm.trans hsearches), fun e he => ?_⟩
        rcases hnotices e he with ⟨level, info, rfl⟩
        rfl
    | @searches s₀ hstatus hterms =>
        have htries : router.Tries { s₀ with route? := none } s₀.tryNextRoute :=
          tryNextRoute_tries (by rw [Routes.putAway_none])
        exact ⟨decide_eq_true hstatus, htries.quiet⟩
    | registers hstatus => cases hstatus.symm.trans hsearches
    | _ => cases hsearches

/-- A payment begins with all candidates available, and tries the first if its terms are
    in order. -/
theorem start_traced (a : StartInitiator) (block : Height) :
    router.Traced a.candidates (start a block).1 (start a block).2 ∧
      (Effect.pledges (start a block).2).length ≤ 1 := by
  unfold start
  dsimp only
  split
  · exact ⟨Router.traced_initial rfl rfl rfl, Nat.zero_le 1⟩
  · split
    · exact ⟨Router.traced_initial rfl rfl rfl, Nat.zero_le 1⟩
    · exact Router.traced_tryNext (Router.traced_initial rfl rfl rfl)
        (tryNextRoute_tries (Routes.putAway_none _).symm)

end Router

end Initiator

/-! ### The mediator -/

namespace Mediator

/-- The mediator as a machine that tries routes. -/
def router : Router Mediator where
  step := step
  routes := Mediator.routes
  current? := Mediator.payeeRoute?
  lock? s := s.offered?.map TransferTerms.lock
  searches s := decide (s.status = .forwardedToNextHop)

section Router

variable {s s₀ : Mediator} {i : Input}

theorem goesOver_iff {id : ChannelId} :
    s.goesOver id = true ↔ ∃ r, s.payeeRoute? = some r ∧ r.channelId = id := by
  unfold goesOver
  split
  · rename_i r hr
    rw [hr, decide_eq_true_iff]
    simp
  · rename_i hnone
    rw [hnone]
    simp

theorem isPayee_iff {node : Address} :
    s.isPayee node = true ↔ ∃ r, s.payeeRoute? = some r ∧ r.node = node := by
  unfold isPayee
  split
  · rename_i r hr
    rw [hr, decide_eq_true_iff]
    simp
  · rename_i hnone
    rw [hnone]
    simp

theorem offeredLock_iff {lock : Lock} :
    s.offeredLock lock = true ↔ s.offered?.map TransferTerms.lock = some lock := by
  unfold offeredLock
  split
  · rename_i t ht
    rw [ht, decide_eq_true_iff, Option.map_some, Option.some.injEq]
  · rename_i hnone
    rw [hnone]
    simp

/-- Where the lock goes, and through which channel. -/
def payeePlace? (s : Mediator) : Option (Address × ChannelId) := s.payeeRoute?.map Route.place

section Place

variable (s)

theorem checkPayerDeadline_place : s.checkPayerDeadline.1.payeePlace? = s.payeePlace? := by
  unfold checkPayerDeadline
  split
  · split
    · rfl
    · rfl
  · rfl

theorem learnSecret_place (secret : Secret) :
    (s.learnSecret secret).1.payeePlace? = s.payeePlace? := by
  rw [learnSecret_fst]
  exact checkPayerDeadline_place _

theorem removeDownstream_place : s.removeDownstream.1.payeePlace? = s.payeePlace? := by
  unfold removeDownstream
  split
  · split
    · rfl
    · rfl
  · rfl

theorem expire_place : s.expire.1.payeePlace? = s.payeePlace? := by
  unfold expire
  split
  · rfl
  · rfl

theorem onBlock_place (block : Height) : (s.onBlock block).1.payeePlace? = s.payeePlace? := by
  unfold onBlock
  dsimp only
  split
  · exact (expire_place _).trans (removeDownstream_place _)
  · exact checkPayerDeadline_place _
  · rfl

theorem onSecretReveal_place (r : SecretRevealed) :
    (s.onSecretReveal r).1.payeePlace? = s.payeePlace? := by
  unfold onSecretReveal
  split
  · rfl
  · split
    · rfl
    · exact s.learnSecret_place r.secret

theorem onProof_place (p : ProofReceived) : (s.onProof p).1.payeePlace? = s.payeePlace? := by
  unfold onProof
  split
  · rfl
  · split
    · rfl
    · rfl

theorem onChain_place (e : ChainEvent) : (s.onChain e).1.payeePlace? = s.payeePlace? := by
  unfold onChain
  split
  · rename_i tokenNetwork channelId closer block
    split
    · rfl
    · -- A closed route leads through the same channel to the same node.
      have hplace : ∀ r : Route, (closeRoute r channelId block).place = r.place := by
        intro r
        rw [Route.place, closeRoute_node, closeRoute_channelId, Route.place]
      rw [payeePlace?, payeePlace?, Option.map_map]
      exact congrArg (Option.map · s.payeeRoute?) (funext hplace)
  · split
    · exact s.learnSecret_place _
    · rfl
  · rfl

end Place

/-- A lock that is not given up goes the way it went before. -/
theorem step_place (h : ¬ s.Reroutes i) : (s.step i).1.payeePlace? = s.payeePlace? := by
  unfold step
  split
  · rfl
  · split
    · exact s.onBlock_place _
    · rename_i refusal hstatus
      rw [onRefusal, if_neg (fun hfails => h ⟨hstatus, hfails⟩)]
    · rename_i d hstatus
      rw [onDisposal, if_neg]
      intro hfails
      rw [Bool.and_eq_true, Bool.and_eq_true] at hfails
      exact h ⟨hstatus, hfails.1.1, hfails.1.2, hfails.2⟩
    · rfl
    · exact s.onSecretReveal_place _
    · exact s.onProof_place _
    · exact s.onChain_place _
    · rfl

/-- Trying the next route, when the current one was put away. -/
theorem tryNextRoute_tries (hroutes : s₀.routes = s.routes.putAway s.payeeRoute?) :
    router.Tries s s₀.tryNextRoute := by
  have hadvances := s.routes.popBest_advances s.payeeRoute? s₀.usable
  rw [← hroutes] at hadvances
  unfold tryNextRoute
  split
  · rename_i r routes heq
    rw [heq] at hadvances
    refine ⟨hadvances, fun next hnext => ⟨_, rfl, ?_⟩, fun hnone => ?_, ?_⟩
    · cases hnext
      rfl
    · cases hnone
    · simp [Effect.needsSecret]
  · rename_i routes heq
    rw [heq] at hadvances
    refine ⟨hadvances, fun next hnext => ?_, fun _ => rfl, ?_⟩
    · cases hnext
    · simp [Effect.needsSecret]

theorem abandonRoute_tries (s : Mediator) : router.Tries s s.abandonRoute := by
  unfold abandonRoute
  split
  · rename_i r hr
    exact tryNextRoute_tries (by rw [hr]; rfl)
  · rename_i hnone
    exact tryNextRoute_tries (by rw [hnone, Routes.putAway_none])

theorem fails_of_reroutes (hfails : s.Reroutes i) :
    router.searches s = true ∧ router.Fails s i := by
  cases i with
  | routeRefused refusal =>
      obtain ⟨hstatus, -, hover⟩ := hfails
      obtain ⟨r, hr, hid⟩ := goesOver_iff.mp hover
      exact ⟨decide_eq_true hstatus, r, hr, fun _ _ => hid.symm⟩
  | lockDisposed d =>
      obtain ⟨hstatus, hpayee, hover, hlock⟩ := hfails
      obtain ⟨r, hr, hnode⟩ := isPayee_iff.mp hpayee
      obtain ⟨r', hr', hid⟩ := goesOver_iff.mp hover
      obtain rfl : r = r' := Option.some.inj (hr.symm.trans hr')
      refine ⟨decide_eq_true hstatus, r, hr, fun lock hsome => ⟨hnode.symm, hid.symm, ?_⟩⟩
      exact Option.some.inj ((offeredLock_iff.mp hlock).symm.trans hsome)
  | _ => cases hfails

theorem router_lawful : router.Lawful where
  step_cases s i := by
    by_cases hfails : s.Reroutes i
    · have htries := abandonRoute_tries s
      rw [← step_of_reroutes hfails] at htries
      exact Or.inl ⟨(fails_of_reroutes hfails).1, (fails_of_reroutes hfails).2, htries⟩
    · have hkeeps := step_keepsRoutes hfails
      have hlock := congrArg (Option.map TransferTerms.lock) (step_keepsOffer hfails).offered?
      exact Or.inr ⟨hkeeps.routes, step_place hfails, hlock,
        Effect.pledges_of_no_lock hkeeps.sendsNoLock⟩
  searches_of_step s i hsearches := by
    obtain ⟨hbefore, htold⟩ := forwarded_of_step (of_decide_eq_true hsearches)
    exact ⟨decide_eq_true hbefore, (step_uninformed hbefore htold).quiet⟩

/-- A transfer is taken on with all candidates available, and the first is tried. -/
theorem start_traced (a : StartMediator) (block : Height) :
    router.Traced a.candidates (start a block).1 (start a block).2 ∧
      (Effect.pledges (start a block).2).length ≤ 1 :=
  Router.traced_tryNext (Router.traced_initial rfl rfl rfl)
    (tryNextRoute_tries (Routes.putAway_none _).symm)

end Router

end Mediator

/-! ### The law of routes -/

/-- What becomes of some candidates, in the two machines that try routes. -/
structure RoutingLaw (candidates : List Route) (block : Height) : Prop where
  initiator : ∀ a : StartInitiator, a.candidates = candidates →
    Initiator.router.Law candidates (Initiator.start a block)
  mediator : ∀ a : StartMediator, a.candidates = candidates →
    Mediator.router.Law candidates (Mediator.start a block)
  /-- An initiator that releases the secret sends no lock from then on. -/
  releases : ∀ a : StartInitiator, a.candidates = candidates → ∀ before i after node secret,
    .sendSecretReveal node secret ∈ ((Initiator.stateAfter a block before).step i).2 →
    Effect.pledges
      (Machine.effects Initiator.step (Initiator.stateAfter a block before) (i :: after)) = []
  /-- Neither does a mediator that learns it. -/
  learns : ∀ a : StartMediator, a.candidates = candidates → ∀ before i after secret,
    (Mediator.stateAfter a block before).Learns i secret →
    Effect.pledges
      (Machine.effects Mediator.step (Mediator.stateAfter a block before) (i :: after)) = []

/-- No route is lost, tried twice or tried out of order, and none is tried without need or
    after the secret is out. -/
theorem run_routingLaw {candidates : List Route}
    (hdistinct : (candidates.map Route.channelId).Nodup) (block : Height) :
    RoutingLaw candidates block := by
  have hinitiator : ∀ a : StartInitiator, a.candidates = candidates →
      Initiator.router.Law candidates (Initiator.start a block) := by
    rintro a rfl
    have hstart := Initiator.start_traced a block
    exact Initiator.router_lawful.run hdistinct hstart.1 hstart.2
  have hmediator : ∀ a : StartMediator, a.candidates = candidates →
      Mediator.router.Law candidates (Mediator.start a block) := by
    rintro a rfl
    have hstart := Mediator.start_traced a block
    exact Mediator.router_lawful.run hdistinct hstart.1 hstart.2
  refine ⟨hinitiator, hmediator, fun a ha before i after node secret hreveals => ?_,
    fun a ha before i after secret hlearns => ?_⟩
  · exact (hinitiator a ha).secret before i after ⟨_, hreveals, rfl⟩
  · have hreveals := (Mediator.run_collectionLaw a block).reveals before i secret hlearns
    exact (hmediator a ha).secret before i after ⟨_, hreveals, rfl⟩

/-! ### Three routes -/

namespace ThreeRoutes

/-- A route to a node, through the channel of the same number. -/
def route (n : UInt8) (balance : Amount) : Route :=
  ⟨FixedBytes.replicate 20 n, FixedBytes.replicate 32 n, balance, 5, 20, none⟩

/-- The second and the third have the same balance, and more than the first. -/
def candidates : List Route := [route 1 30, route 2 40, route 3 40]

def secretHash : SecretHash := FixedBytes.replicate 32 8

/-- A lock of ten that expires at the block 100, to be passed on. -/
def offer : StartMediator where
  ourAddress := FixedBytes.replicate 20 9
  payerRoute := route 4 50
  message := ⟨1, FixedBytes.replicate 20 4, FixedBytes.replicate 20 7, FixedBytes.replicate 20 4,
    FixedBytes.replicate 20 9, ⟨10, 100, secretHash⟩,
    ⟨FixedBytes.replicate 20 11, FixedBytes.replicate 32 4, 1, 0, 10, locksroot []⟩⟩
  candidates := candidates

/-- The channel of the second route refuses the lock, and the node of the third gives it
    up. -/
def rejections : List Input :=
  [.routeRefused ⟨secretHash, FixedBytes.replicate 32 2, "insufficient balance"⟩,
    .lockDisposed ⟨FixedBytes.replicate 20 3, FixedBytes.replicate 32 3, ⟨10, 95, secretHash⟩⟩]

/-- The routes are distinct, and a mediator tries them all. -/
theorem run_routingLaw_threeRoutes :
    (candidates.map Route.channelId).Nodup ∧ RoutingLaw candidates 10 ∧
    (Effect.pledges (Mediator.effectsOf offer 10 rejections)).map Pledge.channelId
      = [FixedBytes.replicate 32 2, FixedBytes.replicate 32 3, FixedBytes.replicate 32 1] :=
  ⟨by decide +kernel, run_routingLaw (by decide +kernel) 10, by decide +kernel⟩

end ThreeRoutes

end PaymentNetwork

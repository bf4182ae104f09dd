import PaymentNetwork.Proofs.Broker.Openings
import PaymentNetwork.Proofs.Broker.Payment
import PaymentNetwork.Proofs.Broker.Search
import PaymentNetwork.Proofs.Sorting
import Mathlib.Data.List.Find

/-!
# Starting a Payment

Where the lock of a payment goes that was just started.

All channels that could carry the payment stand in one list: the open ones of the token
network with enough to spend and enough time, those with more to spend first, and those with
as much in the order of their identifiers. The lock should go into the first of them that has
no lock on the hash yet, for this is all that a channel in the list still asks for.

Nearly so. The routes of a payment are made of the channels that the token network lists, but
a route names its channel by its identifier, and the lock is offered to the channel that is
found under this identifier. The two are the same unless the identifier was opened again in
another network. Then the channel that is listed is passed over, or the lock goes into the
other one. So the law is told with the channel that is found, and it comes to what one would
expect as long as each channel in the list is found under its own identifier.

## Main definitions

* `Broker.ranked`, `Broker.Ranks`: The channels that could carry a payment, best first.
* `Broker.untried`: A payment that did not try a route yet.
* `Broker.takes`: The channel found under the identifier of a channel takes the lock.
* `Broker.Starts`, `Broker.Cancels`: A payment is in progress with one lock sent, or is over.
* `Broker.StartLaw`: What comes of starting a payment.

## Theorems

* `Broker.ranks_ranked`: The list is the one described.
* `Broker.available_eq_ranked`: The usable routes of a payment are those of the list.
* `Broker.starts_of_find?_eq_some`, `Broker.cancels_of_find?_eq_none`: The first channel that
  takes the lock decides.
* `Broker.run_startLaw`: The law after any inputs.
-/

namespace PaymentNetwork

namespace Channel

/-- Have we no lock on the hash? -/
def isFree (secretHash : SecretHash) (c : Channel) : Bool :=
  !c.ours.pendingLocks.contains secretHash

/-- A channel that could carry a lock takes it if we have none on the hash. -/
theorem isOk_sendTransfer {c : Channel} {t : TransferTerms} {now : Height}
    (hopen : c.isOpen = true) (hamount : t.amount ≤ c.ourDistributable)
    (hnow : now < t.expiration) : (c.sendTransfer t now).isOk = c.isFree t.secretHash := by
  unfold isFree SortedMap.contains
  cases hlock : c.ours.pendingLocks.get? t.secretHash with
  | none => rw [sendTransfer_eq_ok_iff.mpr ⟨hopen, hlock, hnow, hamount, rfl, rfl⟩]; rfl
  | some l =>
      cases hsend : c.sendTransfer t now with
      | error e => rfl
      | ok r =>
          have hnone := (sendTransfer_eq_ok_iff.mp hsend).2.1
          rw [hlock] at hnone
          cases hnone

theorem isOpen_route {c : Channel} (h : c.isOpen = true) : c.route.isOpen = true := by
  have hstatus : c.status = .opened := of_decide_eq_true h
  rw [Route.isOpen, route, closedBlock?, hstatus]
  rfl

end Channel

/-- A sum that stops at the largest word is below the same words as the exact sum. -/
theorem Word.satAdd_lt_iff {bits : Nat} {a b c : Word bits} :
    a.satAdd b < c ↔ a.val + b.val < c.val := by
  rw [Word.lt_iff, Word.val_satAdd]
  have hc := c.isLt
  omega

namespace Broker

/-! ### The channels that could carry a payment -/

/-- Does the channel have enough to spend, and enough time? -/
def suits (b : Broker) (terms : TransferTerms) (c : Channel) : Bool :=
  decide (terms.amount ≤ c.ourDistributable) &&
    decide (b.block.val + c.revealTimeout.val < terms.expiration.val)

/-- The open channels of the token network that could carry the payment, those with more to
    spend first, and those with as much in the order of the network. -/
def ranked (b : Broker) (terms : TransferTerms) : List Channel :=
  (sortBy (fun c d => decide (d.ourDistributable ≤ c.ourDistributable))
    (b.view.openChannels terms.tokenNetwork)).filter (b.suits terms)

/-- The list has just the channels that could carry the payment, those with more to spend
    first, and those with as much by increasing identifier. -/
structure Ranks (b : Broker) (terms : TransferTerms) (R : List Channel) : Prop where
  mem_iff : ∀ c, c ∈ R ↔ c ∈ b.view.channels terms.tokenNetwork ∧ c.isOpen = true ∧
    terms.amount ≤ c.ourDistributable ∧
    b.block.val + c.revealTimeout.val < terms.expiration.val
  ordered : R.Pairwise fun c d => d.ourDistributable < c.ourDistributable ∨
    d.ourDistributable = c.ourDistributable ∧ compare c.id d.id = .lt

/-- A payment that did not try a route yet. -/
def untried (b : Broker) (terms : TransferTerms) : Initiator where
  ourAddress := b.view.ourAddress
  terms := terms
  routes := Routes.ofCandidates (b.view.routes terms.tokenNetwork)
  route? := none
  blockNumber := b.block
  status := .waitingSecretRequest
  counterpartOnChain := false
  secretRegistered := false

section Ranked

variable {b : Broker} {terms : TransferTerms}

theorem mem_ranked_iff {c : Channel} :
    c ∈ b.ranked terms ↔ c ∈ b.view.channels terms.tokenNetwork ∧ c.isOpen = true ∧
      terms.amount ≤ c.ourDistributable ∧
      b.block.val + c.revealTimeout.val < terms.expiration.val := by
  rw [ranked, List.mem_filter, (sortBy_perm _ _).mem_iff, NetworkView.openChannels,
    List.mem_filter, suits, Bool.and_eq_true, decide_eq_true_eq, decide_eq_true_eq, and_assoc]

/-- Sorting the channels is sorting their routes. -/
theorem map_route_sorted (b : Broker) (tokenNetwork : Address) :
    (sortBy (fun c d : Channel => decide (d.ourDistributable ≤ c.ourDistributable))
        (b.view.openChannels tokenNetwork)).map Channel.route
      = (Routes.ofCandidates (b.view.routes tokenNetwork)).available :=
  map_sortBy (fun r r' : Route => decide (r'.availableBalance ≤ r.availableBalance))
    Channel.route _

/-- The list is the one described. -/
theorem ranks_ranked {opened : List Opening} (h : b.view.Indexed opened) (terms : TransferTerms) :
    b.Ranks terms (b.ranked terms) where
  mem_iff _ := mem_ranked_iff
  ordered := by
    have hordered := Routes.ofCandidates_ordered (b.view.routes terms.tokenNetwork)
    rw [← map_route_sorted, List.pairwise_map] at hordered
    refine (hordered.imp ?_).filter _
    intro c d hprecedes
    rcases hprecedes with hmore | ⟨hsame, hearlier⟩
    · exact Or.inl hmore
    · -- Channels with as much stand as the network lists them.
      have hids : (b.view.routes terms.tokenNetwork).Pairwise
          fun r r' => compare r.channelId r'.channelId = .lt :=
        List.pairwise_map.mpr ((h.channels_ordered terms.tokenNetwork).filter _)
      exact Or.inr ⟨hsame, List.rel_of_pairwise_cons (hids.sublist hearlier) List.mem_cons_self⟩

/-- The usable routes of a payment that begins are those of the list. -/
theorem available_eq_ranked (b : Broker) (terms : TransferTerms) :
    (b.untried terms).routes.available.filter (b.untried terms).usable
      = (b.ranked terms).map Channel.route := by
  rw [untried, ← map_route_sorted, List.filter_map, ranked]
  refine congrArg _ (List.filter_congr (fun c hc => ?_))
  have hopen := (List.mem_filter.mp ((sortBy_perm _ _).mem_iff.mp hc)).2
  rw [Function.comp_apply, Initiator.usable, Channel.isOpen_route hopen, Bool.true_and, suits,
    decide_eq_decide.mpr Word.satAdd_lt_iff]
  rfl

end Ranked

/-! ### One lock or none -/

/-- Does the channel found under the identifier of a channel take the lock? -/
def takes (b : Broker) (terms : TransferTerms) (c : Channel) : Bool :=
  carries b.view b.block { terms with secret? := none } c.route

/-- The payment is in progress over the route, and waits for the request of the secret. The
    lock that the channel built is all that is sent, and nothing else changes. -/
def Starts (b : Broker) (terms : TransferTerms) (r : Route) (tokenNetwork : Address)
    (c : Channel) : Prop :=
  ∃ m c' s, c.sendTransfer { terms with secret? := none } b.block = .ok (m, c') ∧
    s.status = .waitingSecretRequest ∧ s.route? = some r ∧ s.terms = terms ∧
    b.pay terms = .ok (
      { b with
        view := b.view.putChannel tokenNetwork r.channelId c'
        transfers := b.transfers.insert ⟨.initiator, terms.secretHash⟩ (.initiator s) },
      [.send r.node (.lockedTransfer m)])

/-- The payment is over, which is reported, and nothing else is done. -/
def Cancels (b : Broker) (terms : TransferTerms) : Prop :=
  b.pay terms = .ok (b, [.report (.sent ⟨terms.paymentId, terms.tokenNetwork, terms.target,
    terms.amount, terms.secretHash, .canceled, some "no usable route"⟩)])

section Pay

variable {b : Broker} {terms : TransferTerms}

/-- A payment may not begin twice. -/
theorem pay_of_contains (h : b.transfers.contains ⟨.initiator, terms.secretHash⟩ = true) :
    b.pay terms = .error .duplicateTransfer := by
  have hkey := b.beginning_key terms
  have hpay : b.pay terms = b.begin? (.initiator (Initiator.start (b.beginning terms) b.block).1)
      (Initiator.start (b.beginning terms) b.block).2 := rfl
  rw [← hkey] at h
  rw [hpay, begin?]
  exact if_pos h

/-- A search is about routes, and the list has their channels. -/
theorem find?_route (b : Broker) (terms : TransferTerms) :
    ((b.ranked terms).map Channel.route).find?
        (carries b.view b.block { terms with secret? := none })
      = ((b.ranked terms).find? (b.takes terms)).map Channel.route :=
  List.find?_map ..

/-- A payment that is in order gets past the checks. -/
theorem start_beginning (hsecret : Initiator.secretMatches terms = true)
    (hnews : b.block < terms.expiration) :
    Initiator.start (b.beginning terms) b.block = (b.untried terms).tryNextRoute := by
  have hmatches : ¬ (!Initiator.secretMatches (b.beginning terms).terms) = true := by
    rw [beginning, hsecret]
    decide
  have hearly : ¬ (b.beginning terms).terms.expiration ≤ b.block := Word.not_le.mpr hnews
  unfold Initiator.start
  simp only [hmatches, if_neg hearly]
  rfl

/-- A payment that may begin searches for a route. -/
theorem exists_search (hsecret : Initiator.secretMatches terms = true)
    (hnews : b.block < terms.expiration)
    (hnew : ¬ b.transfers.contains ⟨.initiator, terms.secretHash⟩ = true) :
    ∃ begun, (Initiator.search terms).Runs ((b.ranked terms).map Channel.route) begun ∧
      b.pay terms = .ok (b.settle begun.1 begun.2) := by
  have hruns := (b.untried terms).search_runs
  rw [available_eq_ranked] at hruns
  refine ⟨_, hruns, ?_⟩
  have hpay : b.pay terms = .ok (b.settle
      (.initiator (Initiator.start (b.beginning terms) b.block).1)
      (Initiator.start (b.beginning terms) b.block).2) := by
    rw [← b.beginning_key terms] at hnew
    exact if_neg hnew
  rw [hpay, start_beginning hsecret hnews]
  rfl

/-- The lock goes into the first channel that takes it. -/
theorem starts_of_find?_eq_some (hsecret : Initiator.secretMatches terms = true)
    (hnews : b.block < terms.expiration)
    (hnew : ¬ b.transfers.contains ⟨.initiator, terms.secretHash⟩ = true) {c : Channel}
    (hfirst : (b.ranked terms).find? (b.takes terms) = some c) :
    ∃ tokenNetwork d, b.view.find? c.id = some (tokenNetwork, d) ∧
      d.partner.address = c.partner.address ∧ b.Starts terms c.route tokenNetwork d := by
  obtain ⟨begun, hruns, hpay⟩ := exists_search hsecret hnews hnew
  obtain ⟨t, m, view', ⟨s, rfl, hstatus, hcurrent, hterms⟩, hsend, hdrain⟩ :=
    hruns.drain_of_find?_eq_some
      ((find?_route b terms).trans (congrArg (Option.map Channel.route) hfirst))
  obtain ⟨tokenNetwork, d, d', hfind, hpartner, hsent, rfl⟩ :=
    NetworkView.withPartnerChannel_eq_ok_iff.mp hsend
  refine ⟨tokenNetwork, d, hfind, hpartner, m, d', s, hsent, hstatus, hcurrent, hterms, ?_⟩
  have hprogress : ¬ (Transfer.initiator s).isTerminal = true := by
    rw [Transfer.isTerminal, hstatus]
    decide
  rw [hpay, settle, hdrain]
  unfold keep
  dsimp only
  rw [if_neg hprogress, Transfer.role, Transfer.secretHash, hterms]

/-- Without such a channel the payment is over at once. -/
theorem cancels_of_find?_eq_none (hsecret : Initiator.secretMatches terms = true)
    (hnews : b.block < terms.expiration)
    (hnew : ¬ b.transfers.contains ⟨.initiator, terms.secretHash⟩ = true)
    (hnone : (b.ranked terms).find? (b.takes terms) = none) : b.Cancels terms := by
  obtain ⟨begun, hruns, hpay⟩ := exists_search hsecret hnews hnew
  obtain ⟨t, ⟨s, rfl, hstatus, hterms⟩, hdrain⟩ := hruns.drain_of_find?_eq_none
    ((find?_route b terms).trans (congrArg (Option.map Channel.route) hnone))
  have hover : (Transfer.initiator s).isTerminal = true := by
    rw [Transfer.isTerminal, hstatus]
    rfl
  have hlast : drain b.view b.block (.initiator s) (Initiator.search terms).last
      = (.initiator s, ⟨b.view, [.report (.sent ⟨terms.paymentId, terms.tokenNetwork,
        terms.target, terms.amount, terms.secretHash, .canceled, some "no usable route"⟩)]⟩) := by
    simp only [Initiator.search, Initiator.failed, drain, perform, List.append_nil]
  rw [Cancels, hpay, settle, hdrain, hlast]
  unfold keep
  dsimp only
  -- The payment was never in progress, so forgetting it changes nothing.
  rw [if_pos hover, Transfer.role, Transfer.secretHash, hterms,
    SortedMap.erase_of_get?_eq_none (get?_eq_none_of_not_contains hnew)]

/-- A channel that is found under its own identifier takes the lock if we have none on the
    hash. -/
theorem takes_of_found {tokenNetwork : Address} {c : Channel} (hc : c ∈ b.ranked terms)
    (hfind : b.view.find? c.id = some (tokenNetwork, c)) :
    b.takes terms c = c.isFree terms.secretHash := by
  obtain ⟨-, hopen, hamount, htime⟩ := mem_ranked_iff.mp hc
  have hnow : b.block < terms.expiration := Nat.lt_of_le_of_lt (Nat.le_add_right _ _) htime
  rw [show c.isFree terms.secretHash = (c.sendTransfer { terms with secret? := none } b.block).isOk
    from (Channel.isOk_sendTransfer hopen hamount hnow).symm]
  unfold takes carries NetworkView.withPartnerChannel NetworkView.withChannel
  rw [show c.route.channelId = c.id from rfl, hfind]
  dsimp only
  rw [if_neg (fun hne => hne rfl)]
  cases c.sendTransfer { terms with secret? := none } b.block with
  | ok r => rfl
  | error e => rfl

end Pay

/-! ### What comes of starting a payment -/

/-- A payment on a hash that a payment is in progress on does not begin, and changes nothing.
    Otherwise the first channel in the list whose identifier finds a channel that takes the
    lock decides, and if there is none, the payment is over. As long as the channels in the
    list are found under their own identifiers, this is the first one without a lock of ours
    on the hash. -/
structure StartLaw (b : Broker) (terms : TransferTerms) : Prop where
  duplicate : b.transfers.contains ⟨.initiator, terms.secretHash⟩ = true →
    b.pay terms = .error .duplicateTransfer ∧ b.react (.pay terms) = (b, [])
  ranks : b.Ranks terms (b.ranked terms)
  starts : ¬ b.transfers.contains ⟨.initiator, terms.secretHash⟩ = true →
    ∀ c, (b.ranked terms).find? (b.takes terms) = some c →
      ∃ tokenNetwork d, b.view.find? c.id = some (tokenNetwork, d) ∧
        d.partner.address = c.partner.address ∧ b.Starts terms c.route tokenNetwork d
  cancels : ¬ b.transfers.contains ⟨.initiator, terms.secretHash⟩ = true →
    (b.ranked terms).find? (b.takes terms) = none → b.Cancels terms
  found : ¬ b.transfers.contains ⟨.initiator, terms.secretHash⟩ = true →
    (∀ c ∈ b.ranked terms, b.view.find? c.id = some (terms.tokenNetwork, c)) →
      (∀ c, (b.ranked terms).find? (Channel.isFree terms.secretHash) = some c →
        b.Starts terms c.route terms.tokenNetwork c) ∧
      ((b.ranked terms).find? (Channel.isFree terms.secretHash) = none → b.Cancels terms)

/-- A broker that ran follows the law, for payments that are in order. -/
theorem run_startLaw (ourAddress : Address) (revealTimeout block : Height)
    (inputs : List BrokerInput) {terms : TransferTerms}
    (hsecret : Initiator.secretMatches terms = true)
    (hnews : ((fresh (NetworkView.fresh ourAddress revealTimeout) block).run inputs).block
      < terms.expiration) :
    ((fresh (NetworkView.fresh ourAddress revealTimeout) block).run inputs).StartLaw terms := by
  obtain ⟨opened, hindexed⟩ := run_indexed ourAddress revealTimeout block inputs
  generalize (fresh (NetworkView.fresh ourAddress revealTimeout) block).run inputs = b at *
  refine ⟨fun hcontains => ?_, ranks_ranked hindexed terms,
    fun hnew c hfirst => starts_of_find?_eq_some hsecret hnews hnew hfirst,
    fun hnew hnone => cancels_of_find?_eq_none hsecret hnews hnew hnone, fun hnew hfound => ?_⟩
  · have hpay := pay_of_contains hcontains
    exact ⟨hpay, by rw [react, hpay]⟩
  · have hsame : (b.ranked terms).find? (b.takes terms)
        = (b.ranked terms).find? (Channel.isFree terms.secretHash) :=
      List.find?_congr (fun c hc => takes_of_found hc (hfound c hc))
    rw [← hsame]
    refine ⟨fun c hfirst => ?_, cancels_of_find?_eq_none hsecret hnews hnew⟩
    obtain ⟨tokenNetwork, d, hfind, -, hstarts⟩ :=
      starts_of_find?_eq_some hsecret hnews hnew hfirst
    rw [hfound c (List.mem_of_find?_eq_some hfirst)] at hfind
    cases hfind
    exact hstarts

namespace HiddenChannel

/-! ### A channel that is passed over -/

open NetworkView.SharedId

/-- We open a channel with a partner and deposit. -/
def opening : List BrokerInput :=
  [.chain (opened 10 2 1),
    .chain (.channelNewDeposit (FixedBytes.replicate 20 10) channelId us 100 2)]

def secret : Secret := FixedBytes.replicate 32 7

/-- A payment of fifty. -/
def terms : TransferTerms :=
  ⟨1, FixedBytes.replicate 20 10, 50, us, FixedBytes.replicate 20 4, 100, hashSecret secret,
    some secret⟩

/-- The channel that could carry it. -/
def funded : Channel :=
  { Channel.fresh channelId (FixedBytes.replicate 20 10) us (FixedBytes.replicate 20 2) 5 50 1
      with ours := { ChannelEnd.fresh us with contractBalance := 100 } }

theorem secretMatches_terms : Initiator.secretMatches terms = true := by
  change opens secret (hashSecret secret) = true
  rw [opens, decide_eq_true_eq]

/-- After the one opening the payment starts over the channel. -/
theorem run_startLaw_opening : Initiator.secretMatches terms = true ∧
    ((fresh (NetworkView.fresh us 5) 10).run opening).block < terms.expiration ∧
    ((fresh (NetworkView.fresh us 5) 10).run opening).StartLaw terms ∧
    ((fresh (NetworkView.fresh us 5) 10).run opening).Starts terms funded.route
      terms.tokenNetwork funded := by
  have hnews : ((fresh (NetworkView.fresh us 5) 10).run opening).block < terms.expiration := by
    decide +kernel
  have hlaw := run_startLaw us 5 10 opening secretMatches_terms hnews
  have hranked : ((fresh (NetworkView.fresh us 5) 10).run opening).ranked terms = [funded] := by
    decide +kernel
  have hfind : ((fresh (NetworkView.fresh us 5) 10).run opening).view.find? funded.id
      = some (terms.tokenNetwork, funded) := by decide +kernel
  have hfound := hlaw.found (fun hcontains => nomatch hcontains)
  rw [hranked] at hfound
  refine ⟨secretMatches_terms, hnews, hlaw, (hfound (fun c hc => ?_)).1 funded rfl⟩
  rw [List.mem_singleton.mp hc]
  exact hfind

/-- The identifier is opened in another network too. -/
def inputs : List BrokerInput := opening ++ [.chain (opened 11 3 3)]

/-- The broker after that. -/
def broker : Broker := (fresh (NetworkView.fresh us 5) 10).run inputs

theorem ranked_broker : broker.ranked terms = [funded] := by decide +kernel

/-- The identifier of the channel finds the one of the other network. -/
theorem takes_funded : broker.takes terms funded = false := by decide +kernel

/-- Not every payment starts over the first channel in the list without a lock on its hash.
    Here there is one, and yet the payment is over at once. -/
theorem passed_over : ¬ ∀ ourAddress revealTimeout block inputs terms,
    Initiator.secretMatches terms = true →
    ((fresh (NetworkView.fresh ourAddress revealTimeout) block).run inputs).block
      < terms.expiration →
    ¬ ((fresh (NetworkView.fresh ourAddress revealTimeout) block).run inputs).transfers.contains
      ⟨.initiator, terms.secretHash⟩ = true →
    ∀ c, (((fresh (NetworkView.fresh ourAddress revealTimeout) block).run inputs).ranked
        terms).find? (Channel.isFree terms.secretHash) = some c →
      ((fresh (NetworkView.fresh ourAddress revealTimeout) block).run inputs).Starts terms
        c.route terms.tokenNetwork c := by
  intro h
  have hnews : broker.block < terms.expiration := by decide +kernel
  have hnew : ¬ broker.transfers.contains ⟨.initiator, terms.secretHash⟩ = true :=
    fun hcontains => nomatch hcontains
  have hfree : (broker.ranked terms).find? (Channel.isFree terms.secretHash) = some funded := by
    rw [ranked_broker]
    rfl
  have hnone : (broker.ranked terms).find? (broker.takes terms) = none := by
    rw [ranked_broker, List.find?_cons, takes_funded, List.find?_nil]
  -- The first channel in the list is free, so the payment would be in progress.
  obtain ⟨m, c', s, -, -, -, -, hpay⟩ :=
    h us 5 10 inputs terms secretMatches_terms hnews hnew funded hfree
  have hcancels : broker.Cancels terms :=
    cancels_of_find?_eq_none secretMatches_terms hnews hnew hnone
  have hboth := hpay.symm.trans hcancels
  cases hboth

end HiddenChannel

end Broker

end PaymentNetwork

import PaymentNetwork.Proofs.Node.Run

/-!
# The Margin of a Node

When a secret that the payee registered on the ledger reaches a mediator in time.

The payee of a mediator may register the secret as long as the offered lock did not expire.
The mediator learns of it when the event is confirmed, and loses the received lock at a block
that comes at the expiration of that lock or after it. A block hands out the events that it
confirms before it is told itself, so the event is in time if it is confirmed by the expiration
of the received lock. This lock outlasts the offered one by the reveal timeout. So the blocks
that an event waits have to fit into the reveal timeout and one block more, and then nothing
that happens before or after can make the mediator lose. If they do not fit, the secret can be
registered at the last block at which the offered lock stands, and comes too late.

A configuration is accepted whether they fit or not.

## Main definitions

* `Node.Followed`: A mediated transfer of a node, whose fate is known from its facts.
* `Node.Awaits`: A mediator waits for the secret, and an event that registers it for
  confirmation.
* `Node.fate`, `Node.Outcome`: What becomes of the mediator.
* `Node.MarginLaw`: What a run keeps to.

## Theorems

* `Confirmation.Accounts.mem_release`: An event is handed out as soon as it is deep enough.
* `Node.Followed.handedOut`: The block that hands out the event makes the secret known.
* `Node.Followed.run_early`: If that is in time, nothing makes the mediator lose.
* `Node.Followed.expires`: Otherwise the expiration does.
* `Node.run_marginLaw`: The law for every run of a node.
-/

namespace PaymentNetwork

namespace Confirmation

section Release

variable {confirm hold : Height} {arrived : List ChainEvent} {log : List (Height × ChainEvent)}
  {q : Confirmation}

/-- What waits is handed out or goes on waiting. -/
theorem Accounts.release_perm (h : Accounts confirm hold arrived log q) (height : Height) :
    q.pending.Perm ((q.release height).2.1 ++ (q.release height).1.pending) := by
  have hafter := (h.release height).1.complete
  rw [List.map_append, map_snd_map_mk, List.append_assoc] at hafter
  exact (List.perm_append_left_iff _).mp (h.complete.symm.trans hafter)

/-- An event that settles nothing is handed out as soon as it is deep enough. -/
theorem Accounts.mem_release (h : Accounts confirm hold arrived log q) {e : ChainEvent}
    (he : e ∈ q.pending) (hsettles : ∀ c, e.settles c = false) {height : Height}
    (hdeep : e.block.satAdd confirm ≤ height) : e ∈ (q.release height).2.1 := by
  rcases List.mem_append.mp ((h.release_perm height).mem_iff.mp he) with hout | hkept
  · exact hout
  · -- What goes on waiting is not deep enough, or it is a settlement that is held back.
    refine absurd ⟨hdeep, fun c hc => ?_⟩ ((h.release height).2 e hkept)
    cases (hsettles c).symm.trans hc

/-- Whatever is handed out waited, and is deep enough. -/
theorem Accounts.deep_of_mem_release (h : Accounts confirm hold arrived log q) {e : ChainEvent}
    {height : Height} (he : e ∈ (q.release height).2.1) :
    e ∈ q.pending ∧ e.block.satAdd confirm ≤ height := by
  obtain ⟨before, after, hsplit⟩ := List.append_of_mem
    (List.mem_append_right log (List.mem_map_of_mem (f := Prod.mk height) he))
  have hdue := (h.release height).1.due before (height, e) after hsplit
  exact ⟨(h.release_perm height).mem_iff.mpr (List.mem_append_left _ he), hdue.1⟩

end Release

end Confirmation

namespace Node

/-! ### A mediated transfer of a node -/

/-- The event that registers a secret for the hash of a mediator. -/
def registration (s : Mediator) (secret : Secret) (registered : Height) : ChainEvent :=
  .secretRegistered secret s.received.secretHash registered

/-- The events that wait are those that arrived and were not handed out. -/
def Accounted (c : NodeConfig) (n : Node) : Prop :=
  ∃ arrived log, Confirmation.Accounts c.confirmBlocks c.settleHoldBlocks arrived log n.confirmation

/-- A mediated transfer of a node that began with some settings. It is in progress, unless
    it is over. -/
structure Followed (c : NodeConfig) (n : Node) (k : TransferKey) (s : Mediator) : Prop where
  disciplined : Broker.Disciplined c.revealTimeout n.broker
  accounted : Accounted c n
  tracked : n.broker.Tracked k (.mediator s)
  key : (Transfer.mediator s).key = k

/-- As long as a mediator waits for the secret, an event that registers it waits for
    confirmation. -/
def Pends (n : Node) (s : Mediator) (secret : Secret) (registered : Height) : Prop :=
  s.status = .forwardedToNextHop → registration s secret registered ∈ n.confirmation.pending

/-- What becomes of a mediator in a node, after some inputs. -/
def fate (n : Node) (s : Mediator) (inputs : List NodeInput) : Mediator :=
  Machine.run Mediator.step s (n.factsOf (Transfer.mediator s).key inputs)

section Followed

variable {c : NodeConfig} {n : Node} {k : TransferKey} {s : Mediator} {i : NodeInput}
  {secret : Secret} {registered : Height}

theorem Accounted.after (h : Accounted c n) (i : NodeInput) : Accounted c (n.after i) := by
  obtain ⟨arrived, log, haccounts⟩ := h
  rw [Accounted, after_confirmation]
  exact ⟨_, _, haccounts.run _⟩

theorem accounts_run (c : NodeConfig) (inputs : List NodeInput) :
    Confirmation.Accounts c.confirmBlocks c.settleHoldBlocks
      (ConfirmationInput.arrivals (inputs.filterMap NodeInput.confirmation?))
      ((fresh c).confirmation.log (inputs.filterMap NodeInput.confirmation?))
      ((fresh c).run inputs).confirmation := by
  rw [run_confirmation]
  exact Confirmation.accounts_run c.confirmBlocks c.settleHoldBlocks _

theorem followed_of_get? (inputs : List NodeInput)
    (hget : ((fresh c).run inputs).broker.transfers.get? (Transfer.mediator s).key
      = some (.mediator s)) :
    Followed c ((fresh c).run inputs) (Transfer.mediator s).key s where
  disciplined := run_disciplined c inputs
  accounted := ⟨_, _, accounts_run c inputs⟩
  tracked := fun _ => hget
  key := rfl

theorem Followed.after (h : Followed c n k s) (i : NodeInput) :
    Followed c (n.after i) k (Machine.run Mediator.step s (n.facts k i)) where
  disciplined := after_disciplined h.disciplined i
  accounted := h.accounted.after i
  tracked := by
    rw [← Transfer.run_mediator]
    exact after_tracked h.tracked h.disciplined.filed i
  key := (Transfer.key_run_mediator s _).trans h.key

/-- Whatever is handed out has arrived, and is deep enough. -/
theorem push_of_handedOut {inputs : List NodeInput} {e : ChainEvent} {number : Height}
    (h : e ∈ ((fresh c).run inputs).handedOut number) :
    .push e ∈ inputs ∧ e.block.satAdd c.confirmBlocks ≤ number := by
  have haccounts := accounts_run c inputs
  obtain ⟨hpending, hdeep⟩ := haccounts.deep_of_mem_release h
  refine ⟨?_, hdeep⟩
  have harrived := haccounts.complete.mem_iff.mpr (List.mem_append_right _ hpending)
  obtain ⟨j, hj, hevent⟩ := List.mem_filterMap.mp harrived
  obtain ⟨i, hi, hconfirmation⟩ := List.mem_filterMap.mp hj
  cases j with
  | release height => cases hevent
  | arrive e' =>
      cases hevent
      cases i with
      | push e' =>
          cases hconfirmation
          exact hi
      | _ => cases hconfirmation

/-- A node is told of a block by a block only. -/
theorem block_of_mem_facts {number : Height} (h : .block number ∈ n.facts k i) :
    i = .block number := by
  obtain ⟨order, hmem⟩ := Broker.block_of_mem_factsOf h
  rcases n.mem_moves hmem with ⟨_, _, -, -, heq⟩ | ⟨_, _, rfl, heq⟩ | ⟨_, _, -, heq⟩ |
    ⟨_, -, heq⟩
  · cases heq
  · cases heq
    rfl
  · cases heq
  · cases heq

/-- The block that hands out an event which tells the secret makes it known, however late it
    comes. -/
theorem Followed.handedOut (h : Followed c n k s) (hs : s.status = .forwardedToNextHop)
    {number : Height} (hmem : registration s secret registered ∈ n.handedOut number) :
    (Machine.run Mediator.step s (n.facts k (.block number))).status.knowsSecret = true := by
  rw [facts, moves, Broker.factsOf_append, Machine.run_append]
  exact Mediator.run_knowsSecret (h.tracked.learns h.disciplined.filed h.key hs hmem) _

/-- Any block that is deep enough does so. -/
theorem Followed.informs (h : Followed c n k s) (hs : s.status = .forwardedToNextHop)
    (hpends : n.Pends s secret registered) {number : Height}
    (hdeep : registered.satAdd c.confirmBlocks ≤ number) :
    (Machine.run Mediator.step s (n.facts k (.block number))).status.knowsSecret = true := by
  obtain ⟨arrived, log, haccounts⟩ := h.accounted
  exact h.handedOut hs (haccounts.mem_release (hpends hs) (fun _ => rfl) hdeep)

theorem registration_run (s : Mediator) (facts : List Input) (secret : Secret)
    (registered : Height) :
    registration (Machine.run Mediator.step s facts) secret registered
      = registration s secret registered := by
  rw [registration, (s.run_sameDeal facts).received, registration]

/-- A mediator that still waits for the secret after an input was not handed the event. So the
    event waits too. -/
theorem Followed.pends (h : Followed c n k s) (hpends : n.Pends s secret registered)
    (i : NodeInput) :
    (n.after i).Pends (Machine.run Mediator.step s (n.facts k i)) secret registered := by
  intro hs
  have hbefore := Mediator.forwarded_of_run hs
  have hwaits := hpends hbefore
  rw [registration_run, after_confirmation]
  cases i with
  | push e =>
      exact (Confirmation.insertEvent_perm e _).mem_iff.mpr (List.mem_cons_of_mem e hwaits)
  | block number =>
      obtain ⟨arrived, log, haccounts⟩ := h.accounted
      rcases List.mem_append.mp ((haccounts.release_perm number).mem_iff.mp hwaits) with
        hout | hkept
      · -- An event that is handed out would have told the secret.
        have hknows := h.handedOut hbefore hout
        rw [hs] at hknows
        cases hknows
      · exact hkept
  | _ => exact hwaits

/-- If the event is confirmed by the expiration of the received lock, no input makes the
    mediator lose it. -/
theorem Followed.early (h : Followed c n k s) (hpends : n.Pends s secret registered)
    (hmargin : registered.satAdd c.confirmBlocks ≤ s.received.expiration)
    (hs : s.status ≠ .expiredBoth) (i : NodeInput) :
    (Machine.run Mediator.step s (n.facts k i)).status ≠ .expiredBoth := by
  by_cases hforwarded : s.status = .forwardedToNextHop
  · by_cases hdeep : ∃ number, i = .block number ∧ registered.satAdd c.confirmBlocks ≤ number
    · obtain ⟨number, rfl, hdeep⟩ := hdeep
      exact Mediator.ne_expiredBoth_of_knowsSecret (h.informs hforwarded hpends hdeep)
    · -- No block comes, or one before the event is deep enough.
      refine Mediator.run_early hs (fun number hblock => ?_)
      have hearly : number < registered.satAdd c.confirmBlocks :=
        Word.not_le.mp (fun hle => hdeep ⟨number, block_of_mem_facts hblock, hle⟩)
      exact Nat.lt_of_lt_of_le hearly hmargin
  · exact Mediator.run_of_not_forwarded hforwarded hs _

/-- Events that do not tell the secret leave a mediator waiting for it. -/
theorem idles_of_handedOut {events : List ChainEvent}
    (huntold : ∀ secret registered, registration s secret registered ∉ events) :
    ∀ i ∈ events.map BrokerInput.chain, ∀ fact, i.fact? = some fact → s.Idles fact := by
  intro i hi fact hfact
  obtain ⟨e, he, rfl⟩ := List.mem_map.mp hi
  cases hfact
  refine Mediator.idles_chain (fun secret registered heq => huntold secret registered ?_)
  rwa [registration, ← heq]

/-- Before the expiration such a block leaves the mediator waiting for the secret, with the
    lock that it offers. -/
theorem Followed.idles (h : Followed c n k s) (hs : s.status = .forwardedToNextHop)
    {number : Height} (hearly : number < s.received.expiration)
    (huntold : ∀ secret registered, registration s secret registered ∉ n.handedOut number) :
    (Machine.run Mediator.step s (n.facts k (.block number))).status = .forwardedToNextHop ∧
      (Machine.run Mediator.step s (n.facts k (.block number))).offered? = s.offered? := by
  refine h.tracked.idles h.disciplined.filed hs (fun i hi fact hfact => ?_)
  rcases List.mem_append.mp hi with htold | hblock
  · exact idles_of_handedOut huntold i htold fact hfact
  · cases List.mem_singleton.mp hblock
    cases hfact
    exact hearly

/-- A block at the expiration that hands out no event which tells the secret makes the mediator
    lose the received lock. -/
theorem Followed.expires (h : Followed c n k s) (hs : s.status = .forwardedToNextHop)
    {number : Height} (hlate : s.received.expiration ≤ number)
    (huntold : ∀ secret registered, registration s secret registered ∉ n.handedOut number) :
    (Machine.run Mediator.step s (n.facts k (.block number))).status = .expiredBoth := by
  have hfiled := h.disciplined.filed
  have hforwarded := (h.tracked.idles hfiled hs (idles_of_handedOut huntold)).1
  have htracked := h.tracked.run hfiled ((n.handedOut number).map .chain)
  have hdeal := s.run_sameDeal (n.broker.factsOf k ((n.handedOut number).map .chain))
  have hvisits := Broker.visitsAll_append.mp (n.visitsAll_moves (.block number))
  have hdisciplined := Broker.run_disciplined h.disciplined hvisits.1
  rw [facts, moves, Broker.factsOf_append, Machine.run_append, Broker.factsOf_singleton]
  rw [Transfer.run_mediator] at htracked
  generalize n.broker.run ((n.handedOut number).map .chain) = b at htracked hvisits hdisciplined ⊢
  generalize Machine.run Mediator.step s _ = s' at hforwarded htracked hdeal ⊢
  -- The events left the clock before the expiration, so the block is news.
  have hget := htracked (congrArg MediatorStatus.isTerminal hforwarded)
  have hnews : b.block < number := by
    have htime := (hdisciplined.timely hget).onTime
    rw [Transfer.deadline_of_not_waiting (by rw [hforwarded]; decide), hdeal.received] at htime
    exact Nat.lt_of_lt_of_le htime hlate
  have hreaction : b.reaction (.block number b.transfers.keys)
      = .tell { b with block := number } (.block number) b.transfers.keys := by
    rw [Broker.reaction_block, if_neg (Word.not_le.mpr hnews)]
  have hcalled : k ∈ b.transfers.keys :=
    Broker.visits_keys b number k (hget ▸ Option.some_ne_none _)
  obtain ⟨rest, hrest⟩ := Broker.facts_of_told hdisciplined.filed hget hreaction hcalled
  have hexpired : (s'.step (.block number)).1.status = .expiredBoth :=
    Mediator.step_block_expired hforwarded (hdeal.received ▸ hlate)
  rw [hrest, Machine.run_cons,
    (Machine.effects_of_fixed (Mediator.step_of_isTerminal (by rw [hexpired]; rfl)) rest).1,
    hexpired]

/-! ### Any inputs -/

theorem factsOf_cons (n : Node) (k : TransferKey) (i : NodeInput) (rest : List NodeInput) :
    n.factsOf k (i :: rest) = n.facts k i ++ (n.after i).factsOf k rest := rfl

theorem factsOf_append (n : Node) (k : TransferKey) (first later : List NodeInput) :
    n.factsOf k (first ++ later) = n.factsOf k first ++ (n.run first).factsOf k later :=
  collect_append _ _ n first later

theorem factsOf_singleton (n : Node) (k : TransferKey) (i : NodeInput) :
    n.factsOf k [i] = n.facts k i := List.append_nil _

theorem fate_concat (n : Node) (s : Mediator) (later : List NodeInput) (i : NodeInput) :
    n.fate s (later ++ [i]) = Machine.run Mediator.step (n.fate s later)
      ((n.run later).facts (Transfer.mediator s).key i) := by
  rw [fate, factsOf_append, Machine.run_append, factsOf_singleton, fate]

theorem Followed.run (h : Followed c n k s) (later : List NodeInput) :
    Followed c (n.run later) k (Machine.run Mediator.step s (n.factsOf k later)) := by
  induction later generalizing n s with
  | nil => exact h
  | cons i rest ih =>
      rw [factsOf_cons, Machine.run_append]
      exact ih (h.after i)

/-- As long as the mediator waits for the secret, the event waits. -/
theorem Followed.run_pends (h : Followed c n k s) (hpends : n.Pends s secret registered)
    (later : List NodeInput) :
    (n.run later).Pends (Machine.run Mediator.step s (n.factsOf k later)) secret registered := by
  induction later generalizing n s with
  | nil => exact hpends
  | cons i rest ih =>
      rw [factsOf_cons, Machine.run_append]
      exact ih (h.after i) (h.pends hpends i)

/-- If the event is confirmed by the expiration of the received lock, the lock is never
    lost. -/
theorem Followed.run_early (h : Followed c n k s) (hpends : n.Pends s secret registered)
    (hmargin : registered.satAdd c.confirmBlocks ≤ s.received.expiration)
    (hs : s.status ≠ .expiredBoth) (later : List NodeInput) :
    (Machine.run Mediator.step s (n.factsOf k later)).status ≠ .expiredBoth := by
  induction later generalizing n s with
  | nil => exact hs
  | cons i rest ih =>
      have hdeal := s.run_sameDeal (n.facts k i)
      rw [factsOf_cons, Machine.run_append]
      exact ih (h.after i) (h.pends hpends i) (hdeal.received ▸ hmargin)
        (h.early hpends hmargin hs i)

end Followed

/-! ### The law -/

/-- A mediator in progress waits for the secret, and an event that registers it waits for
    confirmation. -/
structure Awaits (n : Node) (s : Mediator) (secret : Secret) (registered : Height) : Prop where
  inProgress : n.broker.transfers.get? (Transfer.mediator s).key = some (.mediator s)
  forwarded : s.status = .forwardedToNextHop
  arrived : registration s secret registered ∈ n.confirmation.pending

/-- What has become of a received lock that was not lost. -/
inductive Outcome (n : Node) (s : Mediator) (e : ChainEvent) (later : List NodeInput) : Prop where
  /-- The mediator still waits for the secret, and the event for confirmation. -/
  | uninformed (h : (n.fate s later).status = .forwardedToNextHop)
      (hwaits : e ∈ (n.run later).confirmation.pending)
  /-- There was no route left, and the lock went back to the payer. -/
  | returned (h : (n.fate s later).status = .canceled)
  /-- The mediator knows the secret, and the time of its payer is not over. -/
  | waits (h : (n.fate s later).status = .waitingSecretPropagation)
      (hearly : (n.run later).broker.block < s.payerDeadline)
  /-- The payer unlocked the lock. -/
  | paid (u : Unlock) (hmem : .message s.payerRoute.node (.unlock u) ∈ later)
      (hhash : hashSecret u.secret = s.received.secretHash)
  /-- The lock was claimed from the ledger. -/
  | claimed (secret : Secret) (closed : Bool) (h : s.claimDeeds secret closed ⊆ n.deeds later)

/-- What a mediated transfer of a node comes to, if a registration of its secret waits for
    confirmation. The offered lock expires a reveal timeout before the received one. If the
    registration is confirmed by the expiration of the received lock, this is not lost,
    whatever comes. So it is not if the secret was registered before the offered lock expired,
    and events wait no longer than the reveal timeout and one block. A mediator that waits for
    the secret until the registration is confirmed knows the secret then. A block at the
    expiration makes it lose exactly if no registration is confirmed by then. -/
structure MarginLaw (c : NodeConfig) (n : Node) : Prop where
  tracked : ∀ s, n.broker.transfers.get? (Transfer.mediator s).key = some (.mediator s) →
    ∀ later, (n.run later).broker.Tracked (Transfer.mediator s).key (.mediator (n.fate s later))
  margin : ∀ s, n.broker.transfers.get? (Transfer.mediator s).key = some (.mediator s) →
    ∀ o, s.offered? = some o → o.expiration = s.received.expiration.satSub c.revealTimeout
  inTime : ∀ s secret registered, n.Awaits s secret registered →
    registered.satAdd c.confirmBlocks ≤ s.received.expiration →
    ∀ later, (n.fate s later).status ≠ .expiredBoth ∧
      n.Outcome s (registration s secret registered) later
  safe : ∀ s secret registered, n.Awaits s secret registered →
    c.confirmBlocks.val ≤ c.revealTimeout.val + 1 →
    ∀ o, s.offered? = some o → registered < o.expiration →
    ∀ later, (n.fate s later).status ≠ .expiredBoth ∧
      n.Outcome s (registration s secret registered) later
  informs : ∀ s secret registered, n.Awaits s secret registered →
    ∀ later number, registered.satAdd c.confirmBlocks ≤ number →
    (n.fate s later).status = .forwardedToNextHop →
    (n.fate s (later ++ [.block number])).status.knowsSecret = true
  loses : ∀ s, n.broker.transfers.get? (Transfer.mediator s).key = some (.mediator s) →
    s.status = .forwardedToNextHop → ∀ number, s.received.expiration ≤ number →
    ((n.fate s [.block number]).status = .expiredBoth ↔
      ∀ secret registered, registration s secret registered ∈ n.confirmation.pending →
        number < registered.satAdd c.confirmBlocks)

section Law

variable {c : NodeConfig} {n : Node} {s : Mediator} {secret : Secret} {registered : Height}

/-- An unlock reaches a transfer by the message of whoever unlocked. -/
theorem unlock_of_mem_factsOf {k : TransferKey} {inputs : List NodeInput} {fact : Input}
    (h : fact ∈ n.factsOf k inputs) {node : Address} {secretHash : SecretHash}
    (hunlock : fact.isUnlockOf node secretHash = true) :
    ∃ u, .message node (.unlock u) ∈ inputs ∧ hashSecret u.secret = secretHash := by
  induction inputs generalizing n with
  | nil => cases h
  | cons i rest ih =>
      rw [factsOf_cons, List.mem_append] at h
      rcases h with h | h
      · rcases Broker.mem_factsOf h with ⟨m, hmem, hfact⟩ | ⟨refusal, rfl⟩
        · obtain ⟨u, rfl, hhash⟩ := Broker.exists_unlock_of_fact? hfact hunlock
          refine ⟨u, ?_, hhash⟩
          rcases n.mem_moves hmem with ⟨_, _, -, -, heq⟩ | ⟨_, _, -, heq⟩ | ⟨_, _, rfl, heq⟩ |
            ⟨_, -, heq⟩
          · cases heq
          · cases heq
          · cases heq
            exact List.mem_cons_self
          · cases heq
        · cases hunlock
      · obtain ⟨u, hmem, hhash⟩ := ih h
        exact ⟨u, List.mem_cons_of_mem i hmem, hhash⟩

/-- What did not end with a loss ended in one of these ways. -/
theorem outcome_of_early (h : Followed c n (Transfer.mediator s).key s)
    (hawaits : n.Awaits s secret registered) {later : List NodeInput}
    (hs : (n.fate s later).status ≠ .expiredBoth) :
    n.Outcome s (registration s secret registered) later := by
  rcases (n.fate s later).status_cases with hforwarded | hknows | hcanceled | hexpired
  · -- The event was not handed out, or the mediator would not wait for the secret.
    have hwaits := h.run_pends (fun _ => hawaits.arrived) later hforwarded
    rw [registration_run] at hwaits
    exact .uninformed hforwarded hwaits
  · have hunaware : s.status.knowsSecret = false := congrArg MediatorStatus.knowsSecret
      hawaits.forwarded
    rcases Mediator.run_collects hunaware hknows with hwaits | ⟨hmem, hunlock⟩ |
      ⟨secret, closed, hclaim⟩
    · -- It is in progress, so its deadline is still to come.
      have hlast := h.run later
      have hget := hlast.tracked (congrArg MediatorStatus.isTerminal hwaits)
      have htime := (hlast.disciplined.timely hget).onTime
      have hdeal := s.run_sameDeal (n.factsOf (Transfer.mediator s).key later)
      rw [Transfer.deadline_of_waiting hwaits, Mediator.payerDeadline, hdeal.received,
        hdeal.payerRoute] at htime
      exact .waits hwaits htime
    · obtain ⟨u, hmem, hhash⟩ := unlock_of_mem_factsOf hmem hunlock
      exact .paid u hmem hhash
    · refine .claimed secret closed (List.Subset.trans hclaim ?_)
      rw [← Transfer.effects_mediator]
      exact run_does h.disciplined h.tracked later
  · exact .returned hcanceled
  · exact absurd hexpired hs

theorem run_holds_early (c : NodeConfig) (inputs : List NodeInput) :
    Broker.Holds (fun _ _ => True) Broker.Early ((fresh c).run inputs).broker := by
  induction inputs using List.reverseRec with
  | nil => exact Broker.holds_fresh (fun _ _ _ => trivial) 0
  | append_singleton inputs i ih =>
      rw [run_append]
      rcases ((fresh c).run inputs).after_broker i with heq | ⟨-, tokenNetwork, blocked, heq⟩
      · have hafter : (((fresh c).run inputs).run [i]).broker = _ := heq
        rw [hafter]
        exact Broker.run_offersEarly ih _
      · have hafter : (((fresh c).run inputs).run [i]).broker = _ := heq
        rw [hafter]
        exact ih.withView (fun _ _ _ => trivial)

/-- A mediator of a node offers a lock that expires a reveal timeout before the received
    one. -/
theorem expiration_of_offered (inputs : List NodeInput)
    (hget : ((fresh c).run inputs).broker.transfers.get? (Transfer.mediator s).key
      = some (.mediator s)) {o : TransferTerms} (ho : s.offered? = some o) :
    o.expiration = s.received.expiration.satSub c.revealTimeout := by
  have hpayer : s.payerRoute.revealTimeout = c.revealTimeout :=
    (run_disciplined c inputs).regular.holds.transfers _ _ hget _ rfl
  have hearly := (run_holds_early c inputs).transfers _ _ hget s rfl o ho
  rw [hearly, Mediator.downstreamExpiration, hpayer]

/-- Every run of a node keeps to the law. -/
theorem run_marginLaw (c : NodeConfig) (inputs : List NodeInput) :
    MarginLaw c ((fresh c).run inputs) := by
  have hinTime : ∀ s secret registered, ((fresh c).run inputs).Awaits s secret registered →
      registered.satAdd c.confirmBlocks ≤ s.received.expiration →
      ∀ later, (((fresh c).run inputs).fate s later).status ≠ .expiredBoth ∧
        ((fresh c).run inputs).Outcome s (registration s secret registered) later := by
    intro s secret registered hawaits hmargin later
    have hfollowed := followed_of_get? inputs hawaits.inProgress
    have hprogress : s.status ≠ .expiredBoth := by
      rw [hawaits.forwarded]
      decide
    have hearly := hfollowed.run_early (fun _ => hawaits.arrived) hmargin hprogress later
    exact ⟨hearly, outcome_of_early hfollowed hawaits hearly⟩
  constructor
  case tracked =>
    intro s hget later
    exact ((followed_of_get? inputs hget).run later).tracked
  case margin =>
    intro s hget o ho
    exact expiration_of_offered inputs hget ho
  case inTime => exact hinTime
  case safe =>
    intro s secret registered hawaits hblocks o ho hregistered later
    refine hinTime s secret registered hawaits ?_ later
    -- The reveal timeout between the two locks is what the event may wait.
    rw [expiration_of_offered inputs hawaits.inProgress ho, Word.lt_iff, Word.val_satSub]
      at hregistered
    rw [Word.le_iff, Word.val_satAdd]
    omega
  case informs =>
    intro s secret registered hawaits later number hdeep hforwarded
    have hfollowed := followed_of_get? inputs hawaits.inProgress
    rw [fate_concat]
    exact (hfollowed.run later).informs hforwarded
      (hfollowed.run_pends (fun _ => hawaits.arrived) later) hdeep
  case loses =>
    intro s hget hforwarded number hlate
    have hfollowed := followed_of_get? inputs hget
    rw [fate, factsOf_singleton]
    constructor
    · -- A registration that is confirmed by then is handed out before the block is told.
      intro hexpired secret registered hwaits
      by_contra hdeep
      exact Mediator.ne_expiredBoth_of_knowsSecret
        (hfollowed.informs hforwarded (fun _ => hwaits) (Word.not_lt.mp hdeep)) hexpired
    · intro huntold
      refine hfollowed.expires hforwarded hlate (fun secret registered hmem => ?_)
      obtain ⟨hwaits, hdeep⟩ := (accounts_run c inputs).deep_of_mem_release hmem
      exact Word.not_le.mpr (huntold secret registered hwaits) hdeep

end Law

end Node

/-! ### A registration that comes too late -/

namespace LateSecret

/-- The node in the middle. -/
def us : Address := FixedBytes.replicate 20 1

def payer : Address := FixedBytes.replicate 20 2

def payee : Address := FixedBytes.replicate 20 3

/-- Whom the payment is for. -/
def target : Address := FixedBytes.replicate 20 4

def tokenNetwork : Address := FixedBytes.replicate 20 11

/-- The channel with the payer. -/
def incoming : ChannelId := FixedBytes.replicate 32 21

/-- The channel with the payee. -/
def outgoing : ChannelId := FixedBytes.replicate 32 22

def secret : Secret := FixedBytes.replicate 32 7

/-- One block to reveal a secret, but three to confirm an event. -/
def config : NodeConfig :=
  { NodeConfig.standard us with revealTimeout := 1, settleTimeout := 20, confirmBlocks := 3 }

/-- The two channels, with a deposit in each direction of the payment. -/
def opening : List ChainEvent :=
  [.channelOpened tokenNetwork incoming us payer 20 1,
    .channelOpened tokenNetwork outgoing us payee 20 1,
    .channelNewDeposit tokenNetwork incoming payer 100 1,
    .channelNewDeposit tokenNetwork outgoing us 100 1]

/-- The lock that the payer offers. -/
def lock : Lock := ⟨50, 7, hashSecret secret⟩

def offer : LockedTransfer :=
  ⟨1, payer, target, payer, us, lock, ⟨tokenNetwork, incoming, 1, 0, 50, locksroot [lock]⟩⟩

/-- The channels are known at block four. -/
def funded : List NodeInput :=
  opening.map .push ++ [.block 1, .block 2, .block 3, .block 4]

/-- The payer offers its lock. -/
def offered : List NodeInput := funded ++ [.message payer (.lockedTransfer offer)]

/-- The secret is registered in block five, the last one before the offered lock expires. -/
def registered : List NodeInput :=
  offered ++ [.push (.secretRegistered secret (hashSecret secret) 5)]

/-- The channels of the node at block four, with the payer and the payee. -/
def payerRoute : Route := ⟨payer, incoming, 0, 1, 20, none⟩

def payeeRoute : Route := ⟨payee, outgoing, 100, 1, 20, none⟩

/-- The lock that the node offers in turn. -/
def onward : TransferTerms := { TransferTerms.ofMessage offer with expiration := 6 }

/-- The transfer while it waits for the secret. -/
def waiting : Mediator where
  ourAddress := us
  payerRoute := payerRoute
  received := TransferTerms.ofMessage offer
  routes := ⟨[payerRoute], [], []⟩
  payeeRoute? := some payeeRoute
  offered? := some onward
  secret? := none
  blockNumber := 4
  status := .forwardedToNextHop
  downstreamLockRemoved := false
  payerOnChain := false

/-- What the node makes of the offer of the payer. -/
def reaction : Broker.Reaction :=
  ((Node.fresh config).run funded).broker.reaction (.message payer (.lockedTransfer offer))

/-- The transfer that begins, with its effects, if one does. -/
def begun? : Broker.Reaction → Option (Transfer × List Effect)
  | .start _ t effects => some (t, effects)
  | _ => none

theorem validate_config : config.validate = .ok () := by decide +kernel

theorem begun?_reaction : begun? reaction
    = some (.mediator waiting, [.sendLockedTransfer payee outgoing onward]) := by
  decide +kernel

theorem isOk_sendTransfer : (reaction.base.view.withPartnerChannel outgoing payee
    (·.sendTransfer onward reaction.base.block)).isOk = true := by
  decide +kernel

/-- The transfer is passed on to the payee. -/
theorem get?_offered : ((Node.fresh config).run offered).broker.transfers.get?
    (Transfer.mediator waiting).key = some (.mediator waiting) := by
  have hafter : ((Node.fresh config).run offered).broker = reaction.outcome := by
    rw [offered, Node.run_append, Node.run_message, reaction]
  -- The channel takes the onward lock, so no refusal reaches the transfer that begins.
  have hsent := isOk_sendTransfer
  have hbegun : begun? reaction = _ := begun?_reaction
  rw [hafter]
  cases hreaction : reaction with
  | start b t effects =>
      rw [hreaction] at hbegun hsent
      cases hbegun
      exact Broker.get?_settle_taken rfl hsent
  | _ =>
      rw [hreaction] at hbegun
      cases hbegun

theorem followed_waiting : Node.Followed config ((Node.fresh config).run registered)
    (Transfer.mediator waiting).key waiting := by
  refine Node.followed_of_get? registered ?_
  rw [registered, Node.run_append, Node.run_push]
  exact get?_offered

/-- No event that tells the secret is confirmed before block eight. -/
theorem untold {later : List NodeInput} (hlater : ∀ e, .push e ∉ later) {number : Height}
    (hearly : number < 8) (s : Mediator) (secret' : Secret) (block : Height) :
    Node.registration s secret' block
      ∉ ((Node.fresh config).run (registered ++ later)).handedOut number := by
  intro hmem
  obtain ⟨hpush, hdeep⟩ := Node.push_of_handedOut hmem
  have hevent : secret' = secret ∧ s.received.secretHash = hashSecret secret ∧ block = 5 := by
    simpa [hlater, registered, offered, funded, opening, Node.registration] using hpush
  obtain ⟨-, -, rfl⟩ := hevent
  have height : Word.satAdd 5 3 = (8 : Height) := by decide
  exact Word.not_le.mpr hearly (Nat.le_trans (Nat.le_of_eq (congrArg Word.val height.symm)) hdeep)

/-- A block before the expiration of the received lock changes nothing. -/
theorem stays {later : List NodeInput} (hlater : ∀ e, .push e ∉ later) (number : Height)
    (hearly : number < 7)
    (h : (((Node.fresh config).run registered).fate waiting later).status = .forwardedToNextHop ∧
      (((Node.fresh config).run registered).fate waiting later).offered? = some onward) :
    (((Node.fresh config).run registered).fate waiting (later ++ [.block number])).status
        = .forwardedToNextHop ∧
      (((Node.fresh config).run registered).fate waiting (later ++ [.block number])).offered?
        = some onward := by
  have hfollowed := followed_waiting.run later
  have hexpiration : (((Node.fresh config).run registered).fate waiting later).received.expiration
      = 7 := congrArg TransferTerms.expiration (waiting.run_sameDeal _).received
  have hnumber : number < 8 := Nat.lt_trans hearly (by decide)
  have hidles := hfollowed.idles h.1 (hexpiration ▸ hearly)
    (fun secret' block => Node.run_append (Node.fresh config) registered later ▸
      untold hlater hnumber _ secret' block)
  rw [Node.fate_concat, ← h.2]
  exact hidles

/-- The secret is registered while the offered lock stands, and the mediator still offers it when
    the received lock expires. -/
theorem lost_at_expiration :
    config.validate = .ok () ∧
    ((Node.fresh config).run registered).Awaits waiting secret 5 ∧
    waiting.offered? = some onward ∧ (5 : Height) < onward.expiration ∧
    (∀ later ∈ [[], [.block 5], [.block 5, .block 6]],
      (((Node.fresh config).run registered).fate waiting later).status = .forwardedToNextHop ∧
      (((Node.fresh config).run registered).fate waiting later).offered? = some onward) ∧
    (((Node.fresh config).run registered).fate waiting [.block 5, .block 6, .block 7]).status
      = .expiredBoth := by
  have hstart : (((Node.fresh config).run registered).fate waiting []).status
        = .forwardedToNextHop ∧
      (((Node.fresh config).run registered).fate waiting []).offered? = some onward := ⟨rfl, rfl⟩
  have hfive := stays (by simp) 5 (by decide) hstart
  have hsix := stays (by simp) 6 (by decide) hfive
  have hlast := followed_waiting.run [.block 5, .block 6]
  have hexpired : (Machine.run Mediator.step
      (((Node.fresh config).run registered).fate waiting [.block 5, .block 6])
      ((((Node.fresh config).run registered).run [.block 5, .block 6]).facts
        (Transfer.mediator waiting).key (.block 7))).status = .expiredBoth := hlast.expires hsix.1
    (Nat.le_of_eq (congrArg (fun received : TransferTerms => received.expiration.val)
      (waiting.run_sameDeal _).received))
    (fun secret' block => Node.run_append (Node.fresh config) registered [.block 5, .block 6] ▸
      untold (by simp) (by decide) _ secret' block)
  refine ⟨validate_config, ⟨?_, rfl, ?_⟩, rfl, by decide, ?_, ?_⟩
  · exact followed_waiting.tracked rfl
  · rw [registered, Node.run_append]
    exact (Confirmation.insertEvent_perm _ _).mem_iff.mpr List.mem_cons_self
  · intro later hmem
    simp only [List.mem_cons, List.not_mem_nil, or_false] at hmem
    rcases hmem with rfl | rfl | rfl
    · exact hstart
    · exact hfive
    · exact hsix
  · exact (congrArg Mediator.status
      (Node.fate_concat _ waiting [.block 5, .block 6] (.block 7))).trans hexpired

end LateSecret

end PaymentNetwork

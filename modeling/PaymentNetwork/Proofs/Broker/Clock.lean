import PaymentNetwork.Proofs.Broker.Deeds
import PaymentNetwork.Proofs.Transfer.Deadline

/-!
# The Clock of a Node

After every block, the transfers in progress have locks that have not expired.

Transfers look at the clock when a block visits them. A node visits all of them, in some
order, so none is left in progress whose lock has expired: it was given up, or its lock
was claimed. Between two blocks the clock stands still, and a lock that is offered then
has not expired, because its channel would not have accepted it. A lock that the partner
takes back has expired, so it is never the lock of a transfer in progress.

## Main definitions

* `Broker.Visits`, `Broker.VisitsAll`: Every block visits all transfers in progress.
* `Broker.Punctual`: The transfers in progress have locks that have not expired.

## Theorems

* `Broker.after_block`: Only a block moves the clock.
* `Broker.feedAll_block_inTime`: A transfer that a block visited has a lock that has not
  expired.
* `Broker.run_punctual`: After any inputs, nothing in progress has expired.
-/

namespace PaymentNetwork

namespace Broker

/-- A block visits all transfers in progress. -/
def Visits (b : Broker) : BrokerInput → Prop
  | .block _ order => ∀ k, b.transfers.get? k ≠ none → k ∈ order
  | _ => True

/-- The order that a node uses visits all of them. -/
theorem visits_keys (b : Broker) (number : Height) :
    b.Visits (.block number b.transfers.keys) := by
  intro k hk
  obtain ⟨t, ht⟩ := Option.ne_none_iff_exists'.mp hk
  exact List.mem_map.mpr ⟨(k, t), SortedMap.mem_of_lookup_eq_some ht, rfl⟩

/-- Every block of a run visits all transfers in progress. -/
def VisitsAll : Broker → List BrokerInput → Prop
  | _, [] => True
  | b, i :: rest => b.Visits i ∧ (b.after i).VisitsAll rest

theorem visitsAll_append {b : Broker} {first later : List BrokerInput} :
    b.VisitsAll (first ++ later) ↔ b.VisitsAll first ∧ (b.run first).VisitsAll later := by
  induction first generalizing b with
  | nil => exact (and_iff_right trivial).symm
  | cons i rest ih =>
      rw [List.cons_append, VisitsAll, VisitsAll, ih, run_cons, and_assoc]

/-! ### One block -/

section Block

variable {b : Broker} {number : Height}

theorem closed_prepared : Closed (fun _ _ => True) Transfer.Prepared :=
  ⟨fun _ _ _ _ _ _ _ => trivial, fun _ i h => h.step i⟩

/-- Over, or with a lock that has not expired: neither is changed by a fact. -/
theorem closed_over_or_inTime (number : Height) :
    Closed (fun _ _ => True) (fun t => t.isTerminal = true ∨ t.InTime number) := by
  refine ⟨fun _ _ _ _ _ _ _ => trivial, fun t i h => ?_⟩
  rcases h with hterminal | htime
  · cases t with
    | initiator s => exact Or.inr (fun o ho => nomatch ho)
    | mediator s =>
        have hstep : Transfer.step (.mediator s) i = (.mediator s, []) :=
          congrArg (Prod.map Transfer.mediator id) (Mediator.step_of_isTerminal hterminal i)
        rw [hstep]
        exact Or.inl hterminal
    | target s =>
        have hstep : Transfer.step (.target s) i = (.target s, []) :=
          congrArg (Prod.map Transfer.target id) (Target.step_of_isTerminal hterminal i)
        rw [hstep]
        exact Or.inl hterminal
  · exact Or.inr (htime.step i)

/-- Whoever is still there after the visit has a lock that has not expired. -/
theorem feed_block_inTime (h : Holds (fun _ _ => True) Transfer.Prepared b) {k : TransferKey}
    {t : Transfer} (ht : (b.feed (.block number) k).1.transfers.get? k = some t) :
    t.InTime number := by
  cases ht₀ : b.transfers.get? k with
  | none =>
      rw [feed_of_none ht₀, ht₀] at ht
      cases ht
  | some t₀ =>
      -- The effects of the step may bring refusals, and the transfer reacts to them too.
      have hstep : (t₀.step (.block number)).1.isTerminal = true ∨
          (t₀.step (.block number)).1.InTime number :=
        (Transfer.step_block_cases (h.transfers k t₀ ht₀) number).imp_right (·.step _)
      have hview : b.view.Holds (fun _ _ => True) := h.channels
      have hdrain := (drain_holds (closed_over_or_inTime number) hview b.block hstep
        (t₀.step (.block number)).2).2
      have hself := b.get?_settle_self (t₀.step (.block number)).1 (t₀.step (.block number)).2
      rw [t₀.step_key, h.filed k t₀ ht₀, ← feed_of_some ht₀, ht] at hself
      -- Whoever is over is not kept.
      split at hself
      · cases hself
      · rename_i hprogress
        rw [Option.some.injEq] at hself
        rw [hself]
        exact hdrain.resolve_left hprogress

/-- After a block, a transfer that was visited has a lock that has not expired. -/
theorem feedAll_block_inTime (h : Holds (fun _ _ => True) Transfer.Prepared b)
    {keys : List TransferKey} {k : TransferKey} (hk : k ∈ keys) {t : Transfer}
    (ht : (b.feedAll (.block number) keys).1.transfers.get? k = some t) : t.InTime number := by
  induction keys generalizing b with
  | nil => cases hk
  | cons key rest ih =>
      have hfed := h.feed closed_prepared (.block number) key
      rcases List.mem_cons.mp hk with rfl | hk
      · -- The later visits do not change what the transfer is about.
        have hclosed : Closed (fun _ _ => True) (fun t => t.key = k → t.InTime number) :=
          ⟨fun _ _ _ _ _ _ _ => trivial,
            fun t i htime hkey => (htime ((t.step_key i).symm.trans hkey)).step i⟩
        have hfirst : Holds (fun _ _ => True) (fun t => t.key = k → t.InTime number)
            (b.feed (.block number) k).1 := by
          refine ⟨hfed.channels, hfed.filed, hfed.inProgress, fun k' t' ht' hkey => ?_⟩
          rw [← hfed.filed k' t' ht', hkey] at ht'
          exact feed_block_inTime h ht'
        have hlast := hfirst.feedAll hclosed (.block number) rest
        exact hlast.transfers k t ht (hlast.filed k t ht)
      · exact ih hfed hk ht

/-- Only a block moves the clock, and the transfers are told of it. -/
theorem after_block (b : Broker) (i : BrokerInput) :
    (b.after i).block = b.block ∨
    ∃ number order, ∃ b' : Broker, i = .block number order ∧ (b.after i).block = number ∧
      b'.transfers = b.transfers ∧
      (b.after i).transfers = (b'.feedAll (.block number) order).1.transfers := by
  rcases b.react_cases i with hignores | ⟨b', fact, keys, htells⟩ | ⟨b', t, effects, hbegins⟩
  · exact Or.inl hignores.block
  · cases i with
    | block number order =>
        have hfact : fact = .block number := Option.some.inj htells.tells.symm
        have hkeys := htells.visits number order rfl
        subst hfact hkeys
        exact Or.inr ⟨number, keys, b', rfl, htells.block, htells.before, htells.transfers⟩
    | pay => cases htells.tells
    | chain e =>
        have hfact : fact = .chain e := Option.some.inj htells.tells.symm
        subst hfact
        exact Or.inl htells.block
    | message sender m =>
        refine Or.inl ?_
        rw [htells.block]
        cases m with
        | lockedTransfer => cases htells.tells
        | _ =>
            cases htells.tells
            rfl
  · exact Or.inl hbegins.block

end Block

/-! ### Any run -/

/-- The transfers in progress have locks that have not expired, and the secret if they
    wait for an unlock. -/
structure Punctual (b : Broker) : Prop where
  prepared : ∀ k t, b.transfers.get? k = some t → t.Prepared
  inTime : ∀ k t, b.transfers.get? k = some t → t.InTime b.block

theorem punctual_fresh (view : NetworkView) (block : Height) : (fresh view block).Punctual where
  prepared k t ht := by
    rw [fresh, SortedMap.get?_empty] at ht
    cases ht
  inTime k t ht := by
    rw [fresh, SortedMap.get?_empty] at ht
    cases ht

section Punctual

variable {log : List Offer} {b : Broker}

/-- Nobody waits for an unlock without the secret. -/
theorem Punctual.prepared_after (h : b.Filed) (hpunctual : b.Punctual) (i : BrokerInput) :
    Holds (fun _ _ => True) Transfer.Prepared (b.after i) := by
  have hbefore : Holds (fun _ _ => True) Transfer.Prepared b :=
    { h.holds rfl with transfers := hpunctual.prepared }
  refine hbefore.after closed_prepared ?_
  refine ⟨fun _ _ => trivial, fun _ _ _ _ _ _ _ _ _ _ _ => trivial, ?_,
    fun _ _ _ _ _ _ _ _ _ => trivial, fun _ _ _ _ _ => trivial⟩
  intro sender m view c c' _ _ _ _ _
  exact Transfer.prepared_of_not_awaitsUnlock (beginOffered_start view b.block c'.route m).1

/-- An input leaves nothing in progress that has expired. -/
theorem Punctual.after (h : b.Logged log) (hpunctual : b.Punctual) {i : BrokerInput}
    (hvisits : b.Visits i) : (b.after i).Punctual where
  prepared := (hpunctual.prepared_after h.toFiled i).transfers
  inTime k t ht := by
    rcases b.after_block i with hblock | ⟨number, order, b', rfl, hblock, hbefore, htransfers⟩
    · -- The clock stands still, and what is new was accepted in time.
      intro o ho
      rw [hblock]
      rcases after_comesFrom h i ht o ho with ⟨t₀, ht₀, ho₀, -⟩ |
        ⟨m, tokenNetwork, c, c', haccepts, rfl, -, -⟩
      · exact hpunctual.inTime _ t₀ ht₀ o ho₀
      · have hsound := (h.channels _ c (NetworkView.channel?_of_find? haccepts.found)).sound
        rcases (Channel.accept_eq_ok_iff (hsound .partner)).mp haccepts.accepted with
          ⟨-, htimely, -⟩
        exact htimely
    · -- The clock moved, so only a transfer that was visited is known to be in time.
      have hholds : Holds (fun _ _ => True) Transfer.Prepared b' :=
        { h.toFiled.holds hbefore with
          transfers := fun k t ht => hpunctual.prepared k t (hbefore ▸ ht) }
      rw [htransfers] at ht
      rw [hblock]
      -- Whoever is in progress was so before, and was visited.
      have hprogress : b.transfers.get? k ≠ none := by
        intro hnone
        rw [← hbefore] at hnone
        rw [get?_feedAll_of_none hholds.toFiled hnone] at ht
        cases ht
      exact feedAll_block_inTime hholds (hvisits k hprogress) ht

/-- After any inputs, nothing in progress has expired. -/
theorem run_punctual (h : b.Logged log) (hpunctual : b.Punctual) {inputs : List BrokerInput}
    (hvisits : b.VisitsAll inputs) : (b.run inputs).Punctual := by
  induction inputs generalizing b log with
  | nil => exact hpunctual
  | cons i rest ih =>
      have hlogged := run_logged h [i]
      exact ih hlogged (hpunctual.after h hvisits.1) hvisits.2

end Punctual

end Broker

end PaymentNetwork

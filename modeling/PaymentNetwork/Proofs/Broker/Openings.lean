import PaymentNetwork.Proofs.Broker.Incoming
import PaymentNetwork.Proofs.NetworkView.Openings

/-!
# The Channels of a Broker and Their Openings

A broker changes channels, and none of them ever moves.

The indexes of a view are in order after any events of the ledger. A broker does more than
follow the ledger: its channels accept messages and create them. But where a channel is, and
with whom, was settled when it was opened, and no message touches that. So the indexes of a
broker stay in order whatever reaches it, and everything that was opened is still there.

## Main definitions

* `NetworkView.Evolves`: What was opened is still there.

## Theorems

* `Channel.accept_opening`: A message that is accepted leaves a channel where it is.
* `Broker.after_evolves`: Whatever a broker does, what was opened is still there.
* `Broker.run_indexed`: After any inputs the indexes of the view are in order.
-/

namespace PaymentNetwork

/-! ### A channel stays where it is -/

namespace Channel

section Accepted

variable {c c' : Channel}

/-- An offered lock is filed by the channel that its balance proof names, at the end of the
    partner. -/
theorem eq_of_receiveTransfer {m : LockedTransfer} {now : Height}
    (h : c.receiveTransfer m now = .ok c') : c.id = m.balanceProof.channelId ∧
      c' = { c with partner := c.partner.recommit (.added m.lock) m.balanceProof } := by
  unfold receiveTransfer at h
  rw [ite_error_eq_ok_iff, ite_error_eq_ok_iff, ite_error_eq_ok_iff] at h
  replace h := h.2.2.2
  dsimp only at h
  split at h
  · cases h
  · split at h
    · cases h
    · rename_i hproof
      rw [ite_error_eq_ok_iff, Except.ok.injEq] at h
      exact ⟨(checkProof_eq_none_iff.mp hproof).1.symm, h.2.symm⟩

theorem receiveTransfer_opening {m : LockedTransfer} {now : Height}
    (h : c.receiveTransfer m now = .ok c') : c'.opening = c.opening := by
  rw [(eq_of_receiveTransfer h).2]
  rfl

theorem receiveUnlock_opening {m : Unlock} (h : c.receiveUnlock m = .ok c') :
    c'.opening = c.opening := by
  unfold receiveUnlock at h
  rw [ite_error_eq_ok_iff] at h
  replace h := h.2
  dsimp only at h
  split at h
  · cases h
  · split at h
    · cases h
    · split at h
      · cases h
      · cases h
        rfl

theorem receiveRemoval_opening {m : LockRemoval} {now : Height}
    (h : c.receiveRemoval m now = .ok c') : c'.opening = c.opening := by
  unfold receiveRemoval at h
  rw [ite_error_eq_ok_iff] at h
  replace h := h.2
  dsimp only at h
  split at h
  · cases h
  · rw [ite_error_eq_ok_iff] at h
    replace h := h.2
    split at h
    · cases h
    · cases h
      rfl

/-- A message that is accepted leaves a channel where it is. -/
theorem accept_opening {m : ChannelMessage} {now : Height} (h : c.accept m now = .ok c') :
    c'.opening = c.opening := by
  cases m with
  | transfer m => exact receiveTransfer_opening h
  | unlock m => exact receiveUnlock_opening h
  | removal m => exact receiveRemoval_opening h

end Accepted

end Channel

namespace NetworkView

/-- What was opened is still there, and the indexes are in order. -/
def Evolves (v v' : NetworkView) : Prop :=
  ∀ opened, v.Indexed opened → ∃ opened', v'.Indexed opened' ∧ opened ⊆ opened'

section Evolves

variable {v v' v'' : NetworkView}

theorem Evolves.refl (v : NetworkView) : v.Evolves v :=
  fun opened h => ⟨opened, h, List.Subset.refl _⟩

theorem Evolves.trans (h : v.Evolves v') (h' : v'.Evolves v'') : v.Evolves v'' := by
  intro opened hindexed
  obtain ⟨opened', hindexed', hsub⟩ := h opened hindexed
  obtain ⟨opened'', hindexed'', hsub'⟩ := h' opened' hindexed'
  exact ⟨opened'', hindexed'', List.Subset.trans hsub hsub'⟩

theorem SameChannels.evolves (h : v.SameChannels v') : v.Evolves v' :=
  fun opened hindexed => ⟨opened, hindexed.congr h, List.Subset.refl _⟩

theorem evolves_putChannel {tokenNetwork : Address} {id : ChannelId} {c c' : Channel}
    (hfind : v.find? id = some (tokenNetwork, c)) (heq : c'.opening = c.opening) :
    v.Evolves (v.putChannel tokenNetwork id c') :=
  fun opened h => ⟨opened, h.putChannel hfind heq, List.Subset.refl _⟩

theorem Creates.evolves (h : v.Creates v') : v.Evolves v' := by
  induction h with
  | refl => exact .refl v
  | create _ found created ih =>
      obtain ⟨e, rfl⟩ := Channel.create_ours created
      exact ih.trans (evolves_putChannel found rfl)

theorem evolves_apply (v : NetworkView) (e : ChainEvent) : v.Evolves (v.apply e) := by
  intro opened h
  refine ⟨_, h.apply e, ?_⟩
  cases e.opening? v.ourAddress with
  | none => exact List.Subset.refl _
  | some o =>
      -- A place that was opened before keeps its first opening.
      change opened ⊆ Opening.record opened o
      unfold Opening.record
      split
      · exact List.Subset.refl _
      · exact List.subset_cons_self _ _

end Evolves

end NetworkView

namespace Broker

/-- Whatever reaches a broker, what was opened is still there. -/
theorem after_evolves (b : Broker) (i : BrokerInput) :
    b.view.Evolves (b.after i).view := by
  rcases b.view_after_creates i with
    hcreates | ⟨m, tokenNetwork, c, c', haccepts, hcreates⟩ | ⟨e, rfl, hcreates⟩
  · exact hcreates.evolves
  · exact (NetworkView.evolves_putChannel haccepts.found
      (Channel.accept_opening haccepts.accepted)).trans hcreates.evolves
  · exact (b.view.evolves_apply e).trans hcreates.evolves

/-- After any inputs the indexes of the view are those of some openings. -/
theorem run_indexed (ourAddress : Address) (revealTimeout block : Height)
    (inputs : List BrokerInput) :
    ∃ opened, ((fresh (NetworkView.fresh ourAddress revealTimeout) block).run
      inputs).view.Indexed opened := by
  -- The openings grow on the way, so the induction is about how views evolve.
  suffices hrun : ∀ b : Broker, b.view.Evolves (b.run inputs).view by
    obtain ⟨opened, hindexed, -⟩ := hrun (fresh (NetworkView.fresh ourAddress revealTimeout) block)
      [] (NetworkView.indexed_fresh ourAddress revealTimeout)
    exact ⟨opened, hindexed⟩
  intro b
  induction inputs generalizing b with
  | nil => exact .refl b.view
  | cons i rest ih => exact (b.after_evolves i).trans (ih (b.after i))

end Broker

end PaymentNetwork

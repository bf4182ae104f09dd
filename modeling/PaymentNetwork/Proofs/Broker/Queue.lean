import PaymentNetwork.Proofs.Broker.Reaction

/-!
# A Queue of Effects

What is carried out between the step of a transfer and its end.

Effects are carried out one by one, and the channels change in between. So what a channel
says to an effect depends on the effects before, and on the refusals among them. `drain`
only shows what comes of all of them. Here its work is cut into steps: each carries out
the effect that is first, and what is refused puts the effects that follow from it at the
end. The last step leaves nothing, and the view and the transfer that `drain` returns.

An attempt is an effect that gets its turn, with the view at that moment. It is what a
statement about all effects of a broker is about, refused or not.

## Main definitions

* `Queue`, `Queue.Step`, `Queue.Reaches`: The work of `drain`, step by step.
* `Queue.Attempts`, `Broker.TellAttempts`, `Broker.Attempts`: Effects that get their turn,
  in a queue, while a fact is told, and because of an input.

## Theorems

* `Queue.drain_reaches`: The work ends with what `drain` returns.
* `Queue.Reaches.invariant`: What every step keeps is kept by all.
-/

namespace PaymentNetwork

/-- Work that is left: the view and the transfer so far, and the effects that wait. -/
structure Queue where
  view : NetworkView
  transfer : Transfer
  effects : List Effect

namespace Queue

open Broker

/-- The first effect is carried out. -/
inductive Step (block : Height) : Queue → Queue → Prop where
  /-- The channel created the locked transfer. -/
  | sent {view view' : NetworkView} {t : Transfer} {recipient : Address} {channelId : ChannelId}
      {terms : TransferTerms} {rest : List Effect} {m : LockedTransfer}
      (hsend : view.withPartnerChannel channelId recipient (·.sendTransfer terms block)
        = .ok (m, view')) :
      Step block ⟨view, t, .sendLockedTransfer recipient channelId terms :: rest⟩
        ⟨view', t, rest⟩
  /-- The channel refused it, and the transfer reacts to that. -/
  | refused {view : NetworkView} {t : Transfer} {recipient : Address} {channelId : ChannelId}
      {terms : TransferTerms} {rest : List Effect} {e : ChannelError} {refusal : RouteRefusal}
      (hsend : view.withPartnerChannel channelId recipient (·.sendTransfer terms block)
        = .error e)
      (hrefusal : refusal = ⟨terms.secretHash, channelId, e.describe⟩) :
      Step block ⟨view, t, .sendLockedTransfer recipient channelId terms :: rest⟩
        ⟨view, (t.step (.routeRefused refusal)).1, rest ++ (t.step (.routeRefused refusal)).2⟩
  /-- Any other effect concerns the view alone. -/
  | performed {view : NetworkView} {t : Transfer} {effect : Effect} {rest : List Effect}
      (hother : effect.isLockedTransfer = false) :
      Step block ⟨view, t, effect :: rest⟩ ⟨(perform view block effect).view, t, rest⟩

/-- Some effects are carried out. -/
inductive Reaches (block : Height) : Queue → Queue → Prop where
  | refl (q : Queue) : Reaches block q q
  | step {q q' q'' : Queue} (h : Step block q q') (later : Reaches block q' q'') :
      Reaches block q q''

/-- An effect gets its turn, and the view is this one then. -/
def Attempts (block : Height) (q : Queue) (view : NetworkView) (e : Effect) : Prop :=
  ∃ t rest, Reaches block q ⟨view, t, e :: rest⟩

/-- The work ends with what `drain` returns. -/
theorem drain_reaches (view : NetworkView) (block : Height) (t : Transfer)
    (effects : List Effect) :
    Reaches block ⟨view, t, effects⟩
      ⟨(drain view block t effects).2.view, (drain view block t effects).1, []⟩ := by
  fun_induction drain view block t effects with
  | case1 view t => exact .refl _
  | case2 view t recipient channelId terms rest m view' hsend t' o hdrain ih =>
      rw [hdrain] at ih
      exact .step (.sent hsend) ih
  | case3 view t recipient channelId terms rest e hsend refusal ih =>
      exact .step (.refused hsend rfl) ih
  | case4 view t effect rest hne done t' o hdrain ih =>
      rw [hdrain] at ih
      refine .step (.performed ?_) ih
      cases effect with
      | sendLockedTransfer recipient channelId terms => exact absurd rfl (hne _ _ _)
      | _ => rfl

/-- What every step keeps is kept by all of them. -/
theorem Reaches.invariant {block : Height} {I : Queue → Prop}
    (hstep : ∀ q q', I q → Step block q q' → I q') {q q' : Queue} (h : Reaches block q q')
    (hi : I q) : I q' := by
  induction h with
  | refl q => exact hi
  | step h later ih => exact ih (hstep _ _ hi h)

end Queue

namespace Broker

/-- An effect gets its turn while the transfers of some keys are told a fact, one after
    the other. -/
def TellAttempts (fact : Input) (view : NetworkView) (e : Effect) :
    Broker → List TransferKey → Prop
  | _, [] => False
  | b, key :: keys =>
    (∃ t, b.transfers.get? key = some t ∧
      Queue.Attempts b.block ⟨b.view, (t.step fact).1, (t.step fact).2⟩ view e) ∨
    TellAttempts fact view e (b.feed fact key).1 keys

/-- An effect of some transfer gets its turn because of an input. -/
def Attempts (b : Broker) (i : BrokerInput) (view : NetworkView) (e : Effect) : Prop :=
  match b.reaction i with
  | .tell b' fact keys => TellAttempts fact view e b' keys
  | .start b' t effects => Queue.Attempts b'.block ⟨b'.view, t, effects⟩ view e
  | .rest _ => False

end Broker

end PaymentNetwork

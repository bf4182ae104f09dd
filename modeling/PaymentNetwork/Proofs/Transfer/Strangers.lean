import PaymentNetwork.Proofs.Transfer.Forwarding
import PaymentNetwork.Proofs.Transfer.Pledge

/-!
# Peers That a Transfer Listens To

Which messages reach a transfer without a channel in between, and from whom it takes them.

Three messages are not checked by any channel: a request for a secret, a secret, and a lock
that goes back. A transfer asks who sent them. An initiator and a mediator listen to the
node that their lock goes to, which is one of the nodes that the candidate routes lead to,
and routes are only ever used up. Everybody else is a stranger, and a stranger gets an
answer in two cases only. A target takes the secret from whoever has it, and an initiator
gives the secret away to the target of the payment, which need not be next to us.

## Main definitions

* `Transfer.nextHops`: The nodes that the lock goes to, or may go to yet.
* `Input.speaker?`: Who sent a message that no channel checks.
* `Transfer.Invites`: The two messages that are taken from strangers.
* `Shrugged`: Nothing came of a fact but notices.

## Theorems

* `Transfer.step_nextHops`: No fact adds a next hop.
* `Transfer.step_of_stranger`: An uninvited message of a stranger changes nothing.
* `Transfer.step_quiet_of_stranger`: No message of a stranger asks the channels for
  anything.
-/

namespace PaymentNetwork

/-- Who sent a message that no channel checks. -/
def Input.speaker? : Input → Option Address
  | .secretRequested r => some r.sender
  | .secretRevealed r => some r.sender
  | .lockDisposed d => some d.sender
  | _ => none

/-- Is the effect a notice? -/
def Effect.isNotice : Effect → Bool
  | .notice .. => true
  | _ => false

/-- Nothing came of a fact but notices. -/
structure Shrugged {σ : Type} (s : σ) (r : σ × List Effect) : Prop where
  same : r.1 = s
  notices : r.2.all Effect.isNotice = true

namespace Shrugged

variable {σ τ : Type} {s : σ} {r : σ × List Effect}

theorem silent (s : σ) : Shrugged s (s, []) := ⟨rfl, rfl⟩

theorem notice (s : σ) (level : NoticeLevel) (info : String) :
    Shrugged s (s, [.notice level info]) :=
  ⟨rfl, rfl⟩

theorem map (h : Shrugged s r) (f : σ → τ) : Shrugged (f s) (r.map f id) :=
  ⟨congrArg f h.same, h.notices⟩

/-- A notice leaves the channels alone. -/
theorem quiet (h : Shrugged s r) : r.2.all Effect.isQuiet = true := by
  refine List.all_eq_true.mpr (fun e he => ?_)
  have hnotice := List.all_eq_true.mp h.notices e he
  cases e with
  | notice => rfl
  | _ => cases hnotice

end Shrugged

/-! ### Next hops -/

/-- The node of the route in use, if there is one, and those of the routes that are left. -/
def Routes.hops (rs : Routes) (current? : Option Route) : List Address :=
  (current?.toList ++ rs.available).map Route.node

/-- The route that is taken was there before. -/
theorem Routes.hops_popBest (rs : Routes) (usable : Route → Bool) (current? : Option Route) :
    (rs.popBest usable).2.hops (rs.popBest usable).1 ⊆ rs.hops current? := by
  have hrest : (rs.popBest usable).1.toList ++ (rs.popBest usable).2.available
      = rs.available.dropWhile (fun r => !usable r) := by
    unfold popBest
    cases rs.available.dropWhile (fun r => !usable r) with
    | nil => rfl
    | cons r rest => rfl
  -- The route that is taken heads those that are left, and before they were all available.
  rw [hops, hops, hrest]
  exact List.map_subset _
    (List.Subset.trans (List.dropWhile_subset _) (List.subset_append_right _ _))

namespace Initiator

variable (s : Initiator)

/-- The nodes that the lock goes to, or may go to yet. -/
def hops : List Address := s.routes.hops s.route?

theorem tryNextRoute_hops : s.tryNextRoute.1.hops ⊆ s.hops := by
  have hpop := s.routes.hops_popBest s.usable s.route?
  unfold tryNextRoute
  split
  · rename_i r routes heq
    rw [heq] at hpop
    exact hpop
  · rename_i routes heq
    rw [heq] at hpop
    exact hpop

theorem abandonRoute_hops : s.abandonRoute.1.hops ⊆ s.hops := by
  unfold abandonRoute
  split
  · rename_i r hr
    -- What is canceled is not left, so the routes to go on with are the same.
    refine List.Subset.trans (tryNextRoute_hops _) ?_
    exact List.map_subset _ (List.subset_append_right _ _)
  · exact s.tryNextRoute_hops

theorem onBlock_hops (number : Height) : (s.onBlock number).1.hops = s.hops := by
  have hregister : ∀ s : Initiator, s.registerSecret.1.hops = s.hops := by
    intro s
    unfold registerSecret
    split
    · split
      · rfl
      · rfl
    · rfl
  have hexpire : ∀ s : Initiator, s.expire.1.hops = s.hops := by
    intro s
    unfold expire
    split
    · rfl
    · rfl
  exact (hexpire _).trans (hregister _)

theorem onSecretRequest_hops (r : SecretRequested) : (s.onSecretRequest r).1.hops = s.hops := by
  unfold onSecretRequest
  dsimp only
  split
  · split
    · rfl
    · rfl
  · rfl

theorem onSecretReveal_hops (r : SecretRevealed) : (s.onSecretReveal r).1.hops = s.hops := by
  unfold onSecretReveal
  split
  · split
    · rfl
    · split
      · rfl
      · rfl
  · rfl

theorem onChain_hops (e : ChainEvent) : (s.onChain e).1.hops = s.hops := by
  unfold onChain
  split
  · split
    · rfl
    · rfl
  · split
    · rfl
    · rfl
  · rfl

theorem step_hops (i : Input) : (s.step i).1.hops ⊆ s.hops := by
  unfold step
  split
  · exact List.Subset.refl _
  · split
    · exact s.onBlock_hops _ ▸ List.Subset.refl _
    · unfold onRefusal
      split
      · exact s.abandonRoute_hops
      · exact List.Subset.refl _
    · exact s.onSecretRequest_hops _ ▸ List.Subset.refl _
    · unfold onDisposal
      split
      · exact List.Subset.refl _
      · split
        · exact List.Subset.refl _
        · exact s.abandonRoute_hops
    · exact List.Subset.refl _
    · exact s.onSecretReveal_hops _ ▸ List.Subset.refl _
    · exact s.onChain_hops _ ▸ List.Subset.refl _
    · exact List.Subset.refl _

theorem start_hops (a : StartInitiator) (block : Height) :
    (start a block).1.hops ⊆ a.candidates.map Route.node := by
  have hcandidates : ∀ s : Initiator, s.routes = Routes.ofCandidates a.candidates →
      s.route? = none → s.hops ⊆ a.candidates.map Route.node := by
    intro s hroutes hroute
    rw [hops, hroutes, hroute]
    exact List.map_subset _ (sortBy_perm _ a.candidates).subset
  unfold start
  dsimp only
  split
  · exact hcandidates _ rfl rfl
  · split
    · exact hcandidates _ rfl rfl
    · exact List.Subset.trans (tryNextRoute_hops _) (hcandidates _ rfl rfl)

end Initiator

namespace Mediator

variable (s : Mediator)

/-- The nodes that the lock goes to, or may go to yet. -/
def hops : List Address := s.routes.hops s.payeeRoute?

theorem tryNextRoute_hops : s.tryNextRoute.1.hops ⊆ s.hops := by
  have hpop := s.routes.hops_popBest s.usable s.payeeRoute?
  unfold tryNextRoute
  split
  · rename_i r routes heq
    rw [heq] at hpop
    exact hpop
  · rename_i routes heq
    rw [heq] at hpop
    exact hpop

theorem abandonRoute_hops : s.abandonRoute.1.hops ⊆ s.hops := by
  unfold abandonRoute
  split
  · rename_i r hr
    refine List.Subset.trans (tryNextRoute_hops _) ?_
    exact List.map_subset _ (List.subset_append_right _ _)
  · exact s.tryNextRoute_hops

/-- Without a decision about the routes, the next hops stay. -/
theorem hops_of_keeps {s s' : Mediator} (hroutes : s'.routes = s.routes)
    (hoffer : s.KeepsOffer s') : s'.hops = s.hops := by
  rw [hops, hops, Routes.hops, Routes.hops, List.map_append, List.map_append,
    ← Option.toList_map, hoffer.payee, Option.toList_map, hroutes]

theorem step_hops (i : Input) : (s.step i).1.hops ⊆ s.hops := by
  by_cases hfails : s.Reroutes i
  · rw [step_of_reroutes hfails]
    exact s.abandonRoute_hops
  · rw [hops_of_keeps (step_keepsRoutes hfails).routes (step_keepsOffer hfails)]
    exact List.Subset.refl _

theorem start_hops (a : StartMediator) (block : Height) :
    (start a block).1.hops ⊆ a.candidates.map Route.node :=
  List.Subset.trans (tryNextRoute_hops _)
    (List.map_subset _ (sortBy_perm _ a.candidates).subset)

end Mediator

namespace Transfer

/-- The nodes that the lock of the transfer goes to, or may go to yet. A target sends no
    lock. -/
def nextHops : Transfer → List Address
  | initiator s => s.hops
  | mediator s => s.hops
  | target _ => []

/-- No fact adds a next hop. -/
theorem step_nextHops (t : Transfer) (i : Input) : (t.step i).1.nextHops ⊆ t.nextHops := by
  cases t with
  | initiator s => exact s.step_hops i
  | mediator s => exact s.step_hops i
  | target s => exact List.Subset.refl _

/-- The transfer takes the message from anybody: the secret that a target asked for, or the
    request that the target of our payment has to make. -/
def Invites : Transfer → Input → Prop
  | target s, .secretRevealed r =>
    s.status = .requestedSecret ∧ r.secretHash = s.terms.secretHash
  | initiator s, .secretRequested r =>
    s.status = .waitingSecretRequest ∧ Initiator.isValidRequest s.terms r = true
  | _, _ => False

end Transfer

/-! ### Strangers -/

section Stranger

variable {i : Input} {stranger : Address}

namespace Initiator

variable {s : Initiator}

/-- The lock does not go to a stranger. -/
theorem route_node_ne (h : stranger ∉ s.hops) {r : Route} (hr : s.route? = some r) :
    r.node ≠ stranger := by
  rintro rfl
  rw [hops, Routes.hops, hr] at h
  exact h (List.mem_map_of_mem (List.mem_cons_self))

theorem onSecretReveal_of_stranger {r : SecretRevealed} (h : r.sender ∉ s.hops) :
    s.onSecretReveal r = (s, []) := by
  unfold onSecretReveal
  split
  · rename_i route hroute
    rw [if_pos (route_node_ne h hroute)]
  · rfl

theorem onDisposal_of_stranger {d : LockDisposed} (h : d.sender ∉ s.hops) :
    s.onDisposal d = (s, []) := by
  have hgoes : s.goesTo d.sender d.channelId = false := by
    unfold goesTo
    split
    · rename_i route hroute
      rw [decide_eq_false (route_node_ne h hroute), Bool.false_and]
    · rfl
  rw [onDisposal, if_pos (Or.inr (by rw [hgoes]; rfl))]

theorem onSecretRequest_of_invalid {r : SecretRequested}
    (h : isValidRequest s.terms r = false) : Shrugged s (s.onSecretRequest r) := by
  unfold onSecretRequest
  dsimp only
  split
  · rw [if_neg (Bool.eq_false_iff.mp h)]
    exact Shrugged.notice s _ _
  · exact Shrugged.notice s _ _

/-- The answer to a request is a message without a balance proof. -/
theorem step_secretRequested_quiet (s : Initiator) (r : SecretRequested) :
    (s.step (.secretRequested r)).2.all Effect.isQuiet = true := by
  cases hstatus : s.status with
  | waitingSecretRequest =>
      have hstep : s.step (.secretRequested r) = s.onSecretRequest r := by
        unfold step
        rw [hstatus]
        rfl
      rw [hstep, onSecretRequest]
      split
      · split
        · rfl
        · rfl
      · rfl
  | _ =>
      unfold step
      rw [hstatus]
      rfl

theorem step_of_stranger (hspeaks : i.speaker? = some stranger) (h : stranger ∉ s.hops)
    (hinvited : ¬ (Transfer.initiator s).Invites i) : Shrugged s (s.step i) := by
  unfold step
  split
  · exact Shrugged.silent s
  · split
    · cases hspeaks
    · cases hspeaks
    · rename_i r hstatus
      -- A request that fits is an invitation, whoever it comes from.
      refine onSecretRequest_of_invalid (Bool.eq_false_iff.mpr (fun hvalid => ?_))
      exact hinvited ⟨hstatus, hvalid⟩
    · cases hspeaks
      rw [onDisposal_of_stranger h]
      exact Shrugged.silent s
    · exact Shrugged.notice s _ _
    · cases hspeaks
      rw [onSecretReveal_of_stranger h]
      exact Shrugged.silent s
    · cases hspeaks
    · exact Shrugged.silent s

end Initiator

namespace Mediator

variable {s : Mediator}

theorem isPayee_of_stranger (h : stranger ∉ s.hops) : s.isPayee stranger = false := by
  unfold isPayee
  split
  · rename_i r hr
    refine decide_eq_false (fun hnode => h ?_)
    rw [hops, Routes.hops, hr, ← hnode]
    exact List.mem_map_of_mem List.mem_cons_self
  · rfl

/-- A mediator invites nobody. -/
theorem step_of_stranger (hspeaks : i.speaker? = some stranger) (h : stranger ∉ s.hops) :
    Shrugged s (s.step i) := by
  unfold step
  split
  · exact Shrugged.silent s
  · split
    · cases hspeaks
    · cases hspeaks
    · cases hspeaks
      rw [onDisposal, isPayee_of_stranger h]
      exact Shrugged.silent s
    · exact Shrugged.notice s _ _
    · cases hspeaks
      rw [onSecretReveal, isPayee_of_stranger h]
      exact Shrugged.silent s
    · cases hspeaks
    · cases hspeaks
    · exact Shrugged.silent s

end Mediator

namespace Target

variable {s : Target}

theorem step_of_uninvited (hspeaks : i.speaker? = some stranger)
    (hinvited : ¬ (Transfer.target s).Invites i) : Shrugged s (s.step i) := by
  unfold step
  split
  · exact Shrugged.silent s
  · split
    · cases hspeaks
    · rename_i r hstatus
      rw [onSecretReveal, if_pos (fun hhash => hinvited ⟨hstatus, hhash⟩)]
      exact Shrugged.notice s _ _
    · cases hspeaks
    · cases hspeaks
    · exact Shrugged.silent s

end Target

namespace Transfer

variable {t : Transfer}

/-- An uninvited message of a stranger changes nothing. -/
theorem step_of_stranger (hspeaks : i.speaker? = some stranger) (h : stranger ∉ t.nextHops)
    (hinvited : ¬ t.Invites i) : Shrugged t (t.step i) := by
  cases t with
  | initiator s => exact (Initiator.step_of_stranger hspeaks h hinvited).map initiator
  | mediator s => exact (Mediator.step_of_stranger hspeaks h).map mediator
  | target s => exact (Target.step_of_uninvited hspeaks hinvited).map target

/-- No message of a stranger asks the channels for anything. Not even an invited one
    does. -/
theorem step_quiet_of_stranger (hspeaks : i.speaker? = some stranger)
    (h : stranger ∉ t.nextHops) : (t.step i).2.all Effect.isQuiet = true := by
  by_cases hinvited : t.Invites i
  · cases t with
    | initiator s =>
        cases i with
        | secretRequested r =>
            exact s.step_secretRequested_quiet r
        | _ => cases hinvited
    | mediator s => cases hinvited
    | target s => exact s.step_quiet i
  · exact (step_of_stranger hspeaks h hinvited).quiet

end Transfer

end Stranger

end PaymentNetwork

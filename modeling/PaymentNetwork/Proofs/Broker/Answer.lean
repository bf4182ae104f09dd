import PaymentNetwork.Proofs.Broker.Openings
import PaymentNetwork.Proofs.Broker.Search
import PaymentNetwork.Proofs.Broker.Strangers

/-!
# The Answer to an Offered Lock

A peer that offers us a lock hears back from us once, or not at all.

A lock that its channel files is bound until somebody lets go of it. So whoever filed it has
to do something about it at once: ask for the secret, pass the lock on, or give it back. There
are many ways through the broker at this point. We may be the target or not, there may be no
time left, a transfer on the same secret may be in progress already, and a lock that is passed
on may be refused by any number of channels before one takes it or none does. All of them end
in one message, and while channels refuse nothing is sent.

A lock that its channel does not file is nobody's concern, and nothing happens but a notice.

## Main definitions

* `Broker.Files`: The channel of an offered lock files it.
* `Action.outputs`: What is done, apart from reports.
* `Broker.Answers`: The message that answers an offered lock, and the channels after it.
* `Broker.AnswerLaw`: What comes of an offered lock.

## Theorems

* `Broker.receiveTransfer_of_not_files`, `Broker.Files.receiveTransfer_eq`: What is made of an
  offer, in the two cases.
* `Broker.settle_answers`: A transfer that begins with an offered lock answers it.
* `Broker.answerLaw`: The law for every broker and every offer.
-/

namespace PaymentNetwork

namespace Action

/-- What is done, apart from reports to the user. -/
def outputs (actions : List Action) : List Action := actions.filter fun a => !a.isReport

theorem outputs_of_reports {actions : List Action} (h : ∀ a ∈ actions, a.isReport = true) :
    outputs actions = [] := by
  refine List.filter_eq_nil_iff.mpr (fun a ha => ?_)
  rw [h a ha]
  decide

end Action

namespace Broker

/-! ### Filed or not -/

/-- The offer is from its sender and to us, and the channel that it names is one with the
    sender and files the lock. -/
structure Files (b : Broker) (sender : Address) (m : LockedTransfer) (tokenNetwork : Address)
    (c c' : Channel) : Prop where
  fromSender : m.sender = sender
  toUs : m.recipient = b.view.ourAddress
  found : b.view.find? m.balanceProof.channelId = some (tokenNetwork, c)
  partner : c.partner.address = sender
  filed : c.receiveTransfer m b.block = .ok c'

/-- The broker with the offer filed in its channel. -/
def filed (b : Broker) (m : LockedTransfer) (tokenNetwork : Address) (c' : Channel) : Broker :=
  { b with view := b.view.putChannel tokenNetwork m.balanceProof.channelId c' }

/-- The key of the transfer that an offered lock belongs to. -/
def offerKey (b : Broker) (m : LockedTransfer) : TransferKey :=
  ⟨if m.target = b.view.ourAddress then .target else .mediator, m.lock.secretHash⟩

section Offer

variable {b : Broker} {sender : Address} {m : LockedTransfer} {tokenNetwork : Address}
  {c c' : Channel}

/-- An offer that no channel files changes nothing, and a notice is all that comes of it. -/
theorem receiveTransfer_of_not_files
    (h : ∀ tokenNetwork c c', ¬ b.Files sender m tokenNetwork c c') :
    ∃ info, b.receiveTransfer sender m = (b, [notice .warning info]) := by
  unfold receiveTransfer
  by_cases hparties : m.sender ≠ sender ∨ m.recipient ≠ b.view.ourAddress
  · rw [if_pos hparties]
    exact ⟨_, rfl⟩
  · rw [if_neg hparties]
    rw [not_or, Decidable.not_not, Decidable.not_not] at hparties
    dsimp only
    split
    · exact ⟨_, rfl⟩
    · rename_i payerRoute view haccept
      obtain ⟨tokenNetwork, c, c', hfind, hpartner, hop, -⟩ :=
        NetworkView.withPartnerChannel_eq_ok_iff.mp haccept
      obtain ⟨c₁, hfiled, -⟩ := map_eq_ok_iff.mp hop
      exact absurd ⟨hparties.1, hparties.2, hfind, hpartner, hfiled⟩ (h tokenNetwork c c₁)

theorem beginOffered_key (view : NetworkView) (block : Height) (payerRoute : Route)
    (m : LockedTransfer) : (beginOffered view block payerRoute m).1.key
      = ⟨if m.target = view.ourAddress then .target else .mediator, m.lock.secretHash⟩ := by
  unfold beginOffered
  split
  · unfold Target.start
    dsimp only
    split
    · rfl
    · rfl
  · unfold Mediator.start Mediator.tryNextRoute
    split
    · rfl
    · rfl

/-- An offer that is filed goes back if its transfer is in progress, and begins one
    otherwise. -/
theorem Files.receiveTransfer_eq (h : b.Files sender m tokenNetwork c c') :
    let b' := b.filed m tokenNetwork c'
    let begun := beginOffered b'.view b.block c'.route m
    b.receiveTransfer sender m =
      if b.transfers.contains (b.offerKey m) then
        (b', [.report (.notice (.ofLockedTransfer m)),
          notice .warning ("transfer " ++ m.lock.secretHash.toText
            ++ " is already in progress, disposing the new lock"),
          .send sender (.disposal ⟨c'.route.channelId, m.lock⟩)])
      else
        ((b'.settle begun.1 begun.2).1,
          .report (.notice (.ofLockedTransfer m)) :: (b'.settle begun.1 begun.2).2) := by
  intro b' begun
  have hparties : ¬ (m.sender ≠ sender ∨ m.recipient ≠ b.view.ourAddress) := by
    rintro (hne | hne)
    · exact hne h.fromSender
    · exact hne h.toUs
  have haccept : b.view.withPartnerChannel m.balanceProof.channelId sender
      (fun c => (c.receiveTransfer m b.block).map fun c' => (c'.route, c'))
      = .ok (c'.route, b'.view) :=
    NetworkView.withPartnerChannel_eq_ok_iff.mpr
      ⟨tokenNetwork, c, c', h.found, h.partner, by rw [h.filed]; rfl, rfl⟩
  have hkey : (⟨begun.1.role, begun.1.secretHash⟩ : TransferKey) = b.offerKey m :=
    beginOffered_key b'.view b.block c'.route m
  rw [receiveTransfer, if_neg hparties]
  simp only [haccept]
  -- The transfer is made before it is known whether it may begin.
  unfold begin?
  rw [show beginOffered b'.view b.block c'.route m = (begun.1, begun.2) from rfl]
  dsimp only
  rw [hkey]
  by_cases hprogress : b.transfers.contains (b.offerKey m) = true
  · simp only [if_pos hprogress]
    rfl
  · simp only [if_neg hprogress]
    rfl

/-- The channel that filed an offer is the one with the sender that the offer names. -/
theorem Files.channelId (h : b.Files sender m tokenNetwork c c') :
    c'.route.channelId = m.balanceProof.channelId :=
  (congrArg Opening.channelId (Channel.receiveTransfer_opening h.filed)).trans
    (Channel.eq_of_receiveTransfer h.filed).1

theorem Files.node (h : b.Files sender m tokenNetwork c c') : c'.route.node = sender :=
  (congrArg Opening.partner (Channel.receiveTransfer_opening h.filed)).trans h.partner

end Offer

/-! ### One answer -/

/-- The message that answers an offered lock, sent from a view and with the view after it. -/
inductive Answers (b : Broker) (sender : Address) (m : LockedTransfer) (view : NetworkView) :
    Action → NetworkView → Prop where
  /-- We are the target, and the initiator is asked for the secret. -/
  | requests (target : m.target = b.view.ourAddress) :
      Answers b sender m view
        (.send m.initiator (.secretRequest ⟨m.paymentId, m.lock.secretHash, m.lock.amount⟩)) view
  /-- We are not, and a channel with another partner sends a lock of the same amount on the
      same hash, for the same payment. It ends before the offered one. -/
  | forwards (other : m.target ≠ b.view.ourAddress) {tokenNetwork : Address} {id : ChannelId}
      {d d' : Channel} {terms : TransferTerms} {m' : LockedTransfer}
      (found : view.find? id = some (tokenNetwork, d)) (onward : d.partner.address ≠ sender)
      (sent : d.sendTransfer terms b.block = .ok (m', d'))
      (amount : m'.lock.amount = m.lock.amount)
      (secretHash : m'.lock.secretHash = m.lock.secretHash)
      (expiration : m'.lock.expiration < m.lock.expiration)
      (payment : m'.paymentId = m.paymentId ∧ m'.initiator = m.initiator ∧ m'.target = m.target) :
      Answers b sender m view (.send d.partner.address (.lockedTransfer m'))
        (view.putChannel tokenNetwork id d')
  /-- The lock goes back. -/
  | disposes :
      Answers b sender m view (.send sender (.disposal ⟨m.balanceProof.channelId, m.lock⟩)) view

section Settle

variable {b : Broker} {sender : Address} {m : LockedTransfer} {tokenNetwork : Address}
  {c c' : Channel}

theorem settle_snd (b : Broker) (t : Transfer) (effects : List Effect) :
    (b.settle t effects).2 = (drain b.view b.block t effects).2.actions := rfl

theorem settle_view (b : Broker) (t : Transfer) (effects : List Effect) :
    (b.settle t effects).1.view = (drain b.view b.block t effects).2.view := keep_view _ _

/-- A lock that goes back with a word to the user is answered. -/
theorem disposal_answers (h : b.Files sender m tokenNetwork c c') (t : Transfer)
    (level : NoticeLevel) (info : String) :
    let b' := b.filed m tokenNetwork c'
    let drained := drain b'.view b.block t
      [.sendDisposal c'.route.node c'.route.channelId m.lock, .notice level info]
    ∃ a, Action.outputs drained.2.actions = [a] ∧ b.Answers sender m b'.view a drained.2.view := by
  intro b' drained
  have hdrained : drained = (t, ⟨b'.view,
      .send sender (.disposal ⟨m.balanceProof.channelId, m.lock⟩) :: noticeOf level info⟩) := by
    subst drained
    rw [h.node, h.channelId]
    simp only [drain, perform, List.append_nil, List.singleton_append]
  rw [hdrained]
  refine ⟨_, ?_, .disposes⟩
  change Action.send sender (.disposal ⟨m.balanceProof.channelId, m.lock⟩)
    :: Action.outputs (noticeOf level info) = _
  rw [Action.outputs_of_reports (noticeOf_reports level info)]

/-- As the target we ask for the secret or give the lock back. -/
theorem settle_target_answers (h : b.Files sender m tokenNetwork c c')
    (htarget : m.target = b.view.ourAddress) (ourAddress : Address) :
    let b' := b.filed m tokenNetwork c'
    let begun := (Target.start ⟨ourAddress, c'.route, m⟩ b.block).map Transfer.target id
    ∃ a, Action.outputs (b'.settle begun.1 begun.2).2 = [a] ∧
      b.Answers sender m b'.view a (b'.settle begun.1 begun.2).1.view := by
  intro b' begun
  rw [settle_snd, settle_view]
  subst begun
  unfold Target.start
  dsimp only
  split
  · -- The lock expires too soon.
    exact disposal_answers h _ _ _
  · refine ⟨.send m.initiator (.secretRequest ⟨m.paymentId, m.lock.secretHash, m.lock.amount⟩),
      ?_, ?_⟩
    · rw [Prod.map, id]
      simp only [drain, perform]
      rfl
    · rw [Prod.map, id]
      simp only [drain, perform]
      exact .requests htarget

/-- A route that a mediator can use leads on, and its lock ends before the received one. -/
theorem onward_of_usable {s : Mediator} {r : Route} (h : s.usable r = true) :
    r.node ≠ s.payerRoute.node ∧ s.offer.expiration < s.received.expiration := by
  simp only [Mediator.usable, Bool.and_eq_true, decide_eq_true_eq] at h
  exact ⟨h.1.1.1.2, h.1.2⟩

/-- As a mediator we pass the lock on, however often it is refused, or give it back. -/
theorem settle_mediator_answers (h : b.Files sender m tokenNetwork c c')
    (hother : m.target ≠ b.view.ourAddress) (ourAddress : Address) (candidates : List Route) :
    let b' := b.filed m tokenNetwork c'
    let begun := (Mediator.start ⟨ourAddress, c'.route, m, candidates⟩ b.block).map
      Transfer.mediator id
    ∃ a, Action.outputs (b'.settle begun.1 begun.2).2 = [a] ∧
      b.Answers sender m b'.view a (b'.settle begun.1 begun.2).1.view := by
  intro b' begun
  rw [settle_snd, settle_view]
  obtain ⟨s, hs, hpayer, hreceived⟩ : ∃ s : Mediator,
      begun = s.tryNextRoute.map Transfer.mediator id ∧ s.payerRoute = c'.route ∧
      s.received = TransferTerms.ofMessage m := ⟨_, rfl, rfl, rfl⟩
  have hruns := s.search_runs
  rw [← hs] at hruns
  cases hfirst : (s.routes.available.filter s.usable).find?
    (carries b'.view b.block s.search.terms) with
  | none =>
      obtain ⟨t, -, hdrain⟩ := hruns.drain_of_find?_eq_none hfirst
      have hlast : drain b'.view b'.block begun.1 begun.2
          = drain b'.view b'.block t s.search.last := hdrain
      rw [hlast, Mediator.search, hpayer, hreceived]
      exact disposal_answers h t _ _
  | some r =>
      obtain ⟨t, m', view', -, hsend, hdrain⟩ := hruns.drain_of_find?_eq_some hfirst
      obtain ⟨honward, hends⟩ := onward_of_usable
        (List.mem_filter.mp (List.mem_of_find?_eq_some hfirst)).2
      obtain ⟨network, d, d', hfind, hpartner, hsent, rfl⟩ :=
        NetworkView.withPartnerChannel_eq_ok_iff.mp hsend
      have hdrain : drain b'.view b'.block begun.1 begun.2 = _ := hdrain
      rw [hdrain, ← hpartner]
      -- The lock goes out on the terms of the received one.
      obtain ⟨-, -, -, -, rfl, -⟩ := Channel.sendTransfer_eq_ok_iff.mp hsent
      rw [hpayer, ← hpartner, h.node] at honward
      rw [hreceived] at hends
      exact ⟨_, rfl, .forwards hother hfind honward hsent
        (congrArg TransferTerms.amount hreceived) (congrArg TransferTerms.secretHash hreceived)
        hends ⟨congrArg TransferTerms.paymentId hreceived,
          congrArg TransferTerms.initiator hreceived, congrArg TransferTerms.target hreceived⟩⟩

/-- A transfer that begins with an offered lock answers it. -/
theorem settle_answers (h : b.Files sender m tokenNetwork c c') :
    let b' := b.filed m tokenNetwork c'
    let begun := beginOffered b'.view b.block c'.route m
    ∃ a, Action.outputs (b'.settle begun.1 begun.2).2 = [a] ∧
      b.Answers sender m b'.view a (b'.settle begun.1 begun.2).1.view := by
  intro b' begun
  by_cases htarget : m.target = b.view.ourAddress
  · rw [show begun = _ from if_pos htarget]
    exact settle_target_answers h htarget b.view.ourAddress
  · rw [show begun = _ from if_neg htarget]
    exact settle_mediator_answers h htarget b.view.ourAddress _

end Settle

/-- Whatever becomes of an offer, no other transfer is concerned. -/
theorem receiveTransfer_get?_of_ne (b : Broker) (sender : Address) {m : LockedTransfer}
    {k : TransferKey} (hk : k ≠ b.offerKey m) :
    (b.receiveTransfer sender m).1.transfers.get? k = b.transfers.get? k := by
  by_cases hfiles : ∃ tokenNetwork c c', b.Files sender m tokenNetwork c c'
  · obtain ⟨tokenNetwork, c, c', h⟩ := hfiles
    rw [h.receiveTransfer_eq]
    split
    · rfl
    · refine get?_settle_of_ne ?_ _
      rw [beginOffered_key]
      exact hk
  · have hnot : ∀ tokenNetwork c c', ¬ b.Files sender m tokenNetwork c c' :=
      fun tokenNetwork c c' h => hfiles ⟨tokenNetwork, c, c', h⟩
    obtain ⟨info, heq⟩ := receiveTransfer_of_not_files hnot
    rw [heq]

/-! ### The law -/

/-- What comes of an offered lock. -/
structure AnswerLaw (b : Broker) (sender : Address) (m : LockedTransfer) : Prop where
  /-- If it is not filed, nothing changes, and a warning is all that comes of it. -/
  refused : (∀ tokenNetwork c c', ¬ b.Files sender m tokenNetwork c c') →
    ∃ info, b.receive sender (.lockedTransfer m) = (b, [notice .warning info])
  /-- If it is filed, one message goes out, which answers it. -/
  answered : ∀ tokenNetwork c c', b.Files sender m tokenNetwork c c' →
    ∃ a, Action.outputs (b.receive sender (.lockedTransfer m)).2 = [a] ∧
      b.Answers sender m (b.filed m tokenNetwork c').view a
        (b.receive sender (.lockedTransfer m)).1.view
  /-- If its transfer was in progress already, the lock goes back, and nothing but the channel
      that filed it changes. -/
  duplicate : ∀ tokenNetwork c c', b.Files sender m tokenNetwork c c' →
    b.transfers.contains (b.offerKey m) = true →
    (b.receive sender (.lockedTransfer m)).1 = b.filed m tokenNetwork c' ∧
    Action.outputs (b.receive sender (.lockedTransfer m)).2
      = [.send sender (.disposal ⟨m.balanceProof.channelId, m.lock⟩)]
  /-- No other transfer is concerned. -/
  others : ∀ k, k ≠ b.offerKey m →
    (b.receive sender (.lockedTransfer m)).1.transfers.get? k = b.transfers.get? k

/-- Every offered lock is answered once if it is filed, and not at all otherwise. -/
theorem answerLaw (b : Broker) (sender : Address) (m : LockedTransfer) :
    b.AnswerLaw sender m where
  refused := receiveTransfer_of_not_files
  answered tokenNetwork c c' h := by
    rw [receive, h.receiveTransfer_eq]
    split
    · refine ⟨_, rfl, ?_⟩
      rw [h.channelId]
      exact .disposes
    · exact settle_answers h
  duplicate tokenNetwork c c' h hprogress := by
    rw [receive, h.receiveTransfer_eq, if_pos hprogress, h.channelId]
    exact ⟨rfl, rfl⟩
  others _ hk := b.receiveTransfer_get?_of_ne sender hk

end Broker

end PaymentNetwork

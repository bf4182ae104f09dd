import PaymentNetwork.Proofs.Broker.Incoming
import PaymentNetwork.Proofs.Transfer.Deeds

/-!
# What a Node Does to Collect

The deeds of a node, and which transfer they are for.

A transfer asks for effects, and the broker turns them into actions. Between the two,
messages may be refused by a channel, notices may be left out, and a refusal may bring
new effects. Of all that the deeds are not touched: every deed that a transfer asks for
is done, in the same order, and no other is. So whatever is to be said of the deeds of
a node is said of the steps of its transfers.

An input reaches the transfers in one of two ways. It tells some of them a fact, or it
begins a new one, and beginning is never a deed. A transfer that is over is forgotten,
and none begins while another is in progress under its key. So as long as a key is
taken it is taken by the same transfer.

## Main definitions

* `Broker.deeds`, `Broker.outputs`: Deeds, as they are done, and everything that is
  done in a run.
* `BrokerInput.fact?`: The fact that an input tells the transfers.
* `Broker.Ignores`, `Broker.Tells`, `Broker.Begins`: What an input does to the
  transfers.
* `Broker.KeepsInProgress`: The key stays taken during a run.

## Theorems

* `Broker.drain_deeds`: What is asked for is done.
* `Broker.react_cases`: An input tells transfers a fact, begins one, or does neither.
* `Broker.exists_told_of_mem_deeds`, `Broker.exists_step_of_mem_deeds`: Every deed was
  asked for by a step.
* `Broker.exists_owner_of_mem_deeds`: Every deed is one of a transfer in progress.
* `Broker.exists_beginning`: A transfer in progress began at some input.
-/

namespace PaymentNetwork

namespace Action

/-- The deed that the action is, if it is one. -/
def deed? : Action → Option Deed
  | call c => some (.call c)
  | report (.received r) => some (.received r)
  | _ => none

end Action

namespace Broker

/-- The deeds among some actions. -/
def deeds (actions : List Action) : List Deed := actions.filterMap Action.deed?

theorem deeds_append (xs ys : List Action) : deeds (xs ++ ys) = deeds xs ++ deeds ys :=
  List.filterMap_append

/-- Everything that is done in a run. -/
def outputs (b : Broker) (inputs : List BrokerInput) : List Action :=
  collect after (fun b i => (b.react i).2) b inputs

theorem run_append (b : Broker) (first later : List BrokerInput) :
    b.run (first ++ later) = (b.run first).run later :=
  List.foldl_append

theorem outputs_append (b : Broker) (first later : List BrokerInput) :
    b.outputs (first ++ later) = b.outputs first ++ (b.run first).outputs later :=
  collect_append _ _ b first later

@[simp] theorem outputs_singleton (b : Broker) (i : BrokerInput) :
    b.outputs [i] = (b.react i).2 := List.append_nil _

/-! ### From effects to actions -/

theorem noticeOf_deeds (level : NoticeLevel) (info : String) :
    deeds (noticeOf level info) = [] := by
  unfold noticeOf
  split
  · rfl
  · rfl

/-- Messages are no deeds, and neither is what is done if a channel makes none. -/
theorem build_deeds (view : NetworkView) {α : Type} {channelId : ChannelId} {recipient : Address}
    {operation : Channel → Except ChannelError (α × Channel)} {message : α → Message}
    {complaint : ChannelError → List Action} (h : ∀ e, deeds (complaint e) = []) :
    deeds (build view channelId recipient operation message complaint).actions = [] := by
  unfold build
  split
  · rfl
  · exact h _

theorem perform_deeds (view : NetworkView) (block : Height) (e : Effect) :
    deeds (perform view block e).actions = e.deed?.toList := by
  cases e with
  | sendUnlock => exact build_deeds view (fun _ => noticeOf_deeds _ _)
  | sendLockRemoval => exact build_deeds view (fun _ => rfl)
  | unlockFailed =>
      dsimp only [perform]
      rw [noticeOf_deeds]
      rfl
  | notice =>
      dsimp only [perform]
      rw [noticeOf_deeds]
      rfl
  | _ => rfl

/-- The deeds that a transfer asks for are done, and no others. -/
theorem drain_deeds (view : NetworkView) (block : Height) (t : Transfer) (effects : List Effect) :
    deeds (drain view block t effects).2.actions = Effect.deeds effects := by
  fun_induction drain view block t effects with
  | case1 view t => rfl
  | case2 view t recipient channelId terms rest m view' hsend t' o hdrain ih =>
      rw [hdrain] at ih
      exact ih
  -- What a refusal brings is no deed.
  | case3 view t recipient channelId terms rest e hsend refusal ih =>
      rw [ih, Effect.deeds_append, Transfer.step_routeRefused_deeds, List.append_nil]
      rfl
  | case4 view t effect rest hne done t' o hdrain ih =>
      rw [hdrain] at ih
      rw [deeds_append, ih, perform_deeds, Effect.deeds, Effect.deeds, List.filterMap_cons]
      cases effect.deed? with
      | none => rfl
      | some d => rfl

theorem settle_deeds (b : Broker) (t : Transfer) (effects : List Effect) :
    deeds (b.settle t effects).2 = Effect.deeds effects :=
  drain_deeds b.view b.block t effects

theorem feed_of_some {b : Broker} {key : TransferKey} {t : Transfer}
    (h : b.transfers.get? key = some t) (i : Input) :
    b.feed i key = b.settle (t.step i).1 (t.step i).2 := by
  rw [feed, h]

theorem feed_deeds_of_none {b : Broker} {key : TransferKey} (h : b.transfers.get? key = none)
    (i : Input) : deeds (b.feed i key).2 = [] := by
  rw [feed, h]
  rfl

theorem feed_deeds {b : Broker} {key : TransferKey} {t : Transfer}
    (h : b.transfers.get? key = some t) (i : Input) :
    deeds (b.feed i key).2 = Effect.deeds (t.step i).2 := by
  rw [feed_of_some h, settle_deeds]

theorem feedAll_deeds_cons (b : Broker) (i : Input) (key : TransferKey) (keys : List TransferKey) :
    deeds (b.feedAll i (key :: keys)).2
      = deeds (b.feed i key).2 ++ deeds ((b.feed i key).1.feedAll i keys).2 :=
  deeds_append _ _

theorem removeLocks_deeds (view : NetworkView) (block : Height)
    (locks : List NetworkView.SentLock) : deeds (removeLocks view block locks).actions = [] := by
  induction locks generalizing view with
  | nil => rfl
  | cons l rest ih =>
      rw [removeLocks, deeds_append, ih, build_deeds view (fun _ => rfl)]
      rfl

/-- Every deed was asked for by the step of a transfer, of a broker that has what telling
    the transfers before kept. -/
theorem exists_told_of_mem_deeds {I : Broker → Prop} {i : Input}
    (hfeed : ∀ b key, I b → I (b.feed i key).1) {b : Broker} (h : I b) {keys : List TransferKey}
    {d : Deed} (hd : d ∈ deeds (b.feedAll i keys).2) :
    ∃ b' k t, I b' ∧ b'.transfers.get? k = some t ∧ d ∈ Effect.deeds (t.step i).2 := by
  induction keys generalizing b with
  | nil => cases hd
  | cons key rest ih =>
      rw [feedAll_deeds_cons, List.mem_append] at hd
      rcases hd with hd | hd
      · cases ht : b.transfers.get? key with
        | none =>
            rw [feed_deeds_of_none ht] at hd
            cases hd
        | some t =>
            rw [feed_deeds ht] at hd
            exact ⟨b, key, t, h, ht, hd⟩
      · exact ih (hfeed b key h) hd

theorem exists_step_of_mem_deeds {P : ChannelId → Channel → Prop} {R : Transfer → Prop}
    (hc : Closed P R) {b : Broker} (h : Holds P R b) {i : Input} {keys : List TransferKey}
    {d : Deed} (hd : d ∈ deeds (b.feedAll i keys).2) :
    ∃ t, R t ∧ d ∈ Effect.deeds (t.step i).2 := by
  obtain ⟨b', k, t, hholds, ht, hmem⟩ :=
    exists_told_of_mem_deeds (fun b key hb => hb.feed hc i key) h hd
  exact ⟨t, hholds.transfers k t ht, hmem⟩

end Broker

namespace BrokerInput

/-- The fact that an input tells the transfers, if it tells one. -/
def fact? : BrokerInput → Option Input
  | pay _ => none
  | message _ (.lockedTransfer _) => none
  | message sender (.secretRequest m) =>
    some (.secretRequested ⟨sender, m.paymentId, m.amount, m.secretHash⟩)
  | message sender (.secretReveal m) =>
    some (.secretRevealed ⟨sender, m.secret, hashSecret m.secret⟩)
  | message sender (.unlock m) => some (.proofReceived ⟨sender, hashSecret m.secret, .unlock m⟩)
  | message sender (.lockRemoval m) => some (.proofReceived ⟨sender, m.secretHash, .removal m⟩)
  | message sender (.disposal m) => some (.lockDisposed ⟨sender, m.channelId, m.lock⟩)
  | block number _ => some (.block number)
  | chain e => some (.chain e)

end BrokerInput

namespace Broker

/-! ### What an input does to the transfers -/

theorem settle_block (b : Broker) (t : Transfer) (effects : List Effect) :
    (b.settle t effects).1.block = b.block :=
  keep_block _ _

theorem feedAll_block (b : Broker) (i : Input) (keys : List TransferKey) :
    (b.feedAll i keys).1.block = b.block := by
  induction keys generalizing b with
  | nil => rfl
  | cons key rest ih =>
      have hfirst : (b.feed i key).1.block = b.block := by
        unfold feed
        split
        · rfl
        · exact settle_block b _ _
      exact (ih _).trans hfirst

/-- The input does nothing to the transfers. -/
structure Ignores (b : Broker) (i : BrokerInput) : Prop where
  block : (b.after i).block = b.block
  transfers : (b.after i).transfers = b.transfers
  deeds : deeds (b.react i).2 = []

/-- The input tells some transfers a fact. -/
structure Tells (b : Broker) (i : BrokerInput) (b' : Broker) (fact : Input)
    (keys : List TransferKey) : Prop where
  tells : i.fact? = some fact
  visits : ∀ number order, i = .block number order → keys = order
  before : b'.transfers = b.transfers
  block : (b.after i).block = fact.clock b.block
  transfers : (b.after i).transfers = (b'.feedAll fact keys).1.transfers
  deeds : Broker.deeds (b.react i).2 = Broker.deeds (b'.feedAll fact keys).2

/-- The input begins a transfer. -/
structure Begins (b : Broker) (i : BrokerInput) (b' : Broker) (t : Transfer)
    (effects : List Effect) : Prop where
  before : b'.transfers = b.transfers
  block : (b.after i).block = b.block
  new : b.transfers.get? t.key = none
  waits : t.awaitsUnlock = false
  transfers : (b.after i).transfers = (b'.settle t effects).1.transfers
  deeds : Broker.deeds (b.react i).2 = []

theorem get?_eq_none_of_not_contains {b : Broker} {key : TransferKey}
    (h : ¬ b.transfers.contains key = true) : b.transfers.get? key = none := by
  rwa [SortedMap.contains, Bool.not_eq_true, Option.isSome_eq_false_iff,
    Option.isNone_iff_eq_none] at h

/-- A transfer that was offered waits for its secret before it waits for an unlock. -/
theorem beginOffered_start (view : NetworkView) (block : Height) (payerRoute : Route)
    (m : LockedTransfer) :
    (beginOffered view block payerRoute m).1.awaitsUnlock = false ∧
      Effect.deeds (beginOffered view block payerRoute m).2 = [] := by
  unfold beginOffered
  split
  · refine ⟨?_, Target.start_deeds _ block⟩
    unfold Target.start
    dsimp only
    split
    · rfl
    · rfl
  · have hstart := Mediator.start_uninformed
      ⟨view.ourAddress, payerRoute, m, view.routes m.balanceProof.tokenNetwork⟩ block
    refine ⟨decide_eq_false (fun hwaits => ?_), Effect.deeds_of_no_secret hstart.quiet⟩
    cases (congrArg MediatorStatus.knowsSecret hwaits).symm.trans hstart.status

theorem receiveTransfer_deeds (b : Broker) (sender : Address) (m : LockedTransfer) :
    deeds (b.receiveTransfer sender m).2 = [] := by
  unfold receiveTransfer
  split
  · rfl
  · dsimp only
    split
    · rfl
    · rename_i payerRoute view haccept
      split
      · rename_i b' actions hbegin
        rw [begin?, ite_error_eq_ok_iff, Except.ok.injEq] at hbegin
        have hsettle := settle_deeds { b with view := view }
          (beginOffered view b.block payerRoute m).1 (beginOffered view b.block payerRoute m).2
        rw [(beginOffered_start view b.block payerRoute m).2, hbegin.2] at hsettle
        exact hsettle
      · rfl

theorem react_lockedTransfer (b : Broker) (sender : Address) (m : LockedTransfer) :
    b.react (.message sender (.lockedTransfer m)) = b.receiveTransfer sender m := rfl

theorem receiveProof_react {b : Broker} {i : BrokerInput} {sender : Address} {what : String}
    {channelId : ChannelId} {secretHash : SecretHash} {message : ProofMessage}
    {operation : Channel → Except ChannelError Channel}
    (hreact : b.react i = b.receiveProof sender what channelId secretHash message operation)
    (hfact : i.fact? = some (.proofReceived ⟨sender, secretHash, message⟩)) :
    b.Ignores i ∨ ∃ b' fact keys, b.Tells i b' fact keys := by
  have hvisits : ∀ keys number order, i = .block number order → keys = order := by
    rintro keys number order rfl
    cases hfact
  have hafter : b.after i
      = (b.receiveProof sender what channelId secretHash message operation).1 := by
    rw [after, hreact]
  unfold receiveProof at hreact hafter
  dsimp only at hreact hafter
  split at hreact
  · rename_i e hreject
    rw [hreject] at hafter
    refine Or.inl ⟨congrArg block hafter, congrArg transfers hafter, ?_⟩
    rw [hreact]
    rfl
  · rename_i view haccept
    rw [haccept] at hafter
    refine Or.inr ⟨{ b with view := view }, _, _, hfact, hvisits _, rfl, ?_,
      congrArg transfers hafter, ?_⟩
    · exact (congrArg block hafter).trans (feedAll_block _ _ _)
    · rw [hreact]
      rfl

/-- A block that is news is told to the transfers that it visits. -/
theorem tells_block {b : Broker} {number : Height} (h : ¬ number ≤ b.block)
    (order : List TransferKey) :
    b.Tells (.block number order) { b with block := number } (.block number) order := by
  have hreact : b.react (.block number order)
      = ({ (feedAll { b with block := number } (.block number) order).1 with
          view := (removeLocks (feedAll { b with block := number } (.block number) order).1.view
            number ((feedAll { b with block := number } (.block number)
              order).1.view.expiredLocks number)).view },
        (feedAll { b with block := number } (.block number) order).2
          ++ (removeLocks (feedAll { b with block := number } (.block number) order).1.view
            number ((feedAll { b with block := number } (.block number)
              order).1.view.expiredLocks number)).actions) := if_neg h
  have hafter : b.after (.block number order) = _ := congrArg Prod.fst hreact
  refine ⟨rfl, ?_, rfl, ?_, ?_, ?_⟩
  · rintro number' order' heq
    cases heq
    rfl
  · exact (congrArg Broker.block hafter).trans (feedAll_block _ _ _)
  · rw [hafter]
  · rw [hreact, deeds_append, removeLocks_deeds, List.append_nil]

/-- A payment begins a transfer, unless one is in progress on its hash. -/
theorem react_pay_cases (b : Broker) (terms : TransferTerms) :
    b.Ignores (.pay terms) ∨ ∃ b' t effects, b.Begins (.pay terms) b' t effects := by
  have hdeeds := Initiator.start_deeds
    ⟨b.view.ourAddress, terms, b.view.routes terms.tokenNetwork⟩ b.block
  cases hstart : Initiator.start
    ⟨b.view.ourAddress, terms, b.view.routes terms.tokenNetwork⟩ b.block with
  | mk s effects =>
      rw [hstart] at hdeeds
      have hpay : b.pay terms = b.begin? (.initiator s) effects := by
        rw [Broker.pay, hstart]
      rw [begin?] at hpay
      split at hpay
      · have hreact : b.react (.pay terms) = (b, []) := by
          rw [react, hpay]
        have hafter : b.after (.pay terms) = b := congrArg Prod.fst hreact
        exact Or.inl ⟨congrArg block hafter, congrArg transfers hafter, by rw [hreact]; rfl⟩
      · rename_i hnew
        have hreact : b.react (.pay terms) = b.settle (.initiator s) effects := by
          rw [react, hpay]
        have hafter := congrArg Prod.fst hreact
        refine Or.inr ⟨b, .initiator s, effects, rfl, ?_,
          get?_eq_none_of_not_contains hnew, rfl, congrArg transfers hafter, ?_⟩
        · exact (congrArg block hafter).trans (settle_block b _ _)
        · rw [hreact, settle_deeds, hdeeds]

/-- An offered lock begins a transfer, if its channel accepts it and none is in progress on its
    hash. -/
theorem react_lockedTransfer_cases (b : Broker) (sender : Address) (m : LockedTransfer) :
    b.Ignores (.message sender (.lockedTransfer m)) ∨
      ∃ b' t effects, b.Begins (.message sender (.lockedTransfer m)) b' t effects := by
  have hdeeds := receiveTransfer_deeds b sender m
  rcases receiveTransfer_cases b sender m with
    heq | ⟨tokenNetwork, c, c', hsender, hrecipient, hfind, hpartner, hop⟩
  · exact Or.inl ⟨congrArg block heq, congrArg transfers heq, hdeeds⟩
  · let view := b.view.putChannel tokenNetwork m.balanceProof.channelId c'
    cases hstart : beginOffered view b.block c'.route m with
    | mk t effects =>
        have hwaits := (beginOffered_start view b.block c'.route m).1
        rw [hstart] at hwaits
        have hafter : b.after (.message sender (.lockedTransfer m)) = _ :=
          receiveTransfer_of_ok hsender hrecipient hfind hpartner hop hstart
        split at hafter
        · -- The lock is filed all the same, but no transfer begins.
          exact Or.inl ⟨by rw [hafter], by rw [hafter], hdeeds⟩
        · rename_i hnew
          refine Or.inr ⟨{ b with view := view }, t, effects, rfl, ?_,
            get?_eq_none_of_not_contains hnew, hwaits, congrArg transfers hafter, hdeeds⟩
          exact (congrArg block hafter).trans (settle_block _ _ _)

/-- An input tells transfers a fact, begins one, or does neither. -/
theorem react_cases (b : Broker) (i : BrokerInput) :
    b.Ignores i ∨ (∃ b' fact keys, b.Tells i b' fact keys) ∨
      (∃ b' t effects, b.Begins i b' t effects) := by
  cases i with
  | pay terms => exact (b.react_pay_cases terms).imp_right Or.inr
  | message sender m =>
      cases m with
      | lockedTransfer m => exact (b.react_lockedTransfer_cases sender m).imp_right Or.inr
      | unlock m =>
          rcases receiveProof_react (i := .message sender (.unlock m)) rfl rfl with h | h
          · exact Or.inl h
          · exact Or.inr (Or.inl h)
      | lockRemoval m =>
          rcases receiveProof_react (i := .message sender (.lockRemoval m)) rfl rfl with h | h
          · exact Or.inl h
          · exact Or.inr (Or.inl h)
      | secretRequest m =>
          exact Or.inr (Or.inl ⟨b, _, _, rfl, by simp, rfl, feedAll_block b _ _, rfl, rfl⟩)
      | secretReveal m =>
          exact Or.inr (Or.inl ⟨b, _, _, rfl, by simp, rfl, feedAll_block b _ _, rfl, rfl⟩)
      | disposal m =>
          exact Or.inr (Or.inl ⟨b, _, _, rfl, by simp, rfl, feedAll_block b _ _, rfl, rfl⟩)
  | block number order =>
      by_cases hlate : number ≤ b.block
      · have hreact : b.react (.block number order) = (b, []) := if_pos hlate
        have hafter : b.after (.block number order) = b := congrArg Prod.fst hreact
        exact Or.inl ⟨congrArg Broker.block hafter, congrArg transfers hafter, by rw [hreact]; rfl⟩
      · exact Or.inr (Or.inl ⟨_, _, _, tells_block hlate order⟩)
  | chain e =>
      cases e with
      | secretRegistered =>
          exact Or.inr (Or.inl ⟨b, _, _, rfl, by simp, rfl, feedAll_block b _ _, rfl, rfl⟩)
      | channelClosed tokenNetwork channelId closer block =>
          exact Or.inr (Or.inl ⟨{ b with
              view := b.view.apply (.channelClosed tokenNetwork channelId closer block) },
            _, b.transfers.keys, rfl, by simp, rfl, feedAll_block _ _ _, rfl, rfl⟩)
      | _ => exact Or.inl ⟨rfl, rfl, rfl⟩

/-! ### Transfers under their keys -/

/-- Nothing is asked of channels here, and nothing of transfers but their keys. -/
theorem closed_trivial : Closed (fun _ _ => True) (fun _ => True) :=
  ⟨fun _ _ _ _ _ _ _ => trivial, fun _ _ _ => trivial⟩

theorem Filed.holds {b b' : Broker} (h : b.Filed) (heq : b'.transfers = b.transfers) :
    Holds (fun _ _ => True) (fun _ => True) b' where
  channels _ _ _ := trivial
  filed k t ht := (h k t (heq ▸ ht)).1
  inProgress k t ht := (h k t (heq ▸ ht)).2
  transfers _ _ _ := trivial

theorem Filed.after {b : Broker} (h : b.Filed) (i : BrokerInput) : (b.after i).Filed := by
  have hadmits : Admits (fun _ _ => True) (fun _ => True) b i :=
    ⟨fun _ _ => trivial, fun _ _ _ _ _ _ _ _ _ _ _ => trivial,
      fun _ _ _ _ _ _ _ _ _ _ => trivial, fun _ _ _ _ _ _ _ _ _ => trivial,
      fun _ _ _ _ _ => trivial⟩
  exact ((h.holds rfl).after closed_trivial hadmits).toFiled

theorem Filed.run {b : Broker} (h : b.Filed) (inputs : List BrokerInput) :
    (b.run inputs).Filed := by
  induction inputs generalizing b with
  | nil => exact h
  | cons i rest ih => exact ih (h.after i)

theorem drain_key (view : NetworkView) (block : Height) (t : Transfer) (effects : List Effect) :
    (drain view block t effects).1.key = t.key := by
  have hclosed : Closed (fun _ _ => True) (fun t' => t'.key = t.key) :=
    ⟨fun _ _ _ _ _ _ _ => trivial, fun t' i h => (t'.step_key i).trans h⟩
  have hview : view.Holds (fun _ _ => True) := fun _ _ _ => trivial
  exact (drain_holds hclosed hview block rfl effects).2

/-- A transfer that does not listen to refusals comes out of its effects as it was. -/
theorem drain_fst_of_ignores (view : NetworkView) (block : Height) {t : Transfer}
    (h : ∀ refusal, t.step (.routeRefused refusal) = (t, [])) (effects : List Effect) :
    (drain view block t effects).1 = t := by
  fun_induction drain view block t effects with
  | case1 view t => rfl
  | case2 view t recipient channelId terms rest m view' hsend t' o hdrain ih =>
      rw [hdrain] at ih
      exact ih h
  | case3 view t recipient channelId terms rest e hsend refusal ih =>
      rw [h refusal] at ih ⊢
      exact ih h
  | case4 view t effect rest hne done t' o hdrain ih =>
      rw [hdrain] at ih
      exact ih h

/-- A transfer is put back as its effects left it, or forgotten. -/
theorem get?_settle_self (b : Broker) (t : Transfer) (effects : List Effect) :
    (b.settle t effects).1.transfers.get? t.key
      = if (drain b.view b.block t effects).1.isTerminal then none
        else some (drain b.view b.block t effects).1 := by
  have hkey := drain_key b.view b.block t effects
  rw [settle]
  dsimp only
  by_cases hterminal : (drain b.view b.block t effects).1.isTerminal = true
  · rw [get?_keep_of_isTerminal hterminal, if_pos hkey.symm, if_pos hterminal]
  · rw [get?_keep_of_not_isTerminal (Bool.eq_false_iff.mpr hterminal), if_pos hkey.symm,
      if_neg hterminal]

theorem get?_settle_of_ne {b : Broker} {t : Transfer} {k : TransferKey} (h : k ≠ t.key)
    (effects : List Effect) : (b.settle t effects).1.transfers.get? k = b.transfers.get? k := by
  have hkey : k ≠ (drain b.view b.block t effects).1.key := by
    rwa [drain_key]
  rw [settle]
  dsimp only
  unfold keep
  dsimp only
  split
  · exact SortedMap.get?_erase_of_ne hkey
  · exact SortedMap.get?_insert_of_ne hkey

/-- A transfer is fed under its own key, and no other key notices. -/
theorem get?_feed_of_ne {b : Broker} (h : b.Filed) {key k : TransferKey} (hk : k ≠ key)
    (i : Input) : (b.feed i key).1.transfers.get? k = b.transfers.get? k := by
  cases ht : b.transfers.get? key with
  | none => rw [feed_of_none ht]
  | some t =>
      rw [feed_of_some ht]
      -- A step does not change the key, so what is put back is put where it was.
      refine get?_settle_of_ne ?_ _
      rwa [Transfer.step_key, (h key t ht).1]

theorem feed_filed {b : Broker} (h : b.Filed) (i : Input) (key : TransferKey) :
    (b.feed i key).1.Filed :=
  ((h.holds rfl).feed closed_trivial i key).toFiled

/-- No transfer begins by a fact. -/
theorem get?_feedAll_of_none {b : Broker} (h : b.Filed) {k : TransferKey}
    (hk : b.transfers.get? k = none) (i : Input) (keys : List TransferKey) :
    (b.feedAll i keys).1.transfers.get? k = none := by
  induction keys generalizing b with
  | nil => exact hk
  | cons key rest ih =>
      have hnext : (b.feed i key).1.transfers.get? k = none := by
        by_cases heq : k = key
        · subst heq
          rw [feed_of_none hk, hk]
        · rw [get?_feed_of_ne h heq, hk]
      exact ih (feed_filed h i key) hnext

/-- A change of the payer's end is no cause for a deed. -/
theorem react_deeds_of_proofReceived {b : Broker} (h : b.Filed) {i : BrokerInput}
    {p : ProofReceived} (hp : i.fact? = some (.proofReceived p)) : deeds (b.react i).2 = [] := by
  rcases b.react_cases i with hignores | ⟨b', fact, keys, htells⟩ | ⟨b', t, effects, hbegins⟩
  · exact hignores.deeds
  · cases htells.tells.symm.trans hp
    rw [htells.deeds, List.eq_nil_iff_forall_not_mem]
    intro d hd
    rcases exists_step_of_mem_deeds closed_trivial (h.holds htells.before) hd with ⟨t, -, hmem⟩
    rw [Transfer.step_proofReceived_deeds] at hmem
    cases hmem
  · exact hbegins.deeds

/-- A message that a channel accepts is no cause for a deed. -/
theorem Accepts.deeds {b : Broker} (h : b.Filed) {i : BrokerInput} {m : ChannelMessage}
    {tokenNetwork : Address} {c c' : Channel} (haccepts : b.Accepts i m tokenNetwork c c') :
    Broker.deeds (b.react i).2 = [] := by
  rcases haccepts.sent with ⟨message, rfl, hm⟩
  cases message with
  | lockedTransfer m => exact receiveTransfer_deeds b _ m
  | unlock m => exact react_deeds_of_proofReceived h rfl
  | lockRemoval m => exact react_deeds_of_proofReceived h rfl
  | secretRequest m => cases hm
  | secretReveal m => cases hm
  | disposal m => cases hm

/-- Every deed is one of a transfer that was in progress before. -/
theorem exists_owner_of_mem_deeds {b : Broker} (h : b.Filed) {i : BrokerInput} {d : Deed}
    (hd : d ∈ deeds (b.react i).2) : ∃ k t, b.transfers.get? k = some t ∧ t.Owns d := by
  rcases b.react_cases i with hignores | ⟨b', fact, keys, htells⟩ | ⟨b', t, effects, hbegins⟩
  · rw [hignores.deeds] at hd
    cases hd
  · -- What a transfer owns it owned before the fact.
    have hclosed : Closed (fun _ _ => True)
        (fun t => ∃ t₀, b.transfers.get? t.key = some t₀ ∧ ∀ d, t.Owns d → t₀.Owns d) := by
      refine ⟨fun _ _ _ _ _ _ _ => trivial, ?_⟩
      rintro t j ⟨t₀, ht₀, howns⟩
      rw [Transfer.step_key]
      exact ⟨t₀, ht₀, fun d hd => howns d (t.owns_of_step j hd)⟩
    have hfiled := h.holds htells.before
    have hbefore : Holds (fun _ _ => True)
        (fun t => ∃ t₀, b.transfers.get? t.key = some t₀ ∧ ∀ d, t.Owns d → t₀.Owns d) b' := by
      refine ⟨hfiled.channels, hfiled.filed, hfiled.inProgress, fun k t ht => ⟨t, ?_, fun d => id⟩⟩
      rw [hfiled.filed k t ht, ← htells.before]
      exact ht
    rw [htells.deeds] at hd
    rcases exists_step_of_mem_deeds hclosed hbefore hd with ⟨t, ⟨t₀, ht₀, howns⟩, hmem⟩
    exact ⟨t.key, t₀, ht₀, howns d (t.step_deeds fact hmem)⟩
  · rw [hbegins.deeds] at hd
    cases hd

/-! ### As long as a key is taken -/

/-- After every one of these inputs a transfer is in progress under the key. -/
def KeepsInProgress (b : Broker) (k : TransferKey) (inputs : List BrokerInput) : Prop :=
  ∀ first, first <+: inputs → first ≠ [] → (b.run first).transfers.get? k ≠ none

theorem keepsInProgress_nil (b : Broker) (k : TransferKey) : b.KeepsInProgress k [] :=
  fun _ hfirst hne => absurd (List.prefix_nil.mp hfirst) hne

theorem keepsInProgress_concat {b : Broker} {k : TransferKey} {inputs : List BrokerInput}
    {i : BrokerInput} :
    b.KeepsInProgress k (inputs ++ [i]) ↔
      b.KeepsInProgress k inputs ∧ (b.run (inputs ++ [i])).transfers.get? k ≠ none := by
  constructor
  · intro h
    exact ⟨fun first hfirst => h first (hfirst.trans (List.prefix_append inputs [i])),
      h _ List.prefix_rfl (List.append_ne_nil_of_right_ne_nil inputs (List.cons_ne_nil i []))⟩
  · rintro ⟨h, hlast⟩ first hfirst hne
    rcases List.prefix_concat_iff.mp hfirst with rfl | hfirst
    · exact hlast
    · exact h first hfirst hne

/-- A transfer in progress began at some input, if there was none before. -/
theorem exists_beginning {b : Broker} {k : TransferKey} (h : b.transfers.get? k = none)
    (inputs : List BrokerInput) (hprogress : (b.run inputs).transfers.get? k ≠ none) :
    ∃ before since, inputs = before ++ since ∧ (b.run before).transfers.get? k = none ∧
      (b.run before).KeepsInProgress k since := by
  induction inputs using List.reverseRec with
  | nil => exact absurd h hprogress
  | append_singleton inputs i ih =>
      -- The key was free last just before this input, or earlier.
      by_cases hfree : (b.run inputs).transfers.get? k = none
      · refine ⟨inputs, [i], rfl, hfree, ?_⟩
        rw [run_append] at hprogress
        exact keepsInProgress_concat.mpr ⟨keepsInProgress_nil _ k, hprogress⟩
      · rcases ih hfree with ⟨before, since, rfl, hbefore, hkeeps⟩
        refine ⟨before, since ++ [i], List.append_assoc before since [i], hbefore, ?_⟩
        rw [List.append_assoc, run_append] at hprogress
        exact keepsInProgress_concat.mpr ⟨hkeeps, hprogress⟩

end Broker

end PaymentNetwork

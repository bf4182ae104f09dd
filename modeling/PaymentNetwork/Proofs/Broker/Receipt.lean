import PaymentNetwork.Proofs.Broker.Deeds

/-!
# Payments That Are Reported

When a payment to us is reported to the application.

A target reports its payment when it learns the secret, and waits for the unlock from
then on. So between its beginning and its end there is one report if it waits for the
unlock, and none otherwise. The channel does not take part in that: it accepts an
unlock of the payer, and credits the amount, whether or not the transfer knows the
secret that the unlock shows.

The two come apart when the payer unlocks before the secret was revealed. The amount is
ours then, but the transfer does not hear of it, and nothing is reported. It goes on
asking for a secret that lies in front of it, until the lock expires and counts as a
failure. What holds is the exact condition: the unlock of a transfer's own lock ends the
transfer, with one report, exactly if the secret was learned before.

## Main definitions

* `Broker.receipts`: The reports of payments on a secret hash.
* `Target.reported`, `Broker.reported`: The reports that there have to be.
* `Broker.ReceiptLaw`: What is true of an unlock in the transfer's own channel.
* `EarlyUnlock.inputs`: A lock that is unlocked before its secret is revealed.

## Theorems

* `Target.step_reported`, `Broker.after_reported`, `Broker.run_reported`: What a step,
  an input and a run report.
* `Broker.run_receiptLaw`: The law after any inputs.
-/

namespace PaymentNetwork

namespace Deed

/-- The report that the deed is, if it is one of a payment on this hash. -/
def receiptOn? (secretHash : SecretHash) : Deed → Option ReceivedTransfer
  | received r => if r.secretHash = secretHash then some r else none
  | call _ => none

theorem receiptOn?_self (r : ReceivedTransfer) : receiptOn? r.secretHash (received r) = some r :=
  if_pos rfl

end Deed

namespace Effect

/-- The reports of payments on a hash that some effects ask for. -/
def receipts (secretHash : SecretHash) (es : List Effect) : List ReceivedTransfer :=
  (deeds es).filterMap (Deed.receiptOn? secretHash)

end Effect

namespace Transfer

/-- Only a target reports, and only on its own hash. -/
theorem receipts_step_of_ne (t : Transfer) (i : Input) {secretHash : SecretHash}
    (h : t.key ≠ ⟨.target, secretHash⟩) : Effect.receipts secretHash (t.step i).2 = [] := by
  refine List.filterMap_eq_nil_iff.mpr (fun d hd => ?_)
  have howns := t.step_deeds i hd
  cases d with
  | call c => rfl
  | received r =>
      obtain ⟨s, rfl, rfl⟩ := howns
      exact if_neg (fun heq => h (by rw [← heq]; rfl))

end Transfer

namespace Target

/-- The reports of the payment that there have to be since the transfer began: one
    after the secret was learned, and none before. -/
def reported (s : Target) : List ReceivedTransfer :=
  if s.status = .waitingUnlock then [s.receipt] else []

theorem reported_of_waiting {s : Target} (h : s.status = .waitingUnlock) :
    s.reported = [s.receipt] := if_pos h

theorem reported_of_not_waiting {s : Target} (h : s.status ≠ .waitingUnlock) :
    s.reported = [] := if_neg h

/-- What a step reports is what its outcome has to have reported, unless it ends the
    transfer. -/
def Reports (s : Target) (r : Target × List Effect) : Prop :=
  r.1.status.isTerminal = false →
    r.1.reported = s.reported ++ Effect.receipts s.terms.secretHash r.2

section Reports

variable {s : Target}

/-- An outcome that is no further, without a report. -/
theorem reports_of_kept {r : Target × List Effect} (hkept : r.1.reported = s.reported)
    (hnone : Effect.deeds r.2 = []) : s.Reports r := by
  intro _
  rw [hkept, Effect.receipts, hnone, List.filterMap_nil, List.append_nil]

theorem reports_of_isTerminal {r : Target × List Effect} (h : r.1.status.isTerminal = true) :
    s.Reports r := by
  intro hnot
  rw [h] at hnot
  cases hnot

theorem Keeps.reports {r : Target × List Effect} (h : s.Keeps r) : s.Reports r := by
  refine reports_of_kept ?_ h.deeds
  rw [reported, reported, receipt, receipt, h.status, h.terms]

theorem expire_reports (block : Height) : s.Reports (expire { s with blockNumber := block }) := by
  unfold expire
  split
  · exact reports_of_isTerminal rfl
  · exact reports_of_kept rfl rfl

theorem checkUnlockDeadline_reports (block : Height) :
    s.Reports (checkUnlockDeadline { s with blockNumber := block }) := by
  rcases checkUnlockDeadline_cases { s with blockNumber := block } with heq | ⟨secret, -, heq⟩
  · rw [heq]
    exact reports_of_kept rfl rfl
  · rw [heq]
    exact reports_of_isTerminal rfl

/-- Learning the secret is when the payment is reported. -/
theorem learnSecret_reports (h : s.status ≠ .waitingUnlock) (secret : Secret) :
    s.Reports (s.learnSecret secret) := by
  rcases checkUnlockDeadline_cases { s with
      terms := { s.terms with secret? := some secret }, status := .waitingUnlock } with
    heq | ⟨secret', -, heq⟩
  · intro _
    rw [reported_of_not_waiting h, List.nil_append, learnSecret_snd, learnSecret_fst, heq,
      reported_of_waiting rfl]
    symm
    change List.filterMap (Deed.receiptOn? s.receipt.secretHash) [.received s.receipt]
      = [s.receipt]
    rw [List.filterMap_cons_some (Deed.receiptOn?_self s.receipt), List.filterMap_nil]
  · refine reports_of_isTerminal ?_
    rw [learnSecret_fst, heq]
    rfl

end Reports

/-- A step of a target reports what its outcome has to have reported. -/
theorem step_reported (s : Target) (i : Input) : s.Reports (s.step i) := by
  rcases s.step_cases i with ⟨number, -, -, heq⟩ | ⟨number, -, -, heq⟩ | ⟨secret, hnot, heq⟩ |
    ⟨-, heq⟩ | hkeeps
  · rw [heq]
    exact expire_reports number
  · rw [heq]
    exact checkUnlockDeadline_reports number
  · rw [heq]
    exact learnSecret_reports hnot secret
  · rw [heq]
    exact reports_of_isTerminal rfl
  · exact hkeeps.reports

end Target

namespace Broker

/-- The reports of payments on a hash among some actions. -/
def receipts (secretHash : SecretHash) (actions : List Action) : List ReceivedTransfer :=
  (deeds actions).filterMap (Deed.receiptOn? secretHash)

theorem receipts_append (secretHash : SecretHash) (xs ys : List Action) :
    receipts secretHash (xs ++ ys) = receipts secretHash xs ++ receipts secretHash ys := by
  rw [receipts, deeds_append, List.filterMap_append]
  rfl

theorem receipts_of_deeds_eq_nil {actions : List Action} (h : deeds actions = [])
    (secretHash : SecretHash) : receipts secretHash actions = [] := by
  rw [receipts, h, List.filterMap_nil]

/-- The reports that there have to be of the payment that is in progress on a hash. -/
def reported (b : Broker) (secretHash : SecretHash) : List ReceivedTransfer :=
  match b.transfers.get? ⟨.target, secretHash⟩ with
  | some (.target s) => s.reported
  | _ => []

theorem reported_of_some {b : Broker} {secretHash : SecretHash} {s : Target}
    (h : b.transfers.get? ⟨.target, secretHash⟩ = some (.target s)) :
    b.reported secretHash = s.reported := by
  rw [reported, h]

theorem reported_of_none {b : Broker} {secretHash : SecretHash}
    (h : b.transfers.get? ⟨.target, secretHash⟩ = none) : b.reported secretHash = [] := by
  rw [reported, h]

theorem reported_congr {b b' : Broker} {secretHash : SecretHash}
    (h : b'.transfers.get? ⟨.target, secretHash⟩ = b.transfers.get? ⟨.target, secretHash⟩) :
    b'.reported secretHash = b.reported secretHash := by
  rw [reported, reported, h]

section Reported

variable {b : Broker} {secretHash : SecretHash}

/-- What is filed under the key of a target is one, on the hash of the key. -/
theorem exists_target_of_key {t : Transfer} (h : t.key = ⟨.target, secretHash⟩) :
    ∃ s, t = .target s ∧ s.terms.secretHash = secretHash := by
  cases t with
  | initiator s => cases congrArg TransferKey.role h
  | mediator s => cases congrArg TransferKey.role h
  | target s => exact ⟨s, rfl, congrArg TransferKey.secretHash h⟩

/-- A target is put back as its step left it, or forgotten. -/
theorem get?_settle_target (s : Target) (effects : List Effect) :
    (b.settle (.target s) effects).1.transfers.get? ⟨.target, s.terms.secretHash⟩
      = if s.status.isTerminal then none else some (.target s) := by
  have hdrain := drain_fst_of_ignores b.view b.block (t := .target s)
    (fun refusal => congrArg (Prod.map Transfer.target id) (s.step_routeRefused refusal)) effects
  have hself := b.get?_settle_self (.target s) effects
  rw [hdrain] at hself
  exact hself

/-- Feeding one transfer reports what its outcome has to have reported. -/
theorem feed_reported (h : b.Filed) (i : Input) (key : TransferKey)
    (hkept : (b.feed i key).1.transfers.get? ⟨.target, secretHash⟩ ≠ none) :
    (b.feed i key).1.reported secretHash
      = b.reported secretHash ++ receipts secretHash (b.feed i key).2 := by
  cases ht : b.transfers.get? key with
  | none =>
      rw [feed_of_none ht, receipts_of_deeds_eq_nil (feed_deeds_of_none ht i), List.append_nil]
  | some t =>
      have hkey := (h key t ht).1
      by_cases htarget : key = ⟨.target, secretHash⟩
      · -- The target itself is fed.
        subst htarget
        rcases exists_target_of_key hkey with ⟨s, rfl, rfl⟩
        have hterms : (s.step i).1.terms.secretHash = s.terms.secretHash :=
          (Transfer.target s).step_secretHash i
        have hget := get?_settle_target (b := b) (s.step i).1 (s.step i).2
        rw [hterms] at hget
        have hfeed : b.feed i ⟨.target, s.terms.secretHash⟩
            = b.settle (.target (s.step i).1) (s.step i).2 := feed_of_some ht i
        rw [hfeed, hget] at hkept
        rw [receipts, feed_deeds ht, hfeed]
        split at hget
        · rename_i hterminal
          exact absurd (if_pos hterminal) hkept
        · rename_i hterminal
          rw [reported_of_some hget, reported_of_some ht]
          exact s.step_reported i (Bool.eq_false_iff.mpr hterminal)
      · rw [reported_congr (get?_feed_of_ne h (Ne.symm htarget) i), receipts, feed_deeds ht]
        have hnone := t.receipts_step_of_ne i (hkey ▸ htarget)
        rw [Effect.receipts] at hnone
        rw [hnone, List.append_nil]

theorem feedAll_reported (h : b.Filed) (i : Input) (keys : List TransferKey)
    (hkept : (b.feedAll i keys).1.transfers.get? ⟨.target, secretHash⟩ ≠ none) :
    (b.feedAll i keys).1.reported secretHash
      = b.reported secretHash ++ receipts secretHash (b.feedAll i keys).2 := by
  induction keys generalizing b with
  | nil => exact (List.append_nil _).symm
  | cons key rest ih =>
      have hfiled := feed_filed h i key
      -- Who is in progress at the end was so after the first.
      have hfirst : (b.feed i key).1.transfers.get? ⟨.target, secretHash⟩ ≠ none :=
        fun hnone => hkept (get?_feedAll_of_none hfiled hnone i rest)
      have hactions : (b.feedAll i (key :: rest)).2
          = (b.feed i key).2 ++ ((b.feed i key).1.feedAll i rest).2 := rfl
      have hlater := ih hfiled hkept
      rw [feed_reported h i key hfirst, List.append_assoc, ← receipts_append, ← hactions] at hlater
      exact hlater

/-- An input reports what it leaves in progress has to have reported. -/
theorem after_reported (h : b.Filed) (i : BrokerInput)
    (hkept : (b.after i).transfers.get? ⟨.target, secretHash⟩ ≠ none) :
    (b.after i).reported secretHash
      = b.reported secretHash ++ receipts secretHash (b.react i).2 := by
  rcases b.react_cases i with hignores | ⟨b', fact, keys, htells⟩ | ⟨b', t, effects, hbegins⟩
  · rw [receipts_of_deeds_eq_nil hignores.deeds, List.append_nil]
    exact reported_congr (by rw [hignores.transfers])
  · have hfiled : b'.Filed := (h.holds htells.before).toFiled
    rw [htells.transfers] at hkept
    have hbefore : b'.reported secretHash = b.reported secretHash :=
      reported_congr (by rw [htells.before])
    have hafter : (b.after i).reported secretHash
        = (b'.feedAll fact keys).1.reported secretHash := reported_congr (by rw [htells.transfers])
    rw [hafter, feedAll_reported hfiled fact keys hkept, hbefore, receipts, receipts, htells.deeds]
  · rw [receipts_of_deeds_eq_nil hbegins.deeds, List.append_nil]
    by_cases hkey : t.key = ⟨.target, secretHash⟩
    · -- The payment begins, and waits for its secret.
      rcases exists_target_of_key hkey with ⟨s, rfl, rfl⟩
      have hget := get?_settle_target (b := b') s effects
      rw [← hbegins.transfers] at hget
      have hnot : s.status ≠ .waitingUnlock := of_decide_eq_false hbegins.waits
      have hbefore : b.reported s.terms.secretHash = [] := reported_of_none hbegins.new
      split at hget
      · exact absurd hget hkept
      · rw [reported_of_some hget, Target.reported_of_not_waiting hnot, hbefore]
    · refine reported_congr ?_
      rw [hbegins.transfers, get?_settle_of_ne (Ne.symm hkey), hbegins.before]

/-- As long as the payment is in progress, the reports are those that there have to
    be. -/
theorem run_reported (h : b.Filed) (inputs : List BrokerInput)
    (hkeeps : b.KeepsInProgress ⟨.target, secretHash⟩ inputs) :
    (b.run inputs).reported secretHash
      = b.reported secretHash ++ receipts secretHash (b.outputs inputs) := by
  induction inputs using List.reverseRec with
  | nil => exact (List.append_nil _).symm
  | append_singleton inputs i ih =>
      rcases keepsInProgress_concat.mp hkeeps with ⟨hpast, hnow⟩
      rw [run_append] at hnow ⊢
      have hstep := after_reported (h.run inputs) i hnow
      rw [ih hpast, List.append_assoc] at hstep
      rw [outputs_append, receipts_append, outputs_singleton]
      exact hstep

end Reported

/-! ### The law of receipts -/

/-- What is true of an unlock that the channel of a payment in progress accepts on its
    hash. -/
structure ReceiptLaw (b₀ : Broker) (inputs : List BrokerInput) (sender : Address) (u : Unlock)
    (s : Target) : Prop where
  /-- It comes from the payer. -/
  by_payer : sender = s.payerRoute.node
  /-- It turns the lock that is pending there into a transferred amount. -/
  credits : ∃ c l, (b₀.run inputs).view.channel? s.payerRoute.channelId = some c ∧
    c.partner.pendingLocks.get? s.terms.secretHash = some l ∧
    (b₀.run inputs).view.Unlocks ((b₀.run inputs).after (.message sender (.unlock u))).view
      s.payerRoute.channelId s.terms.secretHash l.amount
  /-- It ends the transfer exactly if the secret was learned before. -/
  ends_iff : ((b₀.run inputs).after (.message sender (.unlock u))).transfers.get?
    ⟨.target, s.terms.secretHash⟩ = none ↔ s.status = .waitingUnlock
  /-- Then the transfer is completed. -/
  completes : s.status = .waitingUnlock →
    (s.step (.proofReceived ⟨sender, s.terms.secretHash, .unlock u⟩)).1.status = .completed
  /-- Otherwise it does not hear of the unlock, and goes on as before. -/
  keeps : s.status ≠ .waitingUnlock →
    ((b₀.run inputs).after (.message sender (.unlock u))).transfers.get?
      ⟨.target, s.terms.secretHash⟩ = some (.target s)
  /-- From its beginning to the unlock the payment was reported once if the secret was
      learned, and not at all if it was not. -/
  reports : ∃ before since, inputs = before ++ since ∧
    (b₀.run before).transfers.get? ⟨.target, s.terms.secretHash⟩ = none ∧
    (b₀.run before).KeepsInProgress ⟨.target, s.terms.secretHash⟩ since ∧
    receipts s.terms.secretHash
        ((b₀.run before).outputs (since ++ [.message sender (.unlock u)]))
      = if s.status = .waitingUnlock then [s.receipt] else []

section Law

variable {log : List Offer} {b : Broker} {sender : Address} {u : Unlock} {s : Target}

/-- The channel that takes an unlock naming the transfer's channel is this channel, so
    the sender is the payer. -/
theorem sender_eq_of_takesUnlock (h : b.Grounded log) {k : TransferKey}
    (ht : b.transfers.get? k = some (.target s))
    (hchannel : u.balanceProof.channelId = s.payerRoute.channelId)
    (hnetwork : u.balanceProof.tokenNetwork = s.terms.tokenNetwork)
    (htakes : b.TakesUnlock sender u) : sender = s.payerRoute.node := by
  rcases htakes with ⟨c, c', hc, rfl, hop⟩
  rcases NetworkView.find?_of_channel? hc with ⟨tokenNetwork, hfind⟩
  have haccepts :
      b.Accepts (.message c.partner.address (.unlock u)) (.unlock u) tokenNetwork c c' :=
    ⟨⟨_, rfl, rfl⟩, hfind, hop⟩
  have hname : u.balanceProof.tokenNetwork = tokenNetwork :=
    haccepts.tokenNetwork_eq h.logged h.housed
  obtain ⟨d, hd, haddress⟩ := h.anchored k _ ht _ rfl
  have hd' : b.view.stored? s.terms.tokenNetwork s.payerRoute.channelId = some d := hd
  rw [← hnetwork, ← hchannel, hname, NetworkView.stored?_of_find? hfind, Option.some.injEq] at hd'
  rw [hd']
  exact haddress

/-- The law where every transfer still has its channel. -/
theorem receiptLaw_of_grounded {b₀ : Broker} {inputs : List BrokerInput} (hf : b₀.Filed)
    (hnone : b₀.transfers.get? ⟨.target, hashSecret u.secret⟩ = none)
    (h : (b₀.run inputs).Grounded log)
    (ht : (b₀.run inputs).transfers.get? ⟨.target, hashSecret u.secret⟩ = some (.target s))
    (hchannel : u.balanceProof.channelId = s.payerRoute.channelId)
    (hnetwork : u.balanceProof.tokenNetwork = s.terms.tokenNetwork)
    (htakes : (b₀.run inputs).TakesUnlock sender u) : ReceiptLaw b₀ inputs sender u s := by
  have hfiled : (b₀.run inputs).Filed := h.logged.toFiled
  have hhash : s.terms.secretHash = hashSecret u.secret :=
    congrArg TransferKey.secretHash (hfiled _ _ ht).1
  have hsender := sender_eq_of_takesUnlock h ht hchannel hnetwork htakes
  have hexpects : (Transfer.target s).Expects sender ↔ s.status = .waitingUnlock := by
    constructor
    · exact fun hwaits => of_decide_eq_true hwaits.1
    · exact fun hwaits => ⟨decide_eq_true hwaits, _, rfl, hsender.symm⟩
  have hends : ((b₀.run inputs).after (.message sender (.unlock u))).transfers.get?
      ⟨.target, hashSecret u.secret⟩ = none ↔ s.status = .waitingUnlock := by
    rw [← hexpects]
    exact (get?_unlock_eq_none_iff hfiled ht).trans
      ((and_iff_right htakes).trans (and_iff_right rfl))
  refine ⟨hsender, ?_, ?_, ?_, ?_, ?_⟩
  · rw [hhash, ← hchannel]
    have hsound : ∀ c, (b₀.run inputs).view.channel? u.balanceProof.channelId = some c →
        c.partner.Sound := fun c hc => (h.logged.channels _ c hc).sound .partner
    rcases receive_unlock_unlocks hfiled hsound htakes with ⟨c, l, hc, -, hl, hu⟩
    exact ⟨c, l, hc, hl, hu⟩
  · rw [hhash]
    exact hends
  · intro hwaits
    exact of_decide_eq_true (Transfer.step_unlock_of_expects u (hexpects.mpr hwaits)).1
  · intro hwaits
    rw [hhash]
    rcases receive_unlock sender u hfiled with ⟨hnot, -⟩ | ⟨-, -, -, -, -, -, -, htransfers⟩
    · exact absurd htakes hnot
    · exact (htransfers _ _).mpr ⟨ht, fun hand => hwaits (hexpects.mp hand.2)⟩
  · -- The reports since the beginning are those that there have to be, and the unlock
    -- itself is no cause for one.
    rw [hhash]
    have hprogress : (b₀.run inputs).transfers.get? ⟨.target, hashSecret u.secret⟩ ≠ none := by
      rw [ht]
      exact Option.some_ne_none _
    rcases exists_beginning hnone inputs hprogress with ⟨before, since, rfl, hbefore, hkeeps⟩
    refine ⟨before, since, rfl, hbefore, hkeeps, ?_⟩
    rw [run_append] at ht hfiled
    have hrun := run_reported (hf.run before) since hkeeps
    rw [reported_of_none hbefore, List.nil_append, reported_of_some ht] at hrun
    have hlast : receipts (hashSecret u.secret)
        ((((b₀.run before).run since).react (.message sender (.unlock u))).2) = [] :=
      receipts_of_deeds_eq_nil (react_deeds_of_proofReceived hfiled rfl) _
    rw [outputs_append, receipts_append, outputs_singleton, hlast, List.append_nil, ← hrun]
    rfl

/-- After any inputs, an unlock that the channel of a payment in progress accepts on its
    hash ends the transfer, with one report since it began, exactly if the secret was
    learned before. -/
theorem run_receiptLaw (ourAddress : Address) (revealTimeout block : Height)
    (inputs : List BrokerInput) (sender : Address) (u : Unlock) {s : Target}
    (ht : ((fresh (NetworkView.fresh ourAddress revealTimeout) block).run inputs).transfers.get?
      ⟨.target, hashSecret u.secret⟩ = some (.target s))
    (hchannel : u.balanceProof.channelId = s.payerRoute.channelId)
    (hnetwork : u.balanceProof.tokenNetwork = s.terms.tokenNetwork)
    (htakes : ((fresh (NetworkView.fresh ourAddress revealTimeout) block).run inputs).TakesUnlock
      sender u) :
    ReceiptLaw (fresh (NetworkView.fresh ourAddress revealTimeout) block) inputs sender u s :=
  receiptLaw_of_grounded (grounded_fresh ourAddress revealTimeout block).logged.toFiled
    (SortedMap.get?_empty _) (run_fresh_grounded ourAddress revealTimeout block inputs)
    ht hchannel hnetwork htakes

end Law

end Broker

/-! ### An unlock before the secret -/

namespace EarlyUnlock

open Broker DoubleOffer

/-- The channel is opened, and the payer deposits. -/
def opening : List BrokerInput :=
  [.chain (.channelOpened large.tokenNetwork large.channelId payee payer 20 1),
    .chain (.channelNewDeposit large.tokenNetwork large.channelId payer 100 2)]

/-- The payer offers a lock. -/
def inputs : List BrokerInput := opening ++ [.message payer (.lockedTransfer large.message)]

theorem find?_opening :
    ((fresh (NetworkView.fresh payee 5) 10).run opening).view.find? large.channelId
      = some (large.tokenNetwork, large.funded) := by decide +kernel

theorem run_inputs : (fresh (NetworkView.fresh payee 5) 10).run inputs
    = begun ((fresh (NetworkView.fresh payee 5) 10).run opening).view large := by
  have hrun : (fresh (NetworkView.fresh payee 5) 10).run inputs
      = (fresh ((fresh (NetworkView.fresh payee 5) 10).run opening).view 10).after
        (.message payer (.lockedTransfer large.message)) := List.foldl_append
  rw [hrun]
  exact after_message rfl rfl find?_opening (by decide)

/-- The unlock of a leg shows its secret, and names the channel of its transfer. -/
theorem unlock_names (g : Leg) : hashSecret g.unlock.secret = hashSecret g.secret ∧
    g.unlock.balanceProof.channelId = g.target.payerRoute.channelId ∧
    g.unlock.balanceProof.tokenNetwork = g.target.terms.tokenNetwork := ⟨rfl, rfl, rfl⟩

theorem target_secretHash (g : Leg) : g.target.terms.secretHash = hashSecret g.secret := rfl

/-- The target asks for the secret. -/
theorem get?_inputs : ((fresh (NetworkView.fresh payee 5) 10).run inputs).transfers.get?
    ⟨.target, hashSecret large.unlock.secret⟩ = some (.target large.target) := by
  rw [run_inputs, (unlock_names large).1]
  exact (get?_keep_of_not_isTerminal rfl _).trans (if_pos rfl)

theorem find?_inputs :
    ((fresh (NetworkView.fresh payee 5) 10).run inputs).view.find? large.channelId
      = some (large.tokenNetwork, large.filed) := by
  rw [run_inputs, begun, keep_view]
  exact NetworkView.find?_putChannel_self find?_opening

theorem channel?_inputs :
    ((fresh (NetworkView.fresh payee 5) 10).run inputs).view.channel? large.channelId
      = some large.filed :=
  NetworkView.channel?_of_find? find?_inputs

theorem takesUnlock_inputs :
    ((fresh (NetworkView.fresh payee 5) 10).run inputs).TakesUnlock payer large.unlock :=
  ⟨large.filed, _, channel?_inputs, rfl, large.receiveUnlock_unlock (by decide)⟩

theorem receiptLaw_inputs :
    ReceiptLaw (fresh (NetworkView.fresh payee 5) 10) inputs payer large.unlock large.target :=
  receiptLaw_of_grounded (grounded_fresh payee 5 10).logged.toFiled (SortedMap.get?_empty _)
    (run_fresh_grounded payee 5 10 inputs) get?_inputs (unlock_names large).2.1
    (unlock_names large).2.2 takesUnlock_inputs

/-- The payer unlocks the lock before the secret was revealed. The channel credits the
    amount, but the transfer goes on asking for the secret, and nothing is reported in
    the whole run. -/
theorem credited_unreported :
    let b₀ := fresh (NetworkView.fresh payee 5) 10
    let b := b₀.run inputs
    let b' := b.after (.message payer (.unlock large.unlock))
    b.transfers.get? ⟨.target, hashSecret large.unlock.secret⟩ = some (.target large.target) ∧
    large.unlock.balanceProof.channelId = large.target.payerRoute.channelId ∧
    large.unlock.balanceProof.tokenNetwork = large.target.terms.tokenNetwork ∧
    b.TakesUnlock payer large.unlock ∧
    b.view.Unlocks b'.view large.channelId (hashSecret large.secret) 50 ∧
    b'.transfers.get? ⟨.target, hashSecret large.secret⟩ = some (.target large.target) ∧
    receipts (hashSecret large.secret)
      (b₀.outputs (inputs ++ [.message payer (.unlock large.unlock)])) = [] := by
  have hfiled := (run_fresh_grounded payee 5 10 inputs).logged.toFiled
  have hkeeps := receiptLaw_inputs.keeps (by decide)
  obtain ⟨c, l, hc, hl, hu⟩ := receiptLaw_inputs.credits
  rw [target_secretHash] at hkeeps hl hu
  refine ⟨get?_inputs, (unlock_names large).2.1, (unlock_names large).2.2, takesUnlock_inputs,
    ?_, hkeeps, ?_⟩
  · cases hc.symm.trans channel?_inputs
    have hlock : large.filed.partner.pendingLocks.get? (hashSecret large.secret)
        = some large.lock := SortedMap.get?_insert_self _ _ _
    cases hl.symm.trans hlock
    exact hu
  · refine receipts_of_deeds_eq_nil ?_ _
    rw [outputs_append, deeds_append, outputs_singleton,
      react_deeds_of_proofReceived hfiled rfl, List.append_nil, inputs, outputs_append,
      deeds_append, outputs_singleton, react_lockedTransfer, receiveTransfer_deeds,
      List.append_nil]
    rfl

theorem run_receiptLaw_earlyUnlock :
    ((fresh (NetworkView.fresh payee 5) 10).run inputs).transfers.get?
        ⟨.target, hashSecret large.unlock.secret⟩ = some (.target large.target) ∧
    large.unlock.balanceProof.channelId = large.target.payerRoute.channelId ∧
    large.unlock.balanceProof.tokenNetwork = large.target.terms.tokenNetwork ∧
    ((fresh (NetworkView.fresh payee 5) 10).run inputs).TakesUnlock payer large.unlock ∧
    ReceiptLaw (fresh (NetworkView.fresh payee 5) 10) inputs payer large.unlock large.target :=
  ⟨get?_inputs, (unlock_names large).2.1, (unlock_names large).2.2, takesUnlock_inputs,
    run_receiptLaw payee 5 10 inputs payer large.unlock get?_inputs (unlock_names large).2.1
      (unlock_names large).2.2 takesUnlock_inputs⟩

end EarlyUnlock

end PaymentNetwork

import Mathlib.Order.Bounds.Defs
import PaymentNetwork.Chain.Monitor
import PaymentNetwork.Proofs.Broker.Start
import PaymentNetwork.Proofs.Node.Run

/-!
# Sums of Heights

Where a node adds to a height or to a timeout without looking at the bound, and what comes
of it.

There are three such places: the wait until a token network can be left, the expiration of a
payment, and the gap between two heights of the ledger. The last one is safe. A height that
is not above the last one is dealt with first, so the next height exists, and the gap is
counted only if there is one. The other two are not. The settle timeout of a channel is what
the participant who opened it says, and with the largest one the block that closing takes is
one too many. And near the end of all heights a payment has no expiration.

As long as the sums fit, the results are the right ones. The wait is the least one after
which every channel that received something can be settled. And half of the settle timeout is
more than the reveal timeout in every accepted configuration. All channels of a node have the
reveal timeout of the configuration, those included that are not found under their identifier
any more. So the time of a payment that starts is enough for every channel of the network.

## Main definitions

* `ConnectionSettings.settlingBlock`: When a channel can be settled.
* `ConnectionSettings.SettleLaw`: How long leaving takes.
* `Monitor.sentence?`: What is noteworthy about a height, with all sums checked.
* `NetworkView.RevealsIn`: All channels have the same reveal timeout.
* `Node.LeavesTime`: No channel turns a payment down for its expiration.
* `Node.HeightLaw`: What comes of sums of heights.

## Theorems

* `ConnectionSettings.settleLaw`: The wait exists unless a settle timeout is the largest
  height, and is the least one.
* `Monitor.sentence?_eq`: What is noteworthy about a height takes no sum that does not fit.
* `Node.run_revealsIn`: All channels of a node have its reveal timeout.
* `Node.leavesTime_of_termsOf?`: A payment that starts has enough time.
* `Node.run_heightLaw`: The law after any inputs.
-/

namespace PaymentNetwork

-- Powers are those of the core library, whichever other instance is in scope.
attribute [local instance (high)] instPowNat

/-- The largest height. -/
def largestHeight : Height := .ofNat 64 (2 ^ (64 : Nat) - 1)

/-! ### Leaving a token network -/

theorem Word.foldl_max_le_iff {bits n : Nat} {w : Word bits} {ws : List (Word bits)} :
    (ws.foldl Word.max w).val ≤ n ↔ w.val ≤ n ∧ ∀ x ∈ ws, x.val ≤ n := by
  induction ws generalizing w with
  | nil => simp
  | cons x rest ih =>
      have hmax : (w.max x).val ≤ n ↔ w.val ≤ n ∧ x.val ≤ n := by
        unfold Word.max
        split
        · rename_i hle
          rw [Word.le_iff] at hle
          omega
        · rename_i hnot
          rw [Word.not_le, Word.lt_iff] at hnot
          omega
      rw [List.foldl_cons, ih, hmax, List.forall_mem_cons, and_assoc]

section MapM

variable {α β : Type} {f : α → Option β} {l : List α}

theorem mapM_eq_none_iff : l.mapM f = none ↔ ∃ a ∈ l, f a = none := by
  induction l with
  | nil => simp
  | cons a rest ih =>
      rw [List.mapM_cons]
      simp only [List.mem_cons, or_and_right, exists_or, exists_eq_left, ← ih]
      cases f a with
      | none => simp
      | some b =>
          cases rest.mapM f with
          | none => simp
          | some bs => simp

theorem mem_of_mapM_eq_some {bs : List β} (h : l.mapM f = some bs) {b : β} :
    b ∈ bs ↔ ∃ a ∈ l, f a = some b := by
  induction l generalizing bs with
  | nil =>
      cases h
      simp
  | cons a rest ih =>
      rw [List.mapM_cons] at h
      cases ha : f a with
      | none =>
          rw [ha] at h
          cases h
      | some b' =>
          cases hrest : rest.mapM f with
          | none =>
              rw [ha, hrest] at h
              cases h
          | some bs' =>
              rw [ha, hrest] at h
              cases h
              rw [List.mem_cons, ih hrest, @eq_comm β b b', ← Option.some.injEq, ← ha]
              simp only [List.mem_cons, or_and_right, exists_or, exists_eq_left]

end MapM

theorem Channel.closedBlock?_eq_none_iff {c : Channel} :
    c.closedBlock? = none ↔ c.isOpen = true := by
  unfold closedBlock? isOpen
  cases c.status with
  | opened => simp
  | closed b => simp
  | settled b => simp

namespace ConnectionSettings

/-- The channels that received something and are not settled. -/
def unsettled (s : ConnectionSettings) (view : NetworkView) : List Channel :=
  (view.channels s.tokenNetwork).filter fun c => c.hasReceivedTransfers && !c.isSettled

/-- The block from which on a channel can be settled. One that is open is closed in the next
    block. -/
def settlingBlock (block : Height) (c : Channel) : Nat :=
  match c.closedBlock? with
  | some closed => closed.val + c.settleTimeout.val
  | none => block.val + 1 + c.settleTimeout.val

/-- How long leaving takes. -/
structure SettleLaw (s : ConnectionSettings) (view : NetworkView) (block : Height) : Prop where
  /-- A sum exceeds all heights exactly if an open channel that received something has the
      largest settle timeout. -/
  overflows : s.minSettleBlocks? view block = none ↔
    ∃ c ∈ s.unsettled view, c.isOpen = true ∧ c.settleTimeout = largestHeight
  /-- Otherwise the wait is the least one after which all these channels can be settled,
      unless one of them was closed later than now. -/
  least : ∀ wait, s.minSettleBlocks? view block = some wait →
    (∀ c ∈ s.unsettled view, ∀ closed, c.closedBlock? = some closed → closed ≤ block) →
    IsLeast {n : Nat | ∀ c ∈ s.unsettled view, settlingBlock block c ≤ block.val + n} wait.val

section Settle

variable {s : ConnectionSettings} {view : NetworkView} {block : Height} {c : Channel}

/-- Only the wait for a channel that is open can exceed all heights. -/
theorem settleBlocks?_eq_none_iff :
    settleBlocks? block c = none ↔ c.isOpen = true ∧ c.settleTimeout = largestHeight := by
  rw [← Channel.closedBlock?_eq_none_iff, settleBlocks?]
  cases c.closedBlock? with
  | some closed => simp
  | none =>
      have hlt := c.settleTimeout.isLt
      have hone : (1 : Height).val = 1 := rfl
      have hlargest : largestHeight.val = 2 ^ (64 : Nat) - 1 := rfl
      rw [Word.add?_eq_none_iff, Word.ext_iff, hone, hlargest]
      constructor
      · intro hle
        exact ⟨rfl, by omega⟩
      · rintro ⟨-, heq⟩
        omega

/-- The wait for a channel is long enough, and no longer. -/
theorem settlingBlock_le_iff {wait : Height} (h : settleBlocks? block c = some wait)
    (hclosed : ∀ closed, c.closedBlock? = some closed → closed ≤ block) (n : Nat) :
    settlingBlock block c ≤ block.val + n ↔ wait.val ≤ n := by
  rw [settleBlocks?] at h
  rw [settlingBlock]
  cases hstatus : c.closedBlock? with
  | some closed =>
      -- It was closed before now, so the time since then is a difference that is not cut off.
      have hle := Word.le_iff.mp (hclosed closed hstatus)
      rw [hstatus] at h
      cases h
      rw [Word.val_satSub, Word.val_satSub]
      dsimp only
      omega
  | none =>
      rw [hstatus] at h
      have hsum := Word.add?_eq_some_iff.mp h
      have hone : (1 : Height).val = 1 := rfl
      dsimp only
      omega

theorem minSettleBlocks?_eq : s.minSettleBlocks? view block
    = ((s.unsettled view).mapM (settleBlocks? block)).map (·.foldl Word.max 0) := by
  rw [minSettleBlocks?, unsettled]
  cases List.mapM (settleBlocks? block) _ with
  | none => rfl
  | some waits => rfl

/-- A number of blocks is enough for all channels if it is for each of them. -/
theorem minSettleBlocks?_le_iff {wait : Height} (h : s.minSettleBlocks? view block = some wait)
    (hclosed : ∀ c ∈ s.unsettled view, ∀ closed, c.closedBlock? = some closed → closed ≤ block)
    (n : Nat) : wait.val ≤ n ↔
      ∀ c ∈ s.unsettled view, settlingBlock block c ≤ block.val + n := by
  rw [minSettleBlocks?_eq, Option.map_eq_some_iff] at h
  obtain ⟨waits, hwaits, rfl⟩ := h
  rw [Word.foldl_max_le_iff, Word.val_zero, and_iff_right (Nat.zero_le n)]
  constructor
  · intro hall c hc
    -- No sum exceeded all heights, so every channel has a wait.
    cases hwait : settleBlocks? block c with
    | none =>
        rw [mapM_eq_none_iff.mpr ⟨c, hc, hwait⟩] at hwaits
        cases hwaits
    | some wait =>
        exact (settlingBlock_le_iff hwait (hclosed c hc) n).mpr
          (hall wait ((mem_of_mapM_eq_some hwaits).mpr ⟨c, hc, hwait⟩))
  · intro hall wait hmem
    obtain ⟨c, hc, hwait⟩ := (mem_of_mapM_eq_some hwaits).mp hmem
    exact (settlingBlock_le_iff hwait (hclosed c hc) n).mp (hall c hc)

theorem settleLaw (s : ConnectionSettings) (view : NetworkView) (block : Height) :
    s.SettleLaw view block where
  overflows := by
    rw [minSettleBlocks?_eq, Option.map_eq_none_iff, mapM_eq_none_iff]
    exact exists_congr fun c => and_congr_right fun _ => settleBlocks?_eq_none_iff
  least wait h hclosed := by
    have henough := minSettleBlocks?_le_iff h hclosed
    exact ⟨(henough wait.val).mp (Nat.le_refl _), fun n hn => (henough n).mpr hn⟩

end Settle

end ConnectionSettings

/-! ### The gap between two heights -/

/-- The difference, if it is a word. -/
def Word.sub? {bits : Nat} (a b : Word bits) : Option (Word bits) :=
  if b ≤ a then some (a.satSub b) else none

namespace Monitor

/-- The sentence about a height after another one, if there is something to say. Every sum
    and every difference is checked, and there is no answer at all if one does not fit. -/
def sentence? (last? : Option Height) (height : Height) : Option (Option String) :=
  match last? with
  | none => some none
  | some last =>
    if height = last then some none
    else if height < last then some (some (HeightWarning.wentBack last height).message)
    else do
      let next ← last.add? 1
      if next < height then
        let missed ← (← height.sub? last).sub? 1
        return some ("chain monitor: missed " ++ missed.toText ++ " blocks (last: "
          ++ last.toText ++ ", new: " ++ height.toText ++ ")")
      else return none

/-- There is a next height after each height that is below another one. -/
theorem exists_next {last height : Height} (h : last.val < height.val) :
    ∃ next, last.add? 1 = some next ∧ next.val = last.val + 1 := by
  have hone : (1 : Height).val = 1 := rfl
  have hbound := height.isLt
  cases hnext : last.add? 1 with
  | none =>
      have hover := Word.add?_eq_none_iff.mp hnext
      omega
  | some next => exact ⟨next, rfl, (Word.add?_eq_some_iff.mp hnext).symm⟩

/-- All sums and differences fit, and the sentence is the one that is reported. -/
theorem sentence?_eq {σ κ : Type} (react : σ → κ → Height → Nat → Reaction σ κ) (m : Monitor κ)
    (world : σ) (height : Height) : sentence? m.lastHeight? height
      = some ((m.observe react world height).2.2.map HeightWarning.message) := by
  unfold observe sentence?
  cases m.lastHeight? with
  | none => rfl
  | some last =>
      by_cases hsame : height = last
      · rw [if_pos (congrArg some hsame.symm)]
        exact if_pos hsame
      · rw [if_neg (fun heq => hsame (Option.some.inj heq).symm)]
        dsimp only [Option.bind_some]
        rw [if_neg hsame, HeightWarning.between?]
        by_cases hback : height < last
        · rw [if_pos hback, if_pos hback]
          rfl
        · rw [if_neg hback, if_neg hback]
          -- The height is above the last one, so the last one is not the largest.
          have habove : last.val < height.val := by
            have hle := Word.le_iff.mp (Word.not_lt.mp hback)
            have hne : height.val ≠ last.val := fun heq => hsame (Word.ext heq)
            omega
          obtain ⟨next, hnext, hval⟩ := exists_next habove
          have hiff : next < height ↔ last.val + 1 < height.val := by rw [Word.lt_iff, hval]
          rw [hnext, Option.bind_eq_bind, Option.bind_some]
          by_cases hgap : next < height
          · have hdistance : height.sub? last = some (height.satSub last) :=
              if_pos (Word.le_iff.mpr (Nat.le_of_lt habove))
            have hone : (1 : Height).val ≤ (height.satSub last).val :=
              Nat.le_sub_of_add_le' (hiff.mp hgap).le
            have hmissed : (height.satSub last).sub? 1 = some ((height.satSub last).satSub 1) :=
              if_pos hone
            rw [if_pos hgap, if_pos (hiff.mp hgap), hdistance, Option.bind_some, hmissed]
            rfl
          · rw [if_neg hgap, if_neg (fun h => hgap (hiff.mpr h))]
            rfl

end Monitor

/-! ### The reveal timeouts of all channels -/

namespace NetworkView

/-- All channels have this reveal timeout, whether they are found under their identifier or
    not. -/
def RevealsIn (revealTimeout : Height) (v : NetworkView) : Prop :=
  ∀ tokenNetwork id c, v.stored? tokenNetwork id = some c → c.revealTimeout = revealTimeout

section RevealsIn

variable {revealTimeout : Height} {v v' : NetworkView}

theorem revealsIn_fresh (ourAddress : Address) (revealTimeout : Height) :
    (fresh ourAddress revealTimeout).RevealsIn revealTimeout := by
  intro tokenNetwork id c hc
  cases hc

theorem RevealsIn.of_mem (h : v.RevealsIn revealTimeout) {tokenNetwork : Address} {c : Channel}
    (hc : c ∈ v.channels tokenNetwork) : c.revealTimeout = revealTimeout := by
  obtain ⟨id, hid⟩ := SortedMap.mem_values_iff.mp hc
  exact h tokenNetwork id c hid

theorem RevealsIn.congr (h : v.RevealsIn revealTimeout) (hsame : v.SameChannels v') :
    v'.RevealsIn revealTimeout := by
  intro tokenNetwork id c hc
  rw [hsame.stored] at hc
  exact h tokenNetwork id c hc

theorem RevealsIn.putChannel (h : v.RevealsIn revealTimeout) {tokenNetwork : Address}
    {channelId : ChannelId} {c c' : Channel} (hfind : v.find? channelId = some (tokenNetwork, c))
    (heq : c'.revealTimeout = c.revealTimeout) :
    (v.putChannel tokenNetwork channelId c').RevealsIn revealTimeout := by
  intro other id d hd
  rcases stored?_putChannel_cases hfind c' other id with hsame | ⟨-, -, hc, hput⟩
  · exact h other id d (hsame ▸ hd)
  · rw [hput, Option.some.injEq] at hd
    rw [← hd, heq]
    exact h other id c hc

theorem RevealsIn.creates (h : v.RevealsIn revealTimeout) (hcreates : v.Creates v') :
    v'.RevealsIn revealTimeout := by
  induction hcreates with
  | refl => exact h
  | create _ found created ih =>
      obtain ⟨e, rfl⟩ := Channel.create_ours created
      exact ih.putChannel found rfl

theorem RevealsIn.apply (h : v.RevealsIn revealTimeout) (hview : v.revealTimeout = revealTimeout)
    (e : ChainEvent) : (v.apply e).RevealsIn revealTimeout := by
  intro tokenNetwork id d hd
  rcases stored?_apply v e tokenNetwork id with hsame | ⟨c, hc, heq⟩ | ⟨-, c, heq, -, hreveal⟩
  · exact h tokenNetwork id d (hsame ▸ hd)
  · rw [heq, Option.some.injEq] at hd
    rw [← hd, Channel.applyEvent_revealTimeout]
    exact h tokenNetwork id c hc
  · rw [heq, Option.some.injEq] at hd
    rw [← hd, hreveal, hview]

end RevealsIn

end NetworkView

namespace Broker

variable {revealTimeout : Height} {b : Broker}

/-- No input changes the reveal timeout of a channel. -/
theorem Disciplined.after_revealsIn (hb : Disciplined revealTimeout b)
    (h : b.view.RevealsIn revealTimeout) (i : BrokerInput) :
    (b.after i).view.RevealsIn revealTimeout := by
  rcases b.view_after_creates i with
    hcreates | ⟨m, tokenNetwork, c, c', haccepts, hcreates⟩ | ⟨e, -, hcreates⟩
  · exact h.creates hcreates
  · -- An accepted message keeps what the channels of a disciplined broker have in common.
    have hc := hb.regular.holds.channels _ c (NetworkView.channel?_of_find? haccepts.found)
    have hc' := uniform_accept hc haccepts.accepted
    exact (h.putChannel haccepts.found
      (hc'.revealTimeout_eq.trans hc.revealTimeout_eq.symm)).creates hcreates
  · exact (h.apply hb.regular.view e).creates hcreates

theorem Disciplined.run_revealsIn (hb : Disciplined revealTimeout b)
    (h : b.view.RevealsIn revealTimeout) {inputs : List BrokerInput}
    (hvisits : b.VisitsAll inputs) : (b.run inputs).view.RevealsIn revealTimeout := by
  induction inputs generalizing b with
  | nil => exact h
  | cons i rest ih => exact ih (hb.after hvisits.1) (hb.after_revealsIn h i) hvisits.2

end Broker

namespace Node

theorem after_revealsIn {revealTimeout : Height} {n : Node}
    (hn : Broker.Disciplined revealTimeout n.broker) (h : n.view.RevealsIn revealTimeout)
    (i : NodeInput) : (n.after i).view.RevealsIn revealTimeout := by
  rw [view]
  rcases n.after_broker i with heq | ⟨-, tokenNetwork, blocked, heq⟩
  · rw [heq]
    exact hn.run_revealsIn h (n.visitsAll_moves i)
  · rw [heq]
    exact h.congr (NetworkView.sameChannels_setBlocked n.broker.view tokenNetwork blocked)

/-- All channels of a node have its reveal timeout. -/
theorem run_revealsIn (c : NodeConfig) (inputs : List NodeInput) :
    ((fresh c).run inputs).view.RevealsIn c.revealTimeout := by
  induction inputs using List.reverseRec with
  | nil => exact NetworkView.revealsIn_fresh c.ourAddress c.revealTimeout
  | append_singleton inputs i ih =>
      rw [run_append]
      exact after_revealsIn (run_disciplined c inputs) ih i

theorem after_config (n : Node) (i : NodeInput) : (n.after i).config = n.config := by
  cases i with
  | push e => rfl
  | block number => rw [after_block]
  | message sender m => rfl
  | pay terms =>
      rw [after, react, pay]
      cases n.broker.pay terms with
      | ok r => rfl
      | error e => rfl
  | start tokenNetwork op =>
      have hmanage : (n.manage tokenNetwork).config = n.config := by
        unfold manage
        split
        · rfl
        · rfl
      exact hmanage
  | wake tokenNetwork p w => rfl

/-- The configuration of a node does not change. -/
theorem run_config (c : NodeConfig) (inputs : List NodeInput) :
    ((fresh c).run inputs).config = c := by
  induction inputs using List.reverseRec with
  | nil => rfl
  | append_singleton inputs i ih =>
      rw [run_append]
      exact (after_config _ i).trans ih

/-! ### The expiration of a payment -/

/-- The payment is not turned down for its expiration: not before a route is tried, not by a
    channel that is open and has enough to spend, and not by a channel that is asked for the
    lock. -/
structure LeavesTime (n : Node) (terms : TransferTerms) : Prop where
  exceeds : n.broker.block.val + n.config.revealTimeout.val < terms.expiration.val
  begins : Initiator.start (n.broker.beginning terms) n.broker.block
    = (n.broker.untried terms).tryNextRoute
  usable : ∀ s : Initiator, s.terms = terms → s.blockNumber = n.broker.block →
    ∀ tokenNetwork, ∀ c ∈ n.view.channels tokenNetwork, c.isOpen = true →
      terms.amount ≤ c.ourDistributable → s.usable c.route = true
  taken : ∀ c : Channel,
    c.sendTransfer { terms with secret? := none } n.broker.block ≠ .error .lockExpired

/-- What comes of sums of heights. -/
structure HeightLaw (n : Node) : Prop where
  /-- Whatever is in view, the wait until a token network can be left is as described. -/
  settles : ∀ (s : ConnectionSettings) (view : NetworkView) (block : Height),
    s.SettleLaw view block
  /-- A height of the ledger takes no sum and no difference that does not fit. -/
  notices : ∀ {σ κ : Type} (react : σ → κ → Height → Nat → Reaction σ κ) (m : Monitor κ)
    (world : σ) (height : Height), Monitor.sentence? m.lastHeight? height
      = some ((m.observe react world height).2.2.map HeightWarning.message)
  /-- A payment has no expiration exactly if the sum exceeds all heights. -/
  overflows : ∀ tokenNetwork target amount paymentId secret,
    n.termsOf? tokenNetwork target amount paymentId secret = none ↔
      2 ^ (64 : Nat) ≤ n.broker.block.val + n.config.settleTimeout.val / 2
  /-- Otherwise it expires after half of the settle timeout, which is time enough. -/
  expires : ∀ tokenNetwork target amount paymentId secret terms,
    n.termsOf? tokenNetwork target amount paymentId secret = some terms →
      terms.expiration.val = n.broker.block.val + n.config.settleTimeout.val / 2 ∧
        n.LeavesTime terms

section Expiration

variable {n : Node} {tokenNetwork target : Address} {amount : Amount} {paymentId : PaymentId}
  {secret : Secret} {terms : TransferTerms}

theorem termsOf?_eq_none_iff :
    n.termsOf? tokenNetwork target amount paymentId secret = none ↔
      2 ^ (64 : Nat) ≤ n.broker.block.val + n.config.settleTimeout.val / 2 := by
  rw [termsOf?, ← Word.val_half, ← Word.add?_eq_none_iff]
  cases n.broker.block.add? n.config.settleTimeout.half with
  | none => simp
  | some expiration => simp

theorem expiration_of_termsOf?
    (h : n.termsOf? tokenNetwork target amount paymentId secret = some terms) :
    terms.expiration.val = n.broker.block.val + n.config.settleTimeout.val / 2 ∧
      Initiator.secretMatches terms = true := by
  rw [termsOf?] at h
  cases hsum : n.broker.block.add? n.config.settleTimeout.half with
  | none =>
      rw [hsum] at h
      cases h
  | some expiration =>
      rw [hsum] at h
      cases h
      exact ⟨(Word.add?_eq_some_iff.mp hsum).symm, decide_eq_true rfl⟩

/-- A payment that starts has enough time. -/
theorem leavesTime_of_termsOf? (hvalid : n.config.validate = .ok ())
    (hview : n.view.RevealsIn n.config.revealTimeout)
    (h : n.termsOf? tokenNetwork target amount paymentId secret = some terms) :
    n.LeavesTime terms := by
  obtain ⟨hexpiration, hsecret⟩ := expiration_of_termsOf? h
  obtain ⟨-, hroom⟩ := NodeConfig.validate_eq_ok hvalid
  have hexceeds : n.broker.block.val + n.config.revealTimeout.val < terms.expiration.val := by
    omega
  have hnews : n.broker.block < terms.expiration := Word.lt_iff.mpr (by omega)
  refine ⟨hexceeds, Broker.start_beginning hsecret hnews, ?_, ?_⟩
  · intro s hterms hblock tokenNetwork c hc hopen hamount
    have htime : n.broker.block.satAdd c.revealTimeout < terms.expiration := by
      rw [hview.of_mem hc]
      exact Word.satAdd_lt_iff.mpr hexceeds
    rw [Initiator.usable, hterms, hblock, Channel.isOpen_route hopen, Bool.true_and,
      Bool.and_eq_true, decide_eq_true_eq, decide_eq_true_eq]
    exact ⟨hamount, htime⟩
  · -- The expiration is ahead, and each of the other refusals says something else.
    intro c hexpired
    unfold Channel.sendTransfer at hexpired
    split at hexpired
    · cases hexpired
    · split at hexpired
      · cases hexpired
      · rw [if_neg (Word.not_le.mpr hnews)] at hexpired
        split at hexpired
        · cases hexpired
        · cases hexpired

end Expiration

/-- A node with an accepted configuration follows the law, whatever reached it. -/
theorem run_heightLaw {c : NodeConfig} (hvalid : c.validate = .ok ()) (inputs : List NodeInput) :
    ((fresh c).run inputs).HeightLaw where
  settles := ConnectionSettings.settleLaw
  notices := Monitor.sentence?_eq
  overflows _ _ _ _ _ := termsOf?_eq_none_iff
  expires _ _ _ _ _ _ h := by
    have hview := run_revealsIn c inputs
    rw [← run_config c inputs] at hvalid
    rw [← congrArg NodeConfig.revealTimeout (run_config c inputs)] at hview
    exact ⟨(expiration_of_termsOf? h).1, leavesTime_of_termsOf? hvalid hview h⟩

end Node

/-! ### Two sums that exceed all heights -/

namespace LongDispute

def us : Address := FixedBytes.replicate 20 1

/-- The participant who opens the channel. -/
def partner : Address := FixedBytes.replicate 20 2

def tokenNetwork : Address := FixedBytes.replicate 20 11

def channelId : ChannelId := FixedBytes.replicate 32 21

def secret : Secret := FixedBytes.replicate 32 7

def config : NodeConfig := NodeConfig.standard us

/-- The lock that the partner offers. -/
def lock : Lock := ⟨50, 100, hashSecret secret⟩

def offer : LockedTransfer :=
  ⟨1, partner, us, partner, us, lock, ⟨tokenNetwork, channelId, 1, 0, 50, locksroot [lock]⟩⟩

/-- The partner opens a channel and funds it. The settle timeout is up to the partner. -/
def opening (settleTimeout : Height) : List NodeInput :=
  [.push (.channelOpened tokenNetwork channelId partner us settleTimeout 1),
    .push (.channelNewDeposit tokenNetwork channelId partner 100 1), .block 1, .block 2]

/-- Then the partner offers a lock. -/
def inputs (settleTimeout : Height) : List NodeInput :=
  opening settleTimeout ++ [.message partner (.lockedTransfer offer)]

/-- What the node makes of the offer. -/
def reaction (settleTimeout : Height) : Broker.Reaction :=
  ((Node.fresh config).run (opening settleTimeout)).broker.reaction
    (.message partner (.lockedTransfer offer))

/-- A transfer begins that asks no channel for anything. -/
def isQuiet : Broker.Reaction → Bool
  | .start _ _ effects => effects.all Effect.isQuiet
  | _ => false

theorem view_inputs {settleTimeout : Height} (h : isQuiet (reaction settleTimeout) = true) :
    ((Node.fresh config).run (inputs settleTimeout)).view = (reaction settleTimeout).base.view := by
  have hafter : ((Node.fresh config).run (inputs settleTimeout)).broker
      = (reaction settleTimeout).outcome := by
    rw [inputs, Node.run_append, Node.run_message, reaction]
  rw [Node.view, hafter]
  cases hreaction : reaction settleTimeout with
  | start b t effects =>
      rw [hreaction] at h
      exact (congrArg Broker.view (Broker.settle_of_quiet b t h)).trans (Broker.keep_view b t)
  | _ =>
      rw [hreaction] at h
      cases h

/-- A height that is a hundred below the largest one. -/
def lateHeight : Height := .ofNat 64 (2 ^ (64 : Nat) - 101)

theorem validate_config : config.validate = .ok () := by decide +kernel

/-- With a settle timeout of twenty the node can leave after twenty-one blocks. -/
theorem run_heightLaw_twenty : config.validate = .ok () ∧
    ((Node.fresh config).run (inputs 20)).HeightLaw ∧
    (config.connectionSettings tokenNetwork).minSettleBlocks?
      ((Node.fresh config).run (inputs 20)).view 2 = some 21 := by
  refine ⟨validate_config, Node.run_heightLaw validate_config (inputs 20), ?_⟩
  rw [view_inputs (by decide +kernel)]
  decide +kernel

/-- Not every wait until a network can be left is a height, and not every payment has an
    expiration. The first fails with the largest settle timeout, the second a hundred blocks
    before the end, where the reveal timeout would still fit. -/
theorem exceeds_all_heights :
    (¬ ∀ c : NodeConfig, c.validate = .ok () → ∀ inputs tokenNetwork block,
      (c.connectionSettings tokenNetwork).minSettleBlocks? ((Node.fresh c).run inputs).view block
        ≠ none) ∧
    (¬ ∀ c : NodeConfig, c.validate = .ok () →
      ∀ inputs tokenNetwork target amount paymentId secret,
        ((Node.fresh c).run inputs).termsOf? tokenNetwork target amount paymentId secret
          ≠ none) := by
  constructor
  · intro h
    refine h config validate_config (inputs largestHeight) tokenNetwork 2 ?_
    rw [view_inputs (by decide +kernel)]
    decide +kernel
  · intro h
    refine h config validate_config [.block lateHeight] tokenNetwork partner 1 1 secret ?_
    have hlate : 2 ^ (64 : Nat) ≤ ((Node.fresh config).run [.block lateHeight]).broker.block.val
        + ((Node.fresh config).run [.block lateHeight]).config.settleTimeout.val / 2 := by
      decide +kernel
    exact Node.termsOf?_eq_none_iff.mpr hlate

end LongDispute

end PaymentNetwork

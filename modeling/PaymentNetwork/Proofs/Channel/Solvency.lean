import PaymentNetwork.Proofs.Channel.History

/-!
# Solvency

Neither end of a channel ever owes more than it owns.

What an end owes is what it withdrew, what it transferred and what it locked.
What it owns is its deposit and what the other end transferred to it. The channel
only ever compares saturating words, so the danger is that a sum on the way is
clipped and lets a lock through that is not covered. It cannot: a positive amount
that passes the check is covered over plain numbers, and an amount of zero changes
nothing.

A claimed lock moves from what is locked to what is transferred, and makes the
other end richer. A removed lock only takes away. The one thing that could make an
end poorer is a deposit that shrinks, so the totals on the ledger have to grow.

With nothing withdrawn and no sum clipped the two balances add up to the two
deposits, since what one end transferred counts for one and against the other.

## Main definitions

* `DepositsGrow`: The deposits of every participant grow along a history.
* `Channel.Covered`: Both ends own what they owe.
* `Channel.Solvent`: The same, with locks that are summed exactly and balances
  that add up.

## Theorems

* `Channel.after_covered`: An input keeps both ends covered.
* `Channel.run_covered`: So does a history.
* `Channel.run_solvent`: A channel is solvent after every history without
  withdrawals.
-/

namespace PaymentNetwork

namespace ChannelInput

/-- The deposit into a channel that the input tells of: whose, and its total. -/
def deposit? (channelId : ChannelId) : ChannelInput → Option (Address × Amount)
  | event (.channelNewDeposit _ channelId' participant total _) =>
    if channelId' = channelId then some (participant, total) else none
  | _ => none

/-- Does the input tell of a withdrawal? -/
def isWithdrawal : ChannelInput → Bool
  | event (.channelWithdrawn ..) => true
  | _ => false

theorem deposit?_of_endChange? {e : ChainEvent} {channelId : ChannelId} {participant : Address}
    {total : Amount} (hid : e.channelId? = some channelId)
    (he : e.endChange? = some (participant, .contractBalance total)) :
    (event e).deposit? channelId = some (participant, total) := by
  cases e with
  | channelNewDeposit tokenNetwork channelId' participant' total' block =>
      cases hid
      cases he
      exact if_pos rfl
  | _ => cases he

theorem isWithdrawal_of_endChange? {e : ChainEvent} {participant : Address} {total : Amount}
    (he : e.endChange? = some (participant, .withdrawn total)) :
    (event e).isWithdrawal = true := by
  cases e with
  | channelWithdrawn => rfl
  | _ => cases he

end ChannelInput

/-- The total that a participant deposited never decreases along a history. -/
def DepositsGrow (channelId : ChannelId) (inputs : List ChannelInput) : Prop :=
  (inputs.filterMap (ChannelInput.deposit? channelId)).Pairwise fun d d' => d.1 = d'.1 → d.2 ≤ d'.2

instance (channelId : ChannelId) (inputs : List ChannelInput) :
    Decidable (DepositsGrow channelId inputs) :=
  inferInstanceAs (Decidable (List.Pairwise _ _))

namespace ChannelEnd

/-- The end withdrew nothing, and owns what it transferred and locked. -/
structure Covered (e other : ChannelEnd) : Prop where
  withdrawn : e.withdrawn.val = 0
  owes : e.withdrawn.val + e.transferredAmount.val + e.pendingTotal
    ≤ e.contractBalance.val + other.transferredAmount.val

/-- A recommitment keeps its end covered. -/
theorem Recommits.covered {channelId : ChannelId} {tokenNetwork : Address} {e other : ChannelEnd}
    {change : LockChange} {p : BalanceProof}
    (h : Recommits channelId tokenNetwork e other change p) (hs : e.Sound)
    (hc : e.Covered other) : (e.recommit change p).Covered other where
  withdrawn := by
    rw [recommit_withdrawn]
    exact hc.withdrawn
  owes := by
    have hsum := h.pendingTotal
    have howes := hc.owes
    rw [recommit_withdrawn, recommit_contractBalance, recommit_transferredAmount, h.transferred]
    cases change with
    | added l =>
        simp only [LockChange.takenAmount, LockChange.addedAmount, LockChange.claimedAmount]
          at hsum ⊢
        -- A lock of no amount may pass without being covered.
        rcases Nat.eq_zero_or_pos l.amount.val with hzero | hpos
        · omega
        · have hroom := room_of_le_distributable hs h.allowed.2 hpos
          omega
    -- What was locked before is transferred now, so the sum is the same.
    | claimed l =>
        simp only [LockChange.takenAmount, LockChange.addedAmount, LockChange.claimedAmount]
          at hsum ⊢
        omega
    | removed l =>
        simp only [LockChange.takenAmount, LockChange.addedAmount, LockChange.claimedAmount]
          at hsum ⊢
        omega

/-- What one end transfers makes the other no poorer. -/
theorem Covered.mono {e other other' : ChannelEnd} (h : e.Covered other)
    (hle : other.transferredAmount ≤ other'.transferredAmount) : e.Covered other' where
  withdrawn := h.withdrawn
  owes := by
    have := h.owes
    rw [Word.le_iff] at hle
    omega

end ChannelEnd

namespace Channel

/-- Both ends own what they owe. -/
def Covered (c : Channel) : Prop := ∀ s, (c.endOf s).Covered (c.endOf s.other)

/-- An input keeps both ends covered. What it does to an end is weighed against
    the other end as it was, which can only have become richer. -/
theorem after_covered {c : Channel} (hs : c.Sound) (h : c.Covered) {i : ChannelInput}
    (hw : i.isWithdrawal = false)
    (hgrow : ∀ s total, i.deposit? c.id = some ((c.endOf s).address, total) →
      (c.endOf s).contractBalance ≤ total) :
    (c.after i).Covered := by
  intro s
  suffices hown : ((c.after i).endOf s).Covered (c.endOf s.other) from
    hown.mono (after_transferredAmount_le hs i s.other)
  have hs' := h s
  rcases after_endOf hs i s with heq | ⟨m, change, hre⟩ | ⟨e, change, rfl, hid, he, heq⟩
  · rwa [heq]
  · rw [hre.endOf_after]
    exact hre.recommits.covered (hs s) hs'
  · rw [heq]
    rcases ChainEvent.endChange?_cases he with ⟨total, rfl⟩ | ⟨total, rfl⟩ | ⟨k, rfl⟩
    · have hle := hgrow s total (ChannelInput.deposit?_of_endChange? hid he)
      -- The end owes what it owed, and owns no less.
      exact ⟨hs'.withdrawn, Nat.le_trans hs'.owes (Nat.add_le_add_right hle _)⟩
    · rw [ChannelInput.isWithdrawal_of_endChange? he] at hw
      cases hw
    -- A lock that the ledger paid out is owed no more.
    · refine ⟨hs'.withdrawn, Nat.le_trans (Nat.add_le_add_left ?_ _) hs'.owes⟩
      exact ChannelEnd.pendingTotal_removeLock_le _ k

/-- An input changes the deposit of an end only by telling of its total. -/
theorem after_contractBalance {c : Channel} (hs : c.Sound) (i : ChannelInput) (s : Side) :
    ((c.after i).endOf s).contractBalance = (c.endOf s).contractBalance ∨
    i.deposit? c.id = some ((c.endOf s).address, ((c.after i).endOf s).contractBalance) := by
  rcases after_endOf hs i s with heq | ⟨m, change, hre⟩ | ⟨e, change, rfl, hid, he, heq⟩
  · rw [heq]
    exact Or.inl rfl
  · rw [hre.endOf_after, ChannelEnd.recommit_contractBalance]
    exact Or.inl rfl
  · rw [heq]
    rcases ChainEvent.endChange?_cases he with ⟨total, rfl⟩ | ⟨total, rfl⟩ | ⟨k, rfl⟩
    · exact Or.inr (ChannelInput.deposit?_of_endChange? hid he)
    · exact Or.inl rfl
    · exact Or.inl rfl

/-- A history keeps both ends covered. Every total that is still to come has to
    be at least what the end has, which growing deposits hand on from one input to
    the next. -/
theorem run_covered {c : Channel} (hs : c.Sound) (h : c.Covered) {inputs : List ChannelInput}
    (hw : ∀ i ∈ inputs, i.isWithdrawal = false)
    (hfloor : ∀ d ∈ inputs.filterMap (ChannelInput.deposit? c.id), ∀ s,
      d.1 = (c.endOf s).address → (c.endOf s).contractBalance ≤ d.2)
    (hgrow : DepositsGrow c.id inputs) : (c.run inputs).Covered := by
  induction inputs generalizing c with
  | nil => exact h
  | cons i rest ih =>
      -- The first input may be a deposit, and then its total is above the floor.
      have hcovered : (c.after i).Covered := by
        refine after_covered hs h (hw i List.mem_cons_self) (fun s total hd => ?_)
        refine hfloor ((c.endOf s).address, total) ?_ s rfl
        rw [List.filterMap_cons, hd]
        exact List.mem_cons_self
      refine ih (after_sound hs i) hcovered (fun j hj => hw j (List.mem_cons_of_mem i hj)) ?_ ?_
      · rw [after_id hs]
        intro d hd s hown
        rw [after_address hs] at hown
        rcases after_contractBalance hs i s with heq | hnew
        · rw [heq]
          refine hfloor d ?_ s hown
          rw [List.filterMap_cons]
          split
          · exact hd
          · exact List.mem_cons_of_mem _ hd
        · -- The end has just got this total, and later ones of its owner are no less.
          unfold DepositsGrow at hgrow
          rw [List.filterMap_cons, hnew] at hgrow
          exact (List.pairwise_cons.mp hgrow).1 d hd hown.symm
      · rw [after_id hs]
        unfold DepositsGrow at hgrow ⊢
        rw [List.filterMap_cons] at hgrow
        split at hgrow
        · exact hgrow
        · exact (List.pairwise_cons.mp hgrow).2

/-- Both ends own what they owe, the locks are summed exactly, and the balances
    neither create nor lose a token unless a sum of theirs is clipped. -/
structure Solvent (c : Channel) : Prop where
  owes : ∀ s, (c.endOf s).withdrawn.val + (c.endOf s).transferredAmount.val
      + (c.endOf s).pendingTotal
    ≤ (c.endOf s).contractBalance.val + (c.endOf s.other).transferredAmount.val
  fits : ∀ s, (c.endOf s).pendingTotal < 2 ^ 128
  lockedAmount : ∀ s, (c.endOf s).lockedAmount.val = (c.endOf s).pendingTotal
  conserved :
    (∀ s, (c.endOf s).contractBalance.val + (c.endOf s.other).transferredAmount.val < 2 ^ 128) →
      (ChannelEnd.balance c.ours c.partner).val + (ChannelEnd.balance c.partner c.ours).val
        = c.ours.contractBalance.val + c.partner.contractBalance.val

/-- What one end transferred counts against it and for the other, and with
    nothing withdrawn no more than that counts. -/
theorem Covered.conserved {c : Channel} (h : c.Covered)
    (hfits : ∀ s, (c.endOf s).contractBalance.val + (c.endOf s.other).transferredAmount.val
      < 2 ^ 128) :
    (ChannelEnd.balance c.ours c.partner).val + (ChannelEnd.balance c.partner c.ours).val
      = c.ours.contractBalance.val + c.partner.contractBalance.val := by
  have hours := (h .ours).owes
  have hpartner := (h .partner).owes
  have hwithdrawn := (h .ours).withdrawn
  have hwithdrawn' := (h .partner).withdrawn
  have hfitsOurs := hfits .ours
  have hfitsPartner := hfits .partner
  simp only [endOf, Side.other] at hours hpartner hwithdrawn hwithdrawn' hfitsOurs hfitsPartner
  rw [ChannelEnd.val_balance, ChannelEnd.val_balance]
  omega

theorem Covered.solvent {c : Channel} (hs : c.Sound) (h : c.Covered) : c.Solvent where
  owes s := (h s).owes
  fits s := (hs s).fits
  lockedAmount s := (hs s).val_lockedAmount
  conserved := h.conserved

theorem covered_fresh (id : ChannelId) (tokenNetwork ourAddress partnerAddress : Address)
    (revealTimeout settleTimeout openedBlock : Height) :
    (fresh id tokenNetwork ourAddress partnerAddress revealTimeout settleTimeout
      openedBlock).Covered := by
  intro s
  cases s with
  | ours => exact ⟨rfl, Nat.zero_le _⟩
  | partner => exact ⟨rfl, Nat.zero_le _⟩

/-- A channel is solvent after every history in which deposits grow and nothing is
    withdrawn, whatever messages arrive and however blocks jump. -/
theorem run_solvent {id : ChannelId} {tokenNetwork ourAddress partnerAddress : Address}
    {revealTimeout settleTimeout openedBlock : Height} {inputs : List ChannelInput}
    (hw : ∀ i ∈ inputs, i.isWithdrawal = false) (hgrow : DepositsGrow id inputs) :
    ((fresh id tokenNetwork ourAddress partnerAddress revealTimeout settleTimeout
      openedBlock).run inputs).Solvent := by
  have hs := sound_fresh id tokenNetwork ourAddress partnerAddress revealTimeout settleTimeout
    openedBlock
  have hcovered := covered_fresh id tokenNetwork ourAddress partnerAddress revealTimeout
    settleTimeout openedBlock
  refine Covered.solvent (run_sound hs inputs) (run_covered hs hcovered hw ?_ hgrow)
  -- A fresh end has no deposit yet, so no total is below it.
  intro d _ s _
  cases s with
  | ours => exact Nat.zero_le _
  | partner => exact Nat.zero_le _

theorem run_solvent_paidHistory :
    let history := paidHistory (FixedBytes.replicate 32 9) (FixedBytes.replicate 20 8)
      (FixedBytes.replicate 20 1) (FixedBytes.replicate 20 2) (FixedBytes.replicate 32 7)
    (∀ i ∈ history, i.isWithdrawal = false) ∧ DepositsGrow (FixedBytes.replicate 32 9) history ∧
    ((fresh (FixedBytes.replicate 32 9) (FixedBytes.replicate 20 8) (FixedBytes.replicate 20 1)
      (FixedBytes.replicate 20 2) 5 20 0).run history).Solvent :=
  ⟨by decide, by decide +kernel, run_solvent (by decide) (by decide +kernel)⟩

end Channel

end PaymentNetwork

import PaymentNetwork.Connection.Share

/-!
# Shares Are Exact

Funds are split by dividing first and multiplying afterwards, with every step checked. That
says little by itself: a step that is refused leaves a partner without funds, and a quotient
that is rounded before it is multiplied is too small in general.

Neither happens. A part of at most a million millionths never raises a number above the
amount, and the remainder is below the divisor, which has 84 binary digits at most. What the
rounding of the quotient loses is what the remainder makes up for. So the share is the
quotient of the unbounded numbers, rounded down once, and everything else follows from that:
the shares together stay within the part that is not kept, and the share grows with the
amount and the part and shrinks with the number of shares.

## Main definitions

* `ShareLaw`: What is known of a share.

## Theorems

* `fractionShare_eq_none_iff`: The two reasons for which there is no share.
* `mul_shareOf_le`: All shares together are within the part that is not kept.
* `shareLaw`: The law for all amounts, all parts in millionths and all numbers of shares.
-/

namespace PaymentNetwork

-- Powers are those of the core library, whichever other instance is in scope.
attribute [local instance (high)] instPowNat

/-- A reserve between zero and one leaves a part of at most everything. -/
theorem exists_millionths {reserve : Float} (h : isFraction reserve = true) :
    ∃ keep ≤ million, millionths? reserve = some keep := by
  have hkeep : millionths? reserve = some _ := if_pos h
  exact ⟨_, millionths?_le hkeep, hkeep⟩

/-- All shares together are within the part that is not kept. -/
theorem mul_shareOf_le (amount keep : Nat) {parts : Nat} (hparts : 0 < parts) :
    parts * shareOf amount keep parts ≤ amount * keep / million := by
  rw [shareOf_eq amount keep parts hparts, ← Nat.div_div_eq_div_mul]
  exact Nat.mul_div_le _ _

theorem mul_div_million_le (amount : Nat) {keep : Nat} (hkeep : keep ≤ million) :
    amount * keep / million ≤ amount :=
  calc amount * keep / million
      ≤ amount * million / million := Nat.div_le_div_right (Nat.mul_le_mul_left amount hkeep)
    _ = amount := Nat.mul_div_cancel amount (by decide)

theorem shareOf_mono {amount amount' keep keep' parts parts' : Nat} (hparts : 0 < parts')
    (hamount : amount ≤ amount') (hkeep : keep ≤ keep') (hfewer : parts' ≤ parts) :
    shareOf amount keep parts ≤ shareOf amount' keep' parts' := by
  rw [shareOf_eq amount keep parts (Nat.lt_of_lt_of_le hparts hfewer),
    shareOf_eq amount' keep' parts' hparts]
  exact Nat.div_le_div (Nat.mul_le_mul hamount hkeep) (Nat.mul_le_mul_left million hfewer)
    (Nat.ne_of_gt (Nat.mul_pos (by decide) hparts))

/-- A share is the exact one, since there is one. -/
theorem val_of_shareOf?_eq_some {amount : Amount} {keep : Nat} {parts : Count} {share : Amount}
    (hkeep : keep ≤ million) (hparts : 0 < parts.val)
    (h : shareOf? amount keep parts = some share) :
    share.val = shareOf amount.val keep parts.val := by
  obtain ⟨share', hshare', hval⟩ := shareOf?_eq amount hkeep hparts
  rw [hshare'] at h
  cases h
  exact hval

theorem fractionShare_of_millionths {reserve : Float} {keep : Nat} {parts : Count}
    (amount : Amount) (hreserve : millionths? reserve = some keep) (hparts : 0 < parts.val) :
    fractionShare amount reserve parts = shareOf? amount keep parts := by
  rw [fractionShare, hreserve]
  exact if_neg (Nat.ne_of_gt hparts)

/-- There is a share unless the reserve is no fraction or there is nobody to share with. No
    amount is too large. -/
theorem fractionShare_eq_none_iff {amount : Amount} {reserve : Float} {parts : Count} :
    fractionShare amount reserve parts = none ↔ isFraction reserve = false ∨ parts.val = 0 := by
  constructor
  · intro hnone
    by_cases hparts : parts.val = 0
    · exact Or.inr hparts
    · refine Or.inl (Bool.eq_false_iff.mpr (fun hfraction => ?_))
      obtain ⟨keep, hkeep, hreserve⟩ := exists_millionths hfraction
      obtain ⟨share, hshare, -⟩ := shareOf?_eq amount hkeep (Nat.pos_of_ne_zero hparts)
      rw [fractionShare_of_millionths amount hreserve (Nat.pos_of_ne_zero hparts), hshare]
        at hnone
      cases hnone
  · rintro (hfraction | hparts)
    · have hreserve : millionths? reserve = none := if_neg (Bool.eq_false_iff.mp hfraction)
      rw [fractionShare, hreserve]
    · rw [fractionShare]
      cases millionths? reserve with
      | none => rfl
      | some keep => exact if_pos hparts

/-- What is known of one of `parts` equal shares of `keep` millionths of an amount. -/
structure ShareLaw (amount : Amount) (keep : Nat) (parts : Count) : Prop where
  /-- No step is refused, and the share is the exact quotient, rounded down. Every reserve
      that leaves this part has this share. -/
  quotient : ∃ share : Amount, share.val = amount.val * keep / (million * parts.val) ∧
    shareOf? amount keep parts = some share ∧
    ∀ reserve, millionths? reserve = some keep → fractionShare amount reserve parts = some share
  /-- Every reserve between zero and one leaves such a part, and has the share of that part. -/
  reserves : ∀ reserve, isFraction reserve = true → ∃ keep' ≤ million, ∃ share : Amount,
    millionths? reserve = some keep' ∧ fractionShare amount reserve parts = some share ∧
      share.val = amount.val * keep' / (million * parts.val)
  /-- All shares together are within the part that is not kept, which is within the amount. -/
  within : ∀ share, shareOf? amount keep parts = some share →
    parts.val * share.val ≤ amount.val * keep / million ∧
      amount.val * keep / million ≤ amount.val
  /-- A larger amount has no smaller share. -/
  amounts : ∀ amount' share share', amount ≤ amount' → shareOf? amount keep parts = some share →
    shareOf? amount' keep parts = some share' → share ≤ share'
  /-- A larger part has no smaller share. -/
  keeps : ∀ keep' share share', keep ≤ keep' → keep' ≤ million →
    shareOf? amount keep parts = some share → shareOf? amount keep' parts = some share' →
    share ≤ share'
  /-- More shares are not larger. -/
  counts : ∀ parts' share share', parts ≤ parts' → shareOf? amount keep parts = some share →
    shareOf? amount keep parts' = some share' → share' ≤ share

/-- The law holds as long as there is somebody to share with. -/
theorem shareLaw {keep : Nat} {parts : Count} (amount : Amount) (hkeep : keep ≤ million)
    (hparts : 0 < parts.val) : ShareLaw amount keep parts where
  quotient := by
    obtain ⟨share, hshare, hval⟩ := shareOf?_eq amount hkeep hparts
    rw [shareOf_eq amount.val keep parts.val hparts] at hval
    refine ⟨share, hval, hshare, fun reserve hreserve => ?_⟩
    rw [fractionShare_of_millionths amount hreserve hparts, hshare]
  reserves reserve hfraction := by
    obtain ⟨keep', hkeep', hreserve⟩ := exists_millionths hfraction
    obtain ⟨share, hshare, hval⟩ := shareOf?_eq amount hkeep' hparts
    rw [shareOf_eq amount.val keep' parts.val hparts] at hval
    rw [fractionShare_of_millionths amount hreserve hparts]
    exact ⟨keep', hkeep', share, hreserve, hshare, hval⟩
  within share hshare := by
    rw [val_of_shareOf?_eq_some hkeep hparts hshare]
    exact ⟨mul_shareOf_le amount.val keep hparts, mul_div_million_le amount.val hkeep⟩
  amounts amount' share share' hle hshare hshare' := by
    rw [Word.le_iff, val_of_shareOf?_eq_some hkeep hparts hshare,
      val_of_shareOf?_eq_some hkeep hparts hshare']
    exact shareOf_mono hparts hle (Nat.le_refl keep) (Nat.le_refl parts.val)
  keeps keep' share share' hle hkeep' hshare hshare' := by
    rw [Word.le_iff, val_of_shareOf?_eq_some hkeep hparts hshare,
      val_of_shareOf?_eq_some hkeep' hparts hshare']
    exact shareOf_mono hparts (Nat.le_refl amount.val) hle (Nat.le_refl parts.val)
  counts parts' share share' hle hshare hshare' := by
    rw [Word.le_iff, val_of_shareOf?_eq_some hkeep hparts hshare,
      val_of_shareOf?_eq_some hkeep (Nat.lt_of_lt_of_le hparts hle) hshare']
    exact shareOf_mono hparts (Nat.le_refl amount.val) (Nat.le_refl keep) hle

/-- The largest amount. -/
def largestAmount : Amount := ⟨2 ^ (128 : Nat) - 1, by decide⟩

/-- The largest number of shares. -/
def mostParts : Count := ⟨2 ^ (64 : Nat) - 1, by decide⟩

/-- The law at the largest amount, the largest number of shares and a reserve of one
    millionth. The product of the amount and the part has 20 binary digits more than fit. -/
theorem shareLaw_largest :
    999999 ≤ million ∧ 0 < mostParts.val ∧ ShareLaw largestAmount 999999 mostParts ∧
      shareOf? largestAmount 999999 mostParts = some ⟨18446725626965477907, by decide⟩ ∧
      isFraction 0.000001 = true ∧ millionths? 0.000001 = some 999999 ∧
      fractionShare largestAmount 0.000001 mostParts
        = some ⟨18446725626965477907, by decide⟩ :=
  ⟨by decide, by decide, shareLaw largestAmount (by decide) (by decide), by decide,
    by decide +kernel, by decide +kernel, by decide +kernel⟩

end PaymentNetwork

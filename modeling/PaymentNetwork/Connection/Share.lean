import PaymentNetwork.Word

/-!
# Equal Shares

Splitting funds over channels, with a fraction kept in reserve.

The fraction is a binary fraction between zero and one, and it only counts to a
millionth. From there on the arithmetic is exact: the share is the part that is
not kept, divided by the number of shares and rounded down. The product of the
amount and the part is never formed, since it may be too large for an amount;
the amount is divided first, and the remainder afterwards. Every step is refused
if its result is too large for an amount, which none is.

## Main definitions

* `millionths?`: The part that is not kept, in millionths.
* `shareOf`: The share for a part in millionths.
* `shareOf?`: The same, one checked step after another.
* `fractionShare`: The share for a reserve.

## Theorems

* `shareOf_eq`: The share is the exact quotient, rounded down.
* `shareOf?_eq`: No step of it is refused.
* `millionths?_le`: What is not kept is at most everything.
-/

namespace PaymentNetwork

/-- One, in millionths. -/
def million : Nat := 1000000

/-- Is the number between zero and one? -/
def isFraction (x : Float) : Bool := 0.0 ≤ x && x ≤ 1.0

/-- The number of millionths nearest to a number of them, the larger one of two
    equally near. -/
def roundMillionths (x : Float) : Nat :=
  let whole := x.toUInt64
  -- The difference is exact, so this is the true comparison with one half.
  if 0.5 ≤ x - whole.toFloat then whole.toNat + 1 else whole.toNat

/-- The part that is left when a reserve is kept, in millionths. Inside of zero and
    one the difference and its product stay inside of one and of all millionths, so
    the minimum is the rounded number itself and changes no value. It is there to
    give the bound without a calculation in floating point. -/
def millionths? (reserve : Float) : Option Nat :=
  if isFraction reserve then some (min million (roundMillionths ((1.0 - reserve) * 1000000.0)))
  else none

/-- One of `parts` equal shares of `keep` millionths of an amount. -/
def shareOf (amount keep parts : Nat) : Nat :=
  amount / (million * parts) * keep + amount % (million * parts) * keep / (million * parts)

/-- The share of an amount, unless some number on the way to it is too large. -/
def shareOf? (amount : Amount) (keep : Nat) (parts : Count) : Option Amount := do
  let divisor : Amount ← Word.ofNat? (million * parts.val)
  let whole : Amount ← Word.ofNat? (amount.val / divisor.val * keep)
  let rest : Amount ← Word.ofNat? (amount.val % divisor.val * keep)
  Word.ofNat? (whole.val + rest.val / divisor.val)

/-- One of `parts` equal shares of an amount, after a reserve was kept. There is
    none if the reserve is no fraction or there are no parts. -/
def fractionShare (amount : Amount) (reserve : Float) (parts : Count) : Option Amount :=
  match millionths? reserve with
  | none => none
  | some keep => if parts.val = 0 then none else shareOf? amount keep parts

theorem shareOf_eq (amount keep parts : Nat) (h : 0 < parts) :
    shareOf amount keep parts = amount * keep / (million * parts) := by
  have hpos : 0 < million * parts := Nat.mul_pos (by decide) h
  have hsplit : amount * keep = million * parts * (amount / (million * parts) * keep)
      + amount % (million * parts) * keep := by
    conv => lhs; rw [← Nat.div_add_mod amount (million * parts)]
    rw [Nat.add_mul, Nat.mul_assoc]
  rw [shareOf, hsplit, Nat.mul_add_div hpos]

theorem shareOf_le (amount : Nat) {keep parts : Nat} (hkeep : keep ≤ million) (hparts : 0 < parts) :
    shareOf amount keep parts ≤ amount := by
  rw [shareOf_eq amount keep parts hparts]
  have hdivisor : keep ≤ million * parts := Nat.le_trans hkeep (Nat.le_mul_of_pos_right _ hparts)
  exact Nat.div_le_of_le_mul
    (Nat.le_trans (Nat.mul_le_mul_left amount hdivisor) (Nat.le_of_eq (Nat.mul_comm _ _)))

/-- The divisor has 84 binary digits at most, so the remainder times a part still fits, and
    the other numbers are not above the amount. -/
theorem shareOf?_eq (amount : Amount) {keep : Nat} {parts : Count} (hkeep : keep ≤ million)
    (hparts : 0 < parts.val) :
    ∃ share, shareOf? amount keep parts = some share ∧
      share.val = shareOf amount.val keep parts.val := by
  have hpos : 0 < million * parts.val := Nat.mul_pos (by decide) hparts
  have hdivisor : million * parts.val < 2 ^ 84 :=
    Nat.lt_of_lt_of_le (Nat.mul_lt_mul_of_pos_left parts.isLt (by decide)) (by decide)
  have hshare : shareOf amount.val keep parts.val < 2 ^ 128 :=
    Nat.lt_of_le_of_lt (shareOf_le amount.val hkeep hparts) amount.isLt
  have hwhole : amount.val / (million * parts.val) * keep < 2 ^ 128 :=
    Nat.lt_of_le_of_lt (Nat.le_add_right _ _) hshare
  have hrest : amount.val % (million * parts.val) * keep < 2 ^ 128 :=
    calc amount.val % (million * parts.val) * keep
        ≤ 2 ^ 84 * million := Nat.mul_le_mul
          (Nat.le_of_lt (Nat.lt_trans (Nat.mod_lt _ hpos) hdivisor)) hkeep
      _ < 2 ^ 128 := by decide
  refine ⟨⟨_, hshare⟩, ?_, rfl⟩
  unfold shareOf?
  rw [Word.ofNat?_val (⟨_, Nat.lt_trans hdivisor (by decide)⟩ : Amount), Option.bind_eq_bind,
    Option.bind_some, Word.ofNat?_val (⟨_, hwhole⟩ : Amount), Option.bind_some,
    Word.ofNat?_val (⟨_, hrest⟩ : Amount), Option.bind_some]
  exact Word.ofNat?_val (⟨_, hshare⟩ : Amount)

theorem millionths?_le {reserve : Float} {keep : Nat} (h : millionths? reserve = some keep) :
    keep ≤ million := by
  unfold millionths? at h
  split at h
  · cases h
    exact Nat.min_le_left _ _
  · cases h

end PaymentNetwork

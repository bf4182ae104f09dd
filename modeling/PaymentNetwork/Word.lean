/-!
# Bounded Words

Natural numbers below a power of two, with the three ways a sum can meet the
bound.

Token amounts have 128 bits and block heights, nonces and counts have 64. The
channel rules never let such a number wrap by accident: a sum either saturates
at the largest word, or is refused, or (for nonces alone) starts again at zero.
Each of the three is an operation of its own here, and each is pinned down by
one lemma about `val`, so that a rule about channels becomes a statement of
plain arithmetic.

## Main definitions

* `Word`: A number below `2 ^ bits`.
* `Word.satAdd`, `Word.satSub`: Sum and difference that stop at the bounds.
* `Word.add?`: The sum, if it fits.
* `Word.succWrap`: The next word, zero after the largest one.

## Theorems

* `Word.val_satAdd`, `Word.val_satSub`, `Word.val_succWrap`: Each operation in
  terms of the numbers.
* `Word.add?_eq_some_iff`: A sum fits exactly if it is below the bound.
-/

namespace PaymentNetwork

-- Powers are those of the core library, whichever other instance is in scope.
attribute [local instance (high)] instPowNat

/-- A natural number of at most `bits` binary digits. -/
structure Word (bits : Nat) where
  val : Nat
  isLt : val < 2 ^ bits
deriving DecidableEq

namespace Word

variable {bits : Nat}

@[ext] theorem ext {a b : Word bits} (h : a.val = b.val) : a = b := by
  cases a
  cases b
  cases h
  rfl

/-- Words are compared by value. -/
instance : Ord (Word bits) := ⟨compareOn Word.val⟩

instance : Std.TransOrd (Word bits) :=
  inferInstanceAs (Std.TransCmp (compareOn fun w : Word bits => w.val))

instance : Std.LawfulEqOrd (Word bits) where
  eq_of_compare h := Word.ext (Std.LawfulEqOrd.eq_of_compare h)

instance : LE (Word bits) := ⟨fun a b => a.val ≤ b.val⟩

instance : LT (Word bits) := ⟨fun a b => a.val < b.val⟩

instance (a b : Word bits) : Decidable (a ≤ b) := inferInstanceAs (Decidable (a.val ≤ b.val))

instance (a b : Word bits) : Decidable (a < b) := inferInstanceAs (Decidable (a.val < b.val))

theorem le_iff {a b : Word bits} : a ≤ b ↔ a.val ≤ b.val := Iff.rfl

theorem lt_iff {a b : Word bits} : a < b ↔ a.val < b.val := Iff.rfl

theorem not_le {a b : Word bits} : ¬ a ≤ b ↔ b < a := Nat.not_le

theorem not_lt {a b : Word bits} : ¬ a < b ↔ b ≤ a := Nat.not_lt

/-- The word congruent to `n`. Numerals are read this way. -/
def ofNat (bits n : Nat) : Word bits :=
  ⟨n % 2 ^ bits, Nat.mod_lt _ (Nat.two_pow_pos bits)⟩

instance (n : Nat) : OfNat (Word bits) n := ⟨ofNat bits n⟩

instance : Inhabited (Word bits) := ⟨0⟩

/-- The word of value `n`, if there is one. -/
def ofNat? (n : Nat) : Option (Word bits) :=
  if h : n < 2 ^ bits then some ⟨n, h⟩ else none

/-- The sum, or the largest word if the sum exceeds it. -/
def satAdd (a b : Word bits) : Word bits :=
  ⟨min (a.val + b.val) (2 ^ bits - 1), by
    have := Nat.two_pow_pos bits
    omega⟩

/-- The difference, or zero if the second word is larger. -/
def satSub (a b : Word bits) : Word bits :=
  ⟨a.val - b.val, Nat.lt_of_le_of_lt (Nat.sub_le _ _) a.isLt⟩

/-- The sum, if it is a word. -/
def add? (a b : Word bits) : Option (Word bits) := ofNat? (a.val + b.val)

/-- The next word. The largest one is followed by zero. -/
def succWrap (a : Word bits) : Word bits := ofNat bits (a.val + 1)

/-- Half of the word, rounded down. -/
def half (a : Word bits) : Word bits :=
  ⟨a.val / 2, Nat.lt_of_le_of_lt (Nat.div_le_self _ _) a.isLt⟩

/-- The smaller of two words. -/
def min (a b : Word bits) : Word bits := if a ≤ b then a else b

/-- The larger of two words. -/
def max (a b : Word bits) : Word bits := if a ≤ b then b else a

/-- The decimal digits of the word. -/
def toText (a : Word bits) : String := toString a.val

@[simp] theorem val_zero : (0 : Word bits).val = 0 := Nat.zero_mod _

@[simp] theorem val_satAdd (a b : Word bits) :
    (a.satAdd b).val = Min.min (a.val + b.val) (2 ^ bits - 1) := rfl

@[simp] theorem val_satSub (a b : Word bits) : (a.satSub b).val = a.val - b.val := rfl

@[simp] theorem val_succWrap (a : Word bits) :
    a.succWrap.val = (a.val + 1) % 2 ^ bits := rfl

@[simp] theorem val_half (a : Word bits) : a.half.val = a.val / 2 := rfl

theorem ofNat?_eq_some_iff {n : Nat} {w : Word bits} : ofNat? n = some w ↔ n = w.val := by
  unfold ofNat?
  split
  · rw [Option.some.injEq]
    exact ⟨fun h => by rw [← h], fun h => Word.ext h⟩
  · rename_i hn
    constructor
    · intro h
      cases h
    · intro h
      exact absurd (h ▸ w.isLt) hn

@[simp] theorem ofNat?_val (w : Word bits) : ofNat? w.val = some w :=
  ofNat?_eq_some_iff.mpr rfl

theorem add?_eq_some_iff {a b c : Word bits} : a.add? b = some c ↔ a.val + b.val = c.val :=
  ofNat?_eq_some_iff

theorem add?_eq_none_iff {a b : Word bits} : a.add? b = none ↔ 2 ^ bits ≤ a.val + b.val := by
  unfold add? ofNat?
  split <;> simp <;> omega

end Word

/-- An amount of tokens. -/
abbrev Amount := Word 128

/-- A block height, or a number of blocks. It is the only clock that locks and
    disputes know. -/
abbrev Height := Word 64

/-- The sequence number of a balance proof. -/
abbrev Nonce := Word 64

/-- The number under which a payer knows a payment. -/
abbrev PaymentId := Word 64

/-- A number of things or of clock ticks. -/
abbrev Count := Word 64

end PaymentNetwork

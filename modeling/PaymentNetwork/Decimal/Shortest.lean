/-!
# The Shortest Decimal of a Binary Number

The fewest decimal digits that read back as a given binary fraction of 64 bits.

A decimal reads back as a number if it is nearer to that number than to its
neighbours. These decimals are an interval around the number, and the ends belong
to it if the mantissa is even. Among the grids of decimals with one, two, three
and more digits the first one that meets the interval is taken, and of two
decimals there the nearer one. A decimal of the grid is in the interval if one of
the two next to the number is, so only those are tried. All arithmetic is on
natural numbers.

## Main definitions

* `Binary`: A positive binary number.
* `Decimal`: A decimal number.
* `Binary.shortest`: The shortest decimal of a binary number.
* `Decimal.positional`: A decimal without an exponent.
* `floatText`: The text of a number of 64 bits.
-/

namespace PaymentNetwork

-- Powers are those of the core library, whichever other instance is in scope.
attribute [local instance (high)] instPowNat

/-- The positive number `mantissa * 2 ^ exponent`. -/
structure Binary where
  mantissa : Nat
  exponent : Int
  /-- Is the next smaller number only half as far away as the next larger one? -/
  hasNearBelow : Bool

/-- The number `digits * 10 ^ exponent`. -/
structure Decimal where
  digits : Nat
  exponent : Int
deriving DecidableEq

/-- A number between two others, all in units of `1 / unit`. -/
structure Bracket where
  low : Nat
  middle : Nat
  high : Nat
  unit : Nat
  hasEnds : Bool

namespace Binary

/-- A factor for numerators. -/
def up (base : Nat) (e : Int) : Nat := base ^ e.toNat

/-- A factor for denominators. -/
def down (base : Nat) (e : Int) : Nat := base ^ (-e).toNat

/-- The numbers that read back as `b`, in units of `10 ^ e`. -/
def bracket (b : Binary) (e : Int) : Bracket :=
  -- Quarters of the mantissa make the half distances whole.
  let factor := up 2 (b.exponent - 2) * down 10 e
  { low := (4 * b.mantissa - if b.hasNearBelow then 1 else 2) * factor
    middle := 4 * b.mantissa * factor
    high := (4 * b.mantissa + 2) * factor
    unit := down 2 (b.exponent - 2) * up 10 e
    hasEnds := b.mantissa % 2 = 0 }

end Binary

namespace Bracket

/-- Is a whole number in the bracket? -/
def contains (r : Bracket) (d : Nat) : Bool :=
  if r.hasEnds then decide (r.low ≤ d * r.unit) && decide (d * r.unit ≤ r.high)
  else decide (r.low < d * r.unit) && decide (d * r.unit < r.high)

/-- The whole number in the bracket that is nearest to its middle, the even one of
    two equally near. -/
def nearest? (r : Bracket) : Option Nat :=
  let d := r.middle / r.unit
  match r.contains d, r.contains (d + 1) with
  | false, false => none
  | true, false => some d
  | false, true => some (d + 1)
  | true, true =>
    let below := r.middle - d * r.unit
    let above := (d + 1) * r.unit - r.middle
    if below < above ∨ (below = above ∧ d % 2 = 0) then some d else some (d + 1)

end Bracket

namespace Binary

/-- The number of digits in front of the point. It is zero or negative for a
    number below one tenth. -/
def places (b : Binary) : Int :=
  let whole := b.mantissa * up 2 b.exponent / down 2 b.exponent
  -- Below one: how many factors of ten bring it to one or above?
  if whole = 0 then
    let unit := down 2 b.exponent
    match (List.range 400).find? fun j => decide (unit ≤ b.mantissa * 10 ^ j) with
    | some j => 1 - (j : Int)
    | none => 0
  else (Nat.toDigits 10 whole).length

/-- The shortest decimal of a number. Seventeen digits always suffice. -/
def shortest (b : Binary) : Decimal :=
  let places := b.places
  let grids := (List.range 17).map fun n => places - (n + 1 : Nat)
  ((grids.filterMap fun e => (b.bracket e).nearest?.map fun d => ⟨d, e⟩).head?).getD ⟨0, 0⟩

end Binary

namespace Decimal

/-- A decimal without an exponent, and without a point if it is whole. -/
def positional (d : Decimal) : List Char :=
  let digits := Nat.toDigits 10 d.digits
  if 0 ≤ d.exponent then digits ++ List.replicate d.exponent.toNat '0'
  else
    let places := (-d.exponent).toNat
    let padded := List.replicate (places + 1 - digits.length) '0' ++ digits
    padded.take (padded.length - places) ++ '.' :: padded.drop (padded.length - places)

end Decimal

/-- The binary number of the given bits, which are neither zero nor all ones in
    the exponent. -/
def binaryOfBits (bits : Nat) : Binary :=
  let field : Nat := bits / 2 ^ (52 : Nat) % 2 ^ (11 : Nat)
  let fraction : Nat := bits % 2 ^ (52 : Nat)
  -- Numbers without an implicit leading bit are all equally far apart.
  if field = 0 then ⟨fraction, -1074, false⟩
  else ⟨fraction + 2 ^ (52 : Nat), (field : Int) - 1075, fraction = 0 && decide (1 < field)⟩

/-- The text of a number: the shortest decimal without an exponent. -/
def floatText (x : Float) : String :=
  let bits := x.toBits.toNat
  let magnitude := bits % 2 ^ (63 : Nat)
  if x.isNaN then "NaN"
  else
    let digits := if x.isInf then ['i', 'n', 'f']
      else if magnitude = 0 then ['0']
      else (binaryOfBits magnitude).shortest.positional
    String.ofList (if 2 ^ (63 : Nat) ≤ bits then '-' :: digits else digits)

end PaymentNetwork

import PaymentNetwork.Decimal.Shortest

/-!
# Numbers of TOML

Reads the words of a document that are numbers.

Digits may be grouped by single underscores, which stand between digits. A number
does not begin with a superfluous zero. What follows the digits of a word is left
over, so that an exponent can be looked for there.

## Main definitions

* `readDigits?`: The digits at the beginning of a word, and the rest.
* `readInteger?`: A word that is an integer of 64 bits with a sign.
* `FloatParts`: The digits of a number with a point or an exponent.
* `FloatParts.value?`: The number itself.
-/

namespace PaymentNetwork.Toml

-- Powers are those of the core library, whichever other instance is in scope.
attribute [local instance (high)] instPowNat

/-- Go through digits. `isFirst` says that none came yet, `isZero` that the first
    one was a zero, and `isOpen` that an underscore came last. -/
def digitRun? (allowZeros : Bool) (isFirst isZero isOpen : Bool) :
    List Char → Option (List Char × List Char)
  | [] => if isFirst || isOpen then none else some ([], [])
  | c :: rest =>
    let more := fun (isZero isOpen : Bool) =>
      (digitRun? allowZeros false isZero isOpen rest).map fun (ds, rest) => (c :: ds, rest)
    if c = '0' && isFirst then more true isOpen
    else if c.isDigit then
      if !isFirst && isZero && !allowZeros then none else more isZero false
    else if c = '_' && isFirst then none
    else if c = '_' && !isOpen then more isZero true
    else if isFirst || isOpen then none
    else some ([], c :: rest)

/-- A run of digits, with its sign. -/
structure Digits where
  isNegative : Bool
  digits : List Char
deriving DecidableEq

namespace Digits

/-- The number that the digits are. -/
def magnitude (d : Digits) : Nat := d.digits.foldl (fun acc c => 10 * acc + (c.toNat - 48)) 0

/-- The number that the digits are, with its sign. -/
def value (d : Digits) : Int := if d.isNegative then -(d.magnitude : Int) else d.magnitude

end Digits

/-- The digits at the beginning of a word, and the rest. -/
def readDigits? (allowSign allowZeros : Bool) (word : List Char) :
    Option (Digits × List Char) :=
  let read := fun (isNegative : Bool) (word : List Char) =>
    (digitRun? allowZeros true false false word).map fun (ds, rest) =>
      ((⟨isNegative, ds.filter (· ≠ '_')⟩ : Digits), rest)
  match word with
  | '-' :: rest => if allowSign then read true rest else read false word
  | _ => read false word

/-- A word that is an integer of 64 bits with a sign. -/
def readInteger? (word : List Char) : Option Int :=
  match readDigits? true false word with
  | some (d, []) =>
    if -(2 ^ (63 : Nat)) ≤ d.value ∧ d.value < 2 ^ (63 : Nat) then some d.value else none
  | _ => none

/-- The digits of a number with a point or an exponent. -/
structure FloatParts where
  whole : Digits
  fraction : List Char
  exponent : Int
deriving DecidableEq

namespace FloatParts

/-- The number itself, rounded to 64 bits, unless it is too large. Exponents far
    beyond all numbers are settled without computing their powers. -/
def value? (p : FloatParts) : Option Float :=
  let digits := p.whole.digits ++ p.fraction
  let mantissa := Digits.magnitude ⟨false, digits⟩
  let exponent := p.exponent - p.fraction.length
  let size := exponent + digits.length
  let magnitude :=
    if mantissa = 0 ∨ size < -400 then some 0.0
    else if 400 < exponent + (Nat.toDigits 10 mantissa).length then none
    else some (Float.ofScientific mantissa (decide (exponent < 0)) exponent.natAbs)
  match magnitude with
  | none => none
  | some x => if x.isInf then none else some (if p.whole.isNegative then -x else x)

end FloatParts

end PaymentNetwork.Toml

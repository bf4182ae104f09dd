/-!
# Fixed Length Byte Strings

Addresses, secrets, hashes and channel identifiers, and their hexadecimal
text.

Each of them is a byte string of a length fixed by its kind. The text of one is
`0x` and two lower case digits for every byte. Reading is more generous than
writing: the `0x` may be left out or written `0X`, and the digits may be of
either case. The length is checked before any digit is looked at, and it is
counted in bytes of the text, so a digit that is no digit is only reported for
a text of the right size.

## Main definitions

* `FixedBytes`: A byte string of a given length.
* `encodeHex`: The lower case digits of some bytes.
* `FixedBytes.parse`: Read a byte string of a given length.
* `FixedBytes.toText`: The canonical text.

## Theorems

* `digitValue?_digit`: A digit that is written reads back.
* `decodePairs_encodeHex`: Bytes written as digits read back.
-/

namespace PaymentNetwork

/-- A string of exactly `n` bytes. -/
structure FixedBytes (n : Nat) where
  bytes : List UInt8
  length_bytes : bytes.length = n
deriving DecidableEq

/-- Why a text or a list of bytes is no byte string of the wanted length. -/
inductive BytesError where
  | invalidLength
  | invalidHexDigit
deriving DecidableEq

namespace BytesError

/-- The sentence that reports the error. -/
def message : BytesError → String
  | invalidLength => "invalid length"
  | invalidHexDigit => "invalid hex digit"

end BytesError

/-- The digit of a number below sixteen. -/
def digit (n : Nat) : Char :=
  if n < 10 then Char.ofNat (48 + n) else Char.ofNat (87 + n)

/-- The number that a digit of either case stands for. -/
def digitValue? (c : Char) : Option Nat :=
  let n := c.toNat
  if 48 ≤ n ∧ n ≤ 57 then some (n - 48)
  else if 97 ≤ n ∧ n ≤ 102 then some (n - 87)
  else if 65 ≤ n ∧ n ≤ 70 then some (n - 55)
  else none

/-- The two digits of every byte, high digit first. -/
def encodeHex (bytes : List UInt8) : List Char :=
  bytes.flatMap fun b => [digit (b.toNat / 16), digit (b.toNat % 16)]

/-- The bytes of a list of digits, two digits a byte. A lone last digit has no
    byte. -/
def decodePairs : List Char → Option (List UInt8)
  | [] => some []
  | [_] => none
  | c :: d :: rest => do
    let high ← digitValue? c
    let low ← digitValue? d
    let bytes ← decodePairs rest
    return UInt8.ofNat (16 * high + low) :: bytes

/-- The text without one leading `0x` or `0X`. -/
def dropHexMark : List Char → List Char
  | '0' :: 'x' :: rest => rest
  | '0' :: 'X' :: rest => rest
  | cs => cs

/-- The number of bytes that a text takes. -/
def textSize (cs : List Char) : Nat := cs.foldr (fun c size => c.utf8Size + size) 0

theorem digitValue?_digit : ∀ n, n < 16 → digitValue? (digit n) = some n := by
  decide

theorem decodePairs_encodeHex (bytes : List UInt8) :
    decodePairs (encodeHex bytes) = some bytes := by
  induction bytes with
  | nil => rfl
  | cons b rest ih =>
      have hb : b.toNat < 256 := b.toNat_lt
      have ih' : decodePairs (rest.flatMap fun b =>
          [digit (b.toNat / 16), digit (b.toNat % 16)]) = some rest := ih
      simp only [encodeHex, List.flatMap_cons, List.cons_append, List.nil_append, decodePairs,
        digitValue?_digit _ (show b.toNat / 16 < 16 by omega),
        digitValue?_digit _ (show b.toNat % 16 < 16 by omega), ih']
      simp only [Option.bind_eq_bind, Option.bind_some, Option.pure_def]
      rw [show 16 * (b.toNat / 16) + b.toNat % 16 = b.toNat by omega, UInt8.ofNat_toNat]

namespace FixedBytes

variable {n : Nat}

@[ext] theorem ext {a b : FixedBytes n} (h : a.bytes = b.bytes) : a = b := by
  cases a
  cases b
  cases h
  rfl

/-- Byte strings are compared byte by byte, the first difference deciding. -/
instance : Ord (FixedBytes n) := ⟨compareOn bytes⟩

instance : Std.TransOrd (FixedBytes n) :=
  inferInstanceAs (Std.TransCmp (compareOn fun b : FixedBytes n => b.bytes))

instance : Std.LawfulEqOrd (FixedBytes n) where
  eq_of_compare h := FixedBytes.ext (Std.LawfulEqOrd.eq_of_compare h)

/-- The string that repeats one byte. -/
def replicate (n : Nat) (b : UInt8) : FixedBytes n :=
  ⟨List.replicate n b, List.length_replicate⟩

/-- The string of zero bytes. -/
def zero (n : Nat) : FixedBytes n := replicate n 0

instance : Inhabited (FixedBytes n) := ⟨zero n⟩

/-- Are all bytes zero? -/
def isZero (a : FixedBytes n) : Bool := a.bytes.all (· == 0)

/-- The string of the given bytes, if there are `n` of them. -/
def ofBytes (n : Nat) (bytes : List UInt8) : Except BytesError (FixedBytes n) :=
  if h : bytes.length = n then .ok ⟨bytes, h⟩ else .error .invalidLength

/-- Read `n` bytes from their digits. -/
def parseChars (n : Nat) (cs : List Char) : Except BytesError (FixedBytes n) :=
  let digits := dropHexMark cs
  if textSize digits = 2 * n then
    match decodePairs digits with
    | some bytes => if h : bytes.length = n then .ok ⟨bytes, h⟩ else .error .invalidHexDigit
    | none => .error .invalidHexDigit
  else .error .invalidLength

/-- Read `n` bytes from a text. -/
def parse (n : Nat) (text : String) : Except BytesError (FixedBytes n) :=
  parseChars n text.toList

/-- The text of a byte string: `0x` and its lower case digits. -/
def toText (a : FixedBytes n) : String := String.ofList ('0' :: 'x' :: encodeHex a.bytes)

end FixedBytes

/-- The address of a node, a token or a token network. -/
abbrev Address := FixedBytes 20

/-- A hash. -/
abbrev Digest := FixedBytes 32

/-- The preimage that opens a lock. -/
abbrev Secret := FixedBytes 32

/-- The hash of a secret. -/
abbrev SecretHash := FixedBytes 32

/-- The identifier of a channel. A channel that is opened again with the same
    partner gets a new one. -/
abbrev ChannelId := FixedBytes 32

-- Maps are keyed by these two lengths. What a map needs of its keys has a name here, so
-- no definition that uses one carries a proof of its own about them.

instance transOrdAddress : Std.TransOrd Address := inferInstance

instance lawfulEqOrdAddress : Std.LawfulEqOrd Address := inferInstance

instance transOrdDigest : Std.TransOrd Digest := inferInstance

instance lawfulEqOrdDigest : Std.LawfulEqOrd Digest := inferInstance

end PaymentNetwork

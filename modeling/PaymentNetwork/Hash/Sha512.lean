import PaymentNetwork.Bytes

/-!
# SHA-512/256

The hash behind secrets and locks.

A message is padded to whole blocks of 128 bytes. Every block is expanded to
eighty words and stirred into a state of eight words, one round a word. The
hash is the first half of the last state. SHA-512/256 differs from SHA-512 in
the state it starts from and in dropping the second half.

Everything here is recursion over lists, so the hash of a closed message can be
computed in a proof.

## Main definitions

* `wordBytes`: A number as big endian bytes.
* `Sha512.pad`: A message with its padding.
* `Sha512.compress`: Stir one block into the state.
* `sha512t256`: The hash of a message.

## Theorems

* `length_wordBytes`: A number written in `n` bytes takes `n` bytes.
-/

namespace PaymentNetwork

-- Powers are those of the core library, whichever other instance is in scope.
attribute [local instance (high)] instPowNat

/-- The last `count` bytes of a number, most significant byte first. -/
def wordBytes : Nat → Nat → List UInt8
  | 0, _ => []
  | count + 1, n => UInt8.ofNat (n / 256 ^ count) :: wordBytes count n

@[simp] theorem length_wordBytes (count n : Nat) : (wordBytes count n).length = count := by
  induction count with
  | zero => rfl
  | succ k ih => rw [wordBytes, List.length_cons, ih]

namespace Sha512

/-- The words that tell the eighty rounds apart: the fractional parts of the
    cube roots of the first eighty primes. -/
def roundWords : List UInt64 := [
   0x428a2f98d728ae22, 0x7137449123ef65cd, 0xb5c0fbcfec4d3b2f, 0xe9b5dba58189dbbc,
   0x3956c25bf348b538, 0x59f111f1b605d019, 0x923f82a4af194f9b, 0xab1c5ed5da6d8118,
   0xd807aa98a3030242, 0x12835b0145706fbe, 0x243185be4ee4b28c, 0x550c7dc3d5ffb4e2,
   0x72be5d74f27b896f, 0x80deb1fe3b1696b1, 0x9bdc06a725c71235, 0xc19bf174cf692694,
   0xe49b69c19ef14ad2, 0xefbe4786384f25e3, 0x0fc19dc68b8cd5b5, 0x240ca1cc77ac9c65,
   0x2de92c6f592b0275, 0x4a7484aa6ea6e483, 0x5cb0a9dcbd41fbd4, 0x76f988da831153b5,
   0x983e5152ee66dfab, 0xa831c66d2db43210, 0xb00327c898fb213f, 0xbf597fc7beef0ee4,
   0xc6e00bf33da88fc2, 0xd5a79147930aa725, 0x06ca6351e003826f, 0x142929670a0e6e70,
   0x27b70a8546d22ffc, 0x2e1b21385c26c926, 0x4d2c6dfc5ac42aed, 0x53380d139d95b3df,
   0x650a73548baf63de, 0x766a0abb3c77b2a8, 0x81c2c92e47edaee6, 0x92722c851482353b,
   0xa2bfe8a14cf10364, 0xa81a664bbc423001, 0xc24b8b70d0f89791, 0xc76c51a30654be30,
   0xd192e819d6ef5218, 0xd69906245565a910, 0xf40e35855771202a, 0x106aa07032bbd1b8,
   0x19a4c116b8d2d0c8, 0x1e376c085141ab53, 0x2748774cdf8eeb99, 0x34b0bcb5e19b48a8,
   0x391c0cb3c5c95a63, 0x4ed8aa4ae3418acb, 0x5b9cca4f7763e373, 0x682e6ff3d6b2b8a3,
   0x748f82ee5defb2fc, 0x78a5636f43172f60, 0x84c87814a1f0ab72, 0x8cc702081a6439ec,
   0x90befffa23631e28, 0xa4506cebde82bde9, 0xbef9a3f7b2c67915, 0xc67178f2e372532b,
   0xca273eceea26619c, 0xd186b8c721c0c207, 0xeada7dd6cde0eb1e, 0xf57d4f7fee6ed178,
   0x06f067aa72176fba, 0x0a637dc5a2c898a6, 0x113f9804bef90dae, 0x1b710b35131c471b,
   0x28db77f523047d84, 0x32caab7b40c72493, 0x3c9ebe0a15c9bebc, 0x431d67c49c100d4c,
   0x4cc5d4becb3e42b6, 0x597f299cfc657e2a, 0x5fcb6fab3ad6faec, 0x6c44198c4a475817]

/-- The eight words that are stirred. -/
structure State where
  a : UInt64
  b : UInt64
  c : UInt64
  d : UInt64
  e : UInt64
  f : UInt64
  g : UInt64
  h : UInt64

/-- The state before the first block. -/
def start : State :=
  ⟨0x22312194fc2bf72c, 0x9f555fa3c84c64c2, 0x2393b86b6f53b151, 0x963877195940eabd,
    0x96283ee2a88effe3, 0xbe5e1e2553863992, 0x2b0199fc2c85b8aa, 0x0eb72ddc81c52ca2⟩

/-- Rotate a word to the right. -/
def rotate (x k : UInt64) : UInt64 := (x >>> k) ||| (x <<< (64 - k))

/-- One round, with the sum of its round word and its message word. -/
def round (s : State) (x : UInt64) : State :=
  let s1 := rotate s.e 14 ^^^ rotate s.e 18 ^^^ rotate s.e 41
  let choice := (s.e &&& s.f) ^^^ (~~~s.e &&& s.g)
  let t1 := s.h + s1 + choice + x
  let s0 := rotate s.a 28 ^^^ rotate s.a 34 ^^^ rotate s.a 39
  let majority := (s.a &&& s.b) ^^^ (s.a &&& s.c) ^^^ (s.b &&& s.c)
  ⟨t1 + (s0 + majority), s.a, s.b, s.c, s.d + t1, s.e, s.f, s.g⟩

/-- The message word after sixteen others, the latest of which comes first. -/
def nextWord : List UInt64 → UInt64
  | _ :: w2 :: _ :: _ :: _ :: _ :: w7 :: _ :: _ :: _ :: _ :: _ :: _ :: _ :: w15 :: w16 :: _ =>
    let s0 := rotate w15 1 ^^^ rotate w15 8 ^^^ (w15 >>> 7)
    let s1 := rotate w2 19 ^^^ rotate w2 61 ^^^ (w2 >>> 6)
    w16 + s0 + w7 + s1
  | _ => 0

/-- Put `count` more message words in front of those already there. -/
def expand : Nat → List UInt64 → List UInt64
  | 0, words => words
  | count + 1, words => expand count (nextWord words :: words)

/-- The words of a list of bytes, eight bytes a word. -/
def toWords : List UInt8 → List UInt64
  | b0 :: b1 :: b2 :: b3 :: b4 :: b5 :: b6 :: b7 :: rest =>
    [b0, b1, b2, b3, b4, b5, b6, b7].foldl (fun w b => (w <<< 8) ||| b.toUInt64) 0
      :: toWords rest
  | _ => []

/-- Stir one block of sixteen words into the state. -/
def compress (s : State) (block : List UInt64) : State :=
  let words := (expand 64 block.reverse).reverse
  let t := (List.zipWith (· + ·) roundWords words).foldl round s
  ⟨s.a + t.a, s.b + t.b, s.c + t.c, s.d + t.d, s.e + t.e, s.f + t.f, s.g + t.g, s.h + t.h⟩

/-- Stir whole blocks into the state, at most `count` of them. -/
def absorb : Nat → State → List UInt64 → State
  | 0, s, _ => s
  | count + 1, s, words => absorb count (compress s (words.take 16)) (words.drop 16)

/-- The message, a one bit, zero bits up to a whole number of blocks, and in the
    last sixteen bytes the length of the message in bits. -/
def pad (message : List UInt8) : List UInt8 :=
  let zeros := (239 - message.length % 128) % 128
  message ++ 0x80 :: List.replicate zeros 0 ++ wordBytes 16 (8 * message.length)

end Sha512

/-- The hash of a message: the first four words of the last state. -/
def sha512t256 (message : List UInt8) : Digest :=
  let words := Sha512.toWords (Sha512.pad message)
  let s := Sha512.absorb (words.length / 16) Sha512.start words
  ⟨wordBytes 8 s.a.toNat ++ wordBytes 8 s.b.toNat ++ wordBytes 8 s.c.toNat
      ++ wordBytes 8 s.d.toNat, by simp⟩

end PaymentNetwork

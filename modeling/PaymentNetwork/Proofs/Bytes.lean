import Mathlib.Data.String.Basic
import PaymentNetwork.Bytes

/-!
# The Grammar of Byte Strings

Which texts stand for a byte string, and what is wrong with the others.

The reader takes one mark off, compares a size and reads the digits in pairs. None of
these steps looks at the text as a whole, and two of them could go wrong at the seams. The
mark begins with a digit, so digits that happen to look like a mark might lose two of their
number. And the size is counted in bytes while the digits are read one character at a time,
so a text of the right size can have fewer characters than it should, and a last one
without a partner.

Neither matters, because the second character of a mark is no digit and because a digit
takes one byte. A list of characters is read in pairs exactly if all of them are digits and
their lower case is what some bytes are written as. That one statement says which texts are
accepted and which bytes they stand for, and what is left of the text after its mark says
which of the two errors the others get.

## Main definitions

* `hexDigits`: The digits of either case.
* `Spells`: A text is an optional mark and the digits of some bytes.
* `Unmarked`: What is left of a text without one mark.
* `SpellingLaw`: What reading makes of a text.

## Theorems

* `decodePairs_eq_some_iff`: Which characters are read in pairs, and as what.
* `FixedBytes.parseChars_eq_ok_iff`: A byte string is read exactly if the digits are its own.
* `FixedBytes.parse_toText`: What is written reads back.
* `spellingLaw`: The law for every length and every text.
-/

namespace PaymentNetwork

-- What holds of all digits is decided digit by digit, not character by character.
attribute [local instance (high)] List.decidableBAll

/-! ### Digits -/

/-- The digits of either case. -/
def hexDigits : List Char :=
  ['0', '1', '2', '3', '4', '5', '6', '7', '8', '9', 'a', 'b', 'c', 'd', 'e', 'f',
    'A', 'B', 'C', 'D', 'E', 'F']

theorem decimal_mem_hexDigits : ∀ k, k < 10 →
    Char.ofNat (48 + k) ∈ hexDigits ∧ digit k = (Char.ofNat (48 + k)).toLower := by
  decide

theorem lower_mem_hexDigits : ∀ k, k < 6 →
    Char.ofNat (97 + k) ∈ hexDigits ∧ digit (10 + k) = (Char.ofNat (97 + k)).toLower := by
  decide

theorem upper_mem_hexDigits : ∀ k, k < 6 →
    Char.ofNat (65 + k) ∈ hexDigits ∧ digit (10 + k) = (Char.ofNat (65 + k)).toLower := by
  decide

/-- A character that stands for a number is a digit, and its lower case is the digit of that
    number. -/
theorem of_digitValue?_eq_some {c : Char} {d : Nat} (h : digitValue? c = some d) :
    d < 16 ∧ c ∈ hexDigits ∧ digit d = c.toLower := by
  rw [digitValue?] at h
  split at h
  · rename_i hrange
    cases h
    have hfew := decimal_mem_hexDigits (c.toNat - 48) (by omega)
    rw [show 48 + (c.toNat - 48) = c.toNat by omega, Char.ofNat_toNat] at hfew
    exact ⟨by omega, hfew⟩
  · split at h
    · rename_i hrange
      cases h
      have hfew := lower_mem_hexDigits (c.toNat - 97) (by omega)
      rw [show 97 + (c.toNat - 97) = c.toNat by omega, Char.ofNat_toNat,
        show 10 + (c.toNat - 97) = c.toNat - 87 by omega] at hfew
      exact ⟨by omega, hfew⟩
    · split at h
      · rename_i hrange
        cases h
        have hfew := upper_mem_hexDigits (c.toNat - 65) (by omega)
        rw [show 65 + (c.toNat - 65) = c.toNat by omega, Char.ofNat_toNat,
          show 10 + (c.toNat - 65) = c.toNat - 55 by omega] at hfew
        exact ⟨by omega, hfew⟩
      · cases h

theorem isSome_digitValue? : ∀ c ∈ hexDigits, (digitValue? c).isSome := by
  decide

theorem digitValue?_toLower : ∀ c ∈ hexDigits, digitValue? c.toLower = digitValue? c := by
  decide

theorem utf8Size_of_mem_hexDigits : ∀ c ∈ hexDigits, c.utf8Size = 1 := by
  decide

/-! ### Digits in pairs -/

theorem encodeHex_cons (b : UInt8) (rest : List UInt8) :
    encodeHex (b :: rest) = digit (b.toNat / 16) :: digit (b.toNat % 16) :: encodeHex rest := rfl

theorem length_encodeHex (bytes : List UInt8) : (encodeHex bytes).length = 2 * bytes.length := by
  induction bytes with
  | nil => rfl
  | cons b rest ih =>
      rw [encodeHex_cons, List.length_cons, List.length_cons, List.length_cons, ih]
      omega

theorem encodeHex_injective {bytes bytes' : List UInt8} (h : encodeHex bytes = encodeHex bytes') :
    bytes = bytes' :=
  Option.some.inj (by rw [← decodePairs_encodeHex bytes, h, decodePairs_encodeHex])

theorem decodePairs_cons_eq_some_iff {c d : Char} {rest : List Char} {bytes : List UInt8} :
    decodePairs (c :: d :: rest) = some bytes ↔ ∃ high low tail,
      digitValue? c = some high ∧ digitValue? d = some low ∧ decodePairs rest = some tail ∧
        UInt8.ofNat (16 * high + low) :: tail = bytes := by
  simp only [decodePairs, Option.bind_eq_bind, Option.bind_eq_some_iff, Option.pure_def,
    Option.some.injEq]
  constructor
  · rintro ⟨high, hhigh, low, hlow, tail, htail, rfl⟩
    exact ⟨high, low, tail, hhigh, hlow, htail, rfl⟩
  · rintro ⟨high, low, tail, hhigh, hlow, htail, rfl⟩
    exact ⟨high, hhigh, low, hlow, tail, htail, rfl⟩

/-- Reading does not care about the case of a digit. -/
theorem decodePairs_map_toLower {cs : List Char} (h : ∀ c ∈ cs, c ∈ hexDigits) :
    decodePairs (cs.map Char.toLower) = decodePairs cs := by
  induction cs using decodePairs.induct with
  | case1 => rfl
  | case2 c => rfl
  | case3 c d rest ih =>
      rw [List.map_cons, List.map_cons, decodePairs, decodePairs,
        digitValue?_toLower c (h c (by simp)), digitValue?_toLower d (h d (by simp)),
        ih (fun x hx => h x (by simp [hx]))]

theorem of_decodePairs_eq_some {cs : List Char} {bytes : List UInt8}
    (h : decodePairs cs = some bytes) :
    (∀ c ∈ cs, c ∈ hexDigits) ∧ encodeHex bytes = cs.map Char.toLower := by
  induction cs using decodePairs.induct generalizing bytes with
  | case1 =>
      cases h
      exact ⟨fun c hc => absurd hc List.not_mem_nil, rfl⟩
  | case2 c => cases h
  | case3 c d rest ih =>
      obtain ⟨high, low, tail, hhigh, hlow, htail, rfl⟩ := decodePairs_cons_eq_some_iff.mp h
      obtain ⟨hdigits, hlower⟩ := ih htail
      obtain ⟨hhigh_lt, hhigh_mem, hc⟩ := of_digitValue?_eq_some hhigh
      obtain ⟨hlow_lt, hlow_mem, hd⟩ := of_digitValue?_eq_some hlow
      constructor
      · intro x hx
        rcases List.mem_cons.mp hx with rfl | hx
        · exact hhigh_mem
        · rcases List.mem_cons.mp hx with rfl | hx
          · exact hlow_mem
          · exact hdigits x hx
      · -- The two numbers are the digits of the byte that they make up.
        have hbyte : (UInt8.ofNat (16 * high + low)).toNat = 16 * high + low := by
          rw [UInt8.toNat_ofNat', Nat.mod_eq_of_lt (by omega)]
        rw [encodeHex_cons, hbyte, show (16 * high + low) / 16 = high by omega,
          show (16 * high + low) % 16 = low by omega, hc, hd, hlower, List.map_cons,
          List.map_cons]

/-- Characters are read in pairs exactly if all of them are digits and their lower case is
    what some bytes are written as. -/
theorem decodePairs_eq_some_iff {cs : List Char} {bytes : List UInt8} :
    decodePairs cs = some bytes ↔
      (∀ c ∈ cs, c ∈ hexDigits) ∧ encodeHex bytes = cs.map Char.toLower := by
  refine ⟨of_decodePairs_eq_some, ?_⟩
  rintro ⟨hdigits, hlower⟩
  rw [← decodePairs_map_toLower hdigits, ← hlower, decodePairs_encodeHex]

/-- Digits can be read if there is an even number of them. -/
theorem exists_decodePairs {cs : List Char} (h : ∀ c ∈ cs, c ∈ hexDigits) {n : Nat}
    (hlength : cs.length = 2 * n) : ∃ bytes, decodePairs cs = some bytes := by
  induction cs using decodePairs.induct generalizing n with
  | case1 => exact ⟨[], rfl⟩
  | case2 c =>
      rw [List.length_singleton] at hlength
      omega
  | case3 c d rest ih =>
      rw [List.length_cons, List.length_cons] at hlength
      obtain ⟨tail, htail⟩ := ih (fun x hx => h x (by simp [hx])) (n := n - 1) (by omega)
      obtain ⟨high, hhigh⟩ := Option.isSome_iff_exists.mp (isSome_digitValue? c (h c (by simp)))
      obtain ⟨low, hlow⟩ := Option.isSome_iff_exists.mp (isSome_digitValue? d (h d (by simp)))
      exact ⟨_, decodePairs_cons_eq_some_iff.mpr ⟨high, low, tail, hhigh, hlow, htail, rfl⟩⟩

/-! ### Sizes and marks -/

theorem textSize_eq (cs : List Char) : textSize cs = (String.ofList cs).utf8ByteSize := by
  rw [String.utf8ByteSize_ofList]
  induction cs with
  | nil => rfl
  | cons c rest ih =>
      rw [String.utf8Len_cons, ← ih]
      exact Nat.add_comm _ _

theorem textSize_of_digits {cs : List Char} (h : ∀ c ∈ cs, c ∈ hexDigits) :
    textSize cs = cs.length := by
  induction cs with
  | nil => rfl
  | cons c rest ih =>
      have hrest := ih fun x hx => h x (List.mem_cons_of_mem c hx)
      have hc := utf8Size_of_mem_hexDigits c (h c List.mem_cons_self)
      rw [textSize, List.foldr_cons, ← textSize, hrest, hc, List.length_cons, Nat.add_comm]

/-- What is left of a text without one leading mark. -/
inductive Unmarked : String → String → Prop where
  | lower (rest : String) : Unmarked ("0x" ++ rest) rest
  | upper (rest : String) : Unmarked ("0X" ++ rest) rest
  | plain (text : String) (hlower : ∀ rest, text ≠ "0x" ++ rest)
      (hupper : ∀ rest, text ≠ "0X" ++ rest) : Unmarked text text

/-- A text is an optional mark and the digits of `n` bytes. -/
structure Spells (n : Nat) (text : String) (digits : List Char) : Prop where
  marked : ∃ mark ∈ ["", "0x", "0X"], text = mark ++ String.ofList digits
  isDigit : ∀ c ∈ digits, c ∈ hexDigits
  length_digits : digits.length = 2 * n

theorem toList_lowerMark (rest : String) :
    ("0x" ++ rest).toList = '0' :: 'x' :: rest.toList := by
  rw [String.toList_append]
  rfl

theorem toList_upperMark (rest : String) :
    ("0X" ++ rest).toList = '0' :: 'X' :: rest.toList := by
  rw [String.toList_append]
  rfl

theorem dropHexMark_lower (rest : List Char) : dropHexMark ('0' :: 'x' :: rest) = rest := rfl

theorem dropHexMark_upper (rest : List Char) : dropHexMark ('0' :: 'X' :: rest) = rest := rfl

/-- Only the two marks are taken off. -/
theorem dropHexMark_of_ne {cs : List Char} (hlower : ∀ rest, cs ≠ '0' :: 'x' :: rest)
    (hupper : ∀ rest, cs ≠ '0' :: 'X' :: rest) : dropHexMark cs = cs := by
  rw [dropHexMark]
  · exact hlower
  · exact hupper

theorem dropHexMark_of_plain {text : String} (hlower : ∀ rest, text ≠ "0x" ++ rest)
    (hupper : ∀ rest, text ≠ "0X" ++ rest) : dropHexMark text.toList = text.toList := by
  refine dropHexMark_of_ne (fun tail htail => ?_) (fun tail htail => ?_)
  · refine hlower (String.ofList tail) (String.toList_inj.mp ?_)
    rw [toList_lowerMark, String.toList_ofList, htail]
  · refine hupper (String.ofList tail) (String.toList_inj.mp ?_)
    rw [toList_upperMark, String.toList_ofList, htail]

/-- There is one way to take a mark off. -/
theorem unmarked_iff {text rest : String} :
    Unmarked text rest ↔ rest = String.ofList (dropHexMark text.toList) := by
  constructor
  · intro h
    cases h with
    | lower => rw [toList_lowerMark, dropHexMark_lower, String.ofList_toList]
    | upper => rw [toList_upperMark, dropHexMark_upper, String.ofList_toList]
    | plain _ hlower hupper => rw [dropHexMark_of_plain hlower hupper, String.ofList_toList]
  · rintro rfl
    by_cases hlower : ∃ rest, text = "0x" ++ rest
    · obtain ⟨rest, rfl⟩ := hlower
      rw [toList_lowerMark, dropHexMark_lower, String.ofList_toList]
      exact Unmarked.lower rest
    · by_cases hupper : ∃ rest, text = "0X" ++ rest
      · obtain ⟨rest, rfl⟩ := hupper
        rw [toList_upperMark, dropHexMark_upper, String.ofList_toList]
        exact Unmarked.upper rest
      · have hlower' : ∀ rest, text ≠ "0x" ++ rest := fun rest h => hlower ⟨rest, h⟩
        have hupper' : ∀ rest, text ≠ "0X" ++ rest := fun rest h => hupper ⟨rest, h⟩
        rw [dropHexMark_of_plain hlower' hupper', String.ofList_toList]
        exact Unmarked.plain text hlower' hupper'

/-- Digits keep their number when a mark is taken off: its second character is none. -/
theorem dropHexMark_of_digits {cs : List Char} (h : ∀ c ∈ cs, c ∈ hexDigits) :
    dropHexMark cs = cs := by
  refine dropHexMark_of_ne ?_ ?_
  · rintro rest rfl
    exact absurd (h 'x' (by simp)) (by decide)
  · rintro rest rfl
    exact absurd (h 'X' (by simp)) (by decide)

theorem spells_iff {n : Nat} {text : String} {digits : List Char} :
    Spells n text digits ↔ digits = dropHexMark text.toList ∧
      (∀ c ∈ digits, c ∈ hexDigits) ∧ digits.length = 2 * n := by
  constructor
  · rintro ⟨⟨mark, hmark, rfl⟩, hdigits, hlength⟩
    refine ⟨?_, hdigits, hlength⟩
    simp only [List.mem_cons, List.not_mem_nil, or_false] at hmark
    rcases hmark with rfl | rfl | rfl
    · rw [String.empty_append, String.toList_ofList, dropHexMark_of_digits hdigits]
    · rw [toList_lowerMark, dropHexMark_lower, String.toList_ofList]
    · rw [toList_upperMark, dropHexMark_upper, String.toList_ofList]
  · rintro ⟨hrest, hdigits, hlength⟩
    refine ⟨?_, hdigits, hlength⟩
    have hunmarked : Unmarked text (String.ofList digits) := unmarked_iff.mpr (by rw [hrest])
    generalize String.ofList digits = rest at hunmarked
    cases hunmarked with
    | lower => exact ⟨"0x", by simp, rfl⟩
    | upper => exact ⟨"0X", by simp, rfl⟩
    | plain => exact ⟨"", by simp, by rw [String.empty_append]⟩

/-! ### Reading -/

namespace FixedBytes

variable {n : Nat} {cs : List Char} {b : FixedBytes n}

theorem parseChars_of_size (hsize : textSize (dropHexMark cs) ≠ 2 * n) :
    parseChars n cs = .error .invalidLength :=
  if_neg hsize

theorem size_of_decodePairs {bytes : List UInt8} (h : decodePairs cs = some bytes) :
    textSize cs = 2 * bytes.length := by
  obtain ⟨hdigits, hlower⟩ := decodePairs_eq_some_iff.mp h
  have hlength := congrArg List.length hlower
  rw [length_encodeHex, List.length_map] at hlength
  rw [textSize_of_digits hdigits, hlength]

/-- A byte string is read exactly if the digits after the mark are its own. -/
theorem parseChars_eq_ok_iff :
    parseChars n cs = .ok b ↔ decodePairs (dropHexMark cs) = some b.bytes := by
  rw [parseChars]
  constructor
  · intro h
    split at h
    · split at h
      · rename_i bytes hbytes
        split at h
        · cases h
          exact hbytes
        · cases h
      · cases h
    · cases h
  · intro h
    have hsize := size_of_decodePairs h
    rw [b.length_bytes] at hsize
    rw [if_pos hsize, h]
    exact dif_pos b.length_bytes

theorem parseChars_eq_invalidLength_iff :
    parseChars n cs = .error .invalidLength ↔ textSize (dropHexMark cs) ≠ 2 * n := by
  refine ⟨fun h hsize => ?_, parseChars_of_size⟩
  rw [parseChars, if_pos hsize] at h
  split at h
  · split at h <;> cases h
  · cases h

/-- What is written reads back. -/
theorem parse_toText (b : FixedBytes n) : parse n b.toText = .ok b := by
  rw [parse, parseChars_eq_ok_iff, toText, String.toList_ofList, dropHexMark_lower,
    decodePairs_encodeHex]

/-- Nothing else reads as a byte string than a mark and its digits. -/
theorem spells_of_parse {text : String} (h : parse n text = .ok b) :
    Spells n text (dropHexMark text.toList) := by
  obtain ⟨hdigits, hlower⟩ := decodePairs_eq_some_iff.mp (parseChars_eq_ok_iff.mp h)
  have hlength := congrArg List.length hlower
  rw [length_encodeHex, b.length_bytes, List.length_map] at hlength
  exact spells_iff.mpr ⟨rfl, hdigits, hlength.symm⟩

theorem exists_parse_of_spells {text : String} {digits : List Char} (h : Spells n text digits) :
    ∃ b, parse n text = .ok b ∧ encodeHex b.bytes = digits.map Char.toLower := by
  obtain ⟨hrest, hdigits, hlength⟩ := spells_iff.mp h
  obtain ⟨bytes, hbytes⟩ := exists_decodePairs hdigits hlength
  have hlower := (decodePairs_eq_some_iff.mp hbytes).2
  have hcount := congrArg List.length hlower
  rw [length_encodeHex, List.length_map, hlength] at hcount
  rw [hrest] at hbytes
  exact ⟨⟨bytes, by omega⟩, parseChars_eq_ok_iff.mpr hbytes, hlower⟩

theorem parse_eq_invalidLength_iff {text rest : String} (h : Unmarked text rest) :
    parse n text = .error .invalidLength ↔ rest.utf8ByteSize ≠ 2 * n := by
  rw [parse, parseChars_eq_invalidLength_iff, textSize_eq, unmarked_iff.mp h]

end FixedBytes

/-- What reading makes of a text, for byte strings of one length. -/
structure SpellingLaw (n : Nat) (text : String) : Prop where
  /-- A text is accepted exactly if it is an optional mark and the digits of `n` bytes. -/
  accepted : (∃ b, FixedBytes.parse n text = .ok b) ↔ ∃ digits, Spells n text digits
  /-- It then stands for the one byte string that is written with these digits in lower case. -/
  value : ∀ digits, Spells n text digits → ∃ b, FixedBytes.parse n text = .ok b ∧
    encodeHex b.bytes = digits.map Char.toLower ∧
    b.toText = "0x" ++ String.ofList (digits.map Char.toLower) ∧
    ∀ b' : FixedBytes n, encodeHex b'.bytes = digits.map Char.toLower → b' = b
  /-- What is written reads back. -/
  written : ∀ b : FixedBytes n, FixedBytes.parse n b.toText = .ok b
  /-- One mark at most is taken off, in one way. -/
  unmarked : ∃ rest, Unmarked text rest ∧ ∀ rest', Unmarked text rest' → rest' = rest
  /-- The length is wrong if the rest does not take two bytes for each byte. -/
  wrongLength : ∀ rest, Unmarked text rest →
    (FixedBytes.parse n text = .error .invalidLength ↔ rest.utf8ByteSize ≠ 2 * n)
  /-- Of the right size and still refused are the texts with something that is no digit. -/
  wrongDigit : ∀ rest, Unmarked text rest →
    (FixedBytes.parse n text = .error .invalidHexDigit ↔
      rest.utf8ByteSize = 2 * n ∧ ∀ digits, ¬ Spells n text digits)

/-- The law holds for every length and every text. -/
theorem spellingLaw (n : Nat) (text : String) : SpellingLaw n text where
  accepted := by
    constructor
    · rintro ⟨b, hb⟩
      exact ⟨_, FixedBytes.spells_of_parse hb⟩
    · rintro ⟨digits, hspells⟩
      obtain ⟨b, hb, -⟩ := FixedBytes.exists_parse_of_spells hspells
      exact ⟨b, hb⟩
  value digits hspells := by
    obtain ⟨b, hb, hlower⟩ := FixedBytes.exists_parse_of_spells hspells
    refine ⟨b, hb, hlower, ?_, fun b' hb' => ?_⟩
    · rw [← String.toList_inj, toList_lowerMark, String.toList_ofList, FixedBytes.toText,
        String.toList_ofList, hlower]
    · exact FixedBytes.ext (encodeHex_injective (hb'.trans hlower.symm))
  written := FixedBytes.parse_toText
  unmarked := ⟨_, unmarked_iff.mpr rfl, fun _ h => unmarked_iff.mp h⟩
  wrongLength _ h := FixedBytes.parse_eq_invalidLength_iff h
  wrongDigit rest h := by
    have hlength := FixedBytes.parse_eq_invalidLength_iff (n := n) h
    constructor
    · intro herror
      refine ⟨?_, fun digits hspells => ?_⟩
      · by_contra hsize
        rw [hlength.mpr hsize] at herror
        cases herror
      · obtain ⟨b, hb, -⟩ := FixedBytes.exists_parse_of_spells hspells
        rw [hb] at herror
        cases herror
    · rintro ⟨hsize, hnone⟩
      -- The other two answers are taken: by accepted texts, and by texts of another size.
      cases hparse : FixedBytes.parse n text with
      | ok b => exact absurd (FixedBytes.spells_of_parse hparse) (hnone _)
      | error e =>
          cases e with
          | invalidLength => exact absurd hsize (hlength.mp hparse)
          | invalidHexDigit => rfl

-- One character that takes two bytes has the size of a byte string of one byte.
example : FixedBytes.parseChars 1 ['0', 'x', 'é'] = .error .invalidHexDigit := rfl

end PaymentNetwork

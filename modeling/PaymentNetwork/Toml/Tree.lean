import PaymentNetwork.Toml.Number
import PaymentNetwork.Toml.Token

/-!
# Values of TOML

Reads the values of a document: strings, numbers, dates, lists and tables that
are written in braces.

A word with a dash inside or with a capital T is a date, whatever else it
contains, and so is one with a colon behind it. The items of a list are of one
kind. A list may go over several lines, a table in braces may not.

## Main definitions

* `Tree`: A value.
* `readValue?`: The value at the beginning of some tokens, and the rest.
-/

namespace PaymentNetwork.Toml

/-- A value of a document. -/
inductive Tree where
  | text (s : String)
  | integer (n : Int)
  | float (x : Float)
  | boolean (b : Bool)
  | date
  | list (items : List Tree)
  | table (entries : List (String × Tree))
deriving Inhabited

/-- The kinds of values that a list does not mix. -/
inductive Kind where
  | text
  | integer
  | float
  | boolean
  | date
  | list
  | table
deriving DecidableEq

namespace Tree

/-- The kind of a value. -/
def kind : Tree → Kind
  | text _ => .text
  | integer _ => .integer
  | float _ => .float
  | boolean _ => .boolean
  | date => .date
  | list _ => .list
  | table _ => .table

end Tree

/-- Skip white space inside a line. -/
def skipBlank : List Token → List Token
  | .blank :: rest => rest
  | ts => ts

/-- The tokens after a certain token. -/
def expect? (t : Token) : List Token → Option (List Token)
  | t' :: rest => if t' = t then some rest else none
  | [] => none

/-- The tokens after the end of a line, which may have a comment in front. -/
def endLine? (ts : List Token) : Option (List Token) :=
  let ts := match ts with
    | .comment :: rest => rest
    | ts => ts
  match ts with
  | [] => some []
  | .newline :: rest => some rest
  | _ => none

/-- The tokens after line ends, comments and white space. -/
def skipLines? : List Token → Option (List Token)
  | .blank :: rest => skipLines? rest
  | .newline :: rest => skipLines? rest
  | .comment :: .newline :: rest => skipLines? rest
  | [.comment] => some []
  | .comment :: _ => none
  | ts => some ts

/-- A key. It is neither empty nor written over several lines. -/
def readKey? : List Token → Option (String × List Token)
  | .word cs :: rest => some (String.ofList cs, rest)
  | .quoted text false :: rest => if text.isEmpty then none else some (String.ofList text, rest)
  | _ => none

/-- A key and the tokens after its equals sign. -/
def readAssignment? (ts : List Token) : Option (String × List Token) := do
  let (key, ts) ← readKey? ts
  let ts ← expect? .equals (skipBlank ts)
  return (key, skipBlank ts)

/-- A word that belongs to a date or a number. -/
def readWord? : List Token → Option (List Char × List Token)
  | .word cs :: rest => some (cs, rest)
  | _ => none

/-- The tokens after an optional part of a date: a mark and a word. -/
def skipPart? (mark : Token) : List Token → Option (List Token)
  | t :: rest => if t = mark then (readWord? rest).map Prod.snd else some (t :: rest)
  | [] => some []

/-- The tokens after the time of a date, whose first colon was read. -/
def skipTime? (ts : List Token) : Option (List Token) := do
  let (_, ts) ← readWord? ts
  let (_, ts) ← readWord? (← expect? .colon ts)
  let ts ← skipPart? .period ts
  let ts ← skipPart? .plus ts
  skipPart? .colon ts

/-- The exponent of a number, whose word may be cut by a plus sign. -/
def readExponent? (suffix : List Char) (ts : List Token) : Option (Int × List Token) :=
  match suffix with
  | [] => some (0, ts)
  | c :: cs =>
    if c ≠ 'e' ∧ c ≠ 'E' then none
    -- The word ended at a plus sign: the digits are in the next one.
    else if cs.isEmpty then do
      let ts := match ts with
        | .plus :: rest => rest
        | ts => ts
      let (word, ts) ← readWord? ts
      match ← readDigits? false false word with
      | (d, []) => return (d.value, ts)
      | _ => none
    else do
      match ← readDigits? true false cs with
      | (d, []) => return (d.value, ts)
      | _ => none

/-- A number with a point or an exponent. -/
def readFloat? (word : List Char) (after? : Option (List Char)) (ts : List Token) :
    Option (Tree × List Token) := do
  let (whole, suffix) ← readDigits? true false word
  let (fraction, suffix) ← match after? with
    | none => some (([] : List Char), suffix)
    | some after =>
      -- What stands in front of a point is digits only.
      if !suffix.isEmpty then none
      else (readDigits? false true after).map fun (d, rest) => (d.digits, rest)
  let (exponent, ts) ← readExponent? suffix ts
  let x ← FloatParts.value? ⟨whole, fraction, exponent⟩
  return (.float x, ts)

/-- A number whose first word was read. -/
def readNumber? (word : List Char) (ts : List Token) : Option (Tree × List Token) :=
  if word.contains 'e' || word.contains 'E' then readFloat? word none ts
  else match ts with
    | .period :: .word after :: rest => readFloat? word (some after) rest
    | .period :: _ => none
    | _ => (readInteger? word).map fun n => (.integer n, ts)

/-- Does a word hold an `e` with a dash behind it? -/
def hasNegativeExponent : List Char → Bool
  | 'e' :: '-' :: _ => true
  | _ :: rest => hasNegativeExponent rest
  | [] => false

/-- Is a word the beginning of a date by its looks? -/
def looksLikeDate (word : List Char) : Bool :=
  word.contains 'T' || (word.tail.contains '-' && !hasNegativeExponent word)

/-- A value whose first word was read. -/
def readWordValue? (word : List Char) (ts : List Token) : Option (Tree × List Token) :=
  if word = "true".toList then some (.boolean true, ts)
  else if word = "false".toList then some (.boolean false, ts)
  else if looksLikeDate word then
    match ts with
    | .colon :: rest => (skipTime? rest).map fun ts => (.date, ts)
    | _ => some (.date, ts)
  else match ts with
    | .colon :: rest => (skipTime? rest).map fun ts => (.date, ts)
    | _ => readNumber? word ts

mutual

/-- The value at the beginning of some tokens, and the rest. The limit bounds how
    deep values are nested and how many stand beside each other. -/
def readValue? : Nat → List Token → Option (Tree × List Token)
  | 0, _ => none
  | limit + 1, ts =>
    match ts with
    | .quoted text _ :: rest => some (.text (String.ofList text), rest)
    | .word cs :: rest => readWordValue? cs rest
    | .plus :: .word cs :: rest => readNumber? cs rest
    | .openBrace :: rest =>
      match skipBlank rest with
      | .closeBrace :: rest => some (.table [], rest)
      | rest => (readEntries? limit rest).map fun (es, rest) => (.table es, rest)
    | .openBracket :: rest => (readItems? limit none rest).map fun (is, rest) => (.list is, rest)
    | _ => none

/-- The entries of a table in braces up to its end, and the rest. -/
def readEntries? : Nat → List Token → Option (List (String × Tree) × List Token)
  | 0, _ => none
  | limit + 1, ts => do
    let (key, ts) ← readAssignment? ts
    let (value, ts) ← readValue? limit ts
    match skipBlank ts with
    | .closeBrace :: rest => return ([(key, value)], rest)
    | .comma :: rest =>
      let (entries, rest) ← readEntries? limit (skipBlank rest)
      return ((key, value) :: entries, rest)
    | _ => none

/-- The items of a list up to its end, and the rest. They are of one kind. -/
def readItems? : Nat → Option Kind → List Token → Option (List Tree × List Token)
  | 0, _, _ => none
  | limit + 1, kind?, ts => do
    match ← skipLines? ts with
    | .closeBracket :: rest => return ([], rest)
    | ts =>
      let (item, ts) ← readValue? limit ts
      -- The first item decides what kind the others are of.
      if (kind?.getD item.kind) ≠ item.kind then none
      else match ← skipLines? ts with
        | .comma :: rest =>
          let (items, rest) ← readItems? limit (some item.kind) rest
          return (item :: items, rest)
        | .closeBracket :: rest => return ([item], rest)
        | _ => none

end

end PaymentNetwork.Toml

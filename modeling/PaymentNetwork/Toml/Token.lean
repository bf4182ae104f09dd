/-!
# Tokens of TOML

Cuts the text of a TOML document into tokens.

White space matters inside a line, so it is a token too. A carriage return counts
only as a part of a line end. A quoted string is one token with its text read; a
string in three quotes may go over several lines. A document that cannot be cut
up is no document, and where the fault lies is nobody's concern here.

## Main definitions

* `Token`: A piece of a document.
* `Token.scan?`: The tokens of a document.
-/

namespace PaymentNetwork.Toml

/-- A piece of a document. -/
inductive Token where
  | blank
  | newline
  | comment
  | equals
  | period
  | comma
  | colon
  | plus
  | openBrace
  | closeBrace
  | openBracket
  | closeBracket
  /-- Letters, digits, dashes and underscores. -/
  | word (chars : List Char)
  | quoted (text : List Char) (isMultiline : Bool)
deriving DecidableEq

namespace Token

/-- Can the character stand in a word? -/
def isWordChar (c : Char) : Bool := c.isAlphanum || c = '-' || c = '_'

/-- Can the character stand in a comment? -/
def isCommentChar (c : Char) : Bool := c = '\t' || ' ' ≤ c

/-- Can the character stand for itself in a string? -/
def isPlain (c : Char) : Bool := ' ' ≤ c && c ≠ '\x7f'

/-- The value of a hexadecimal digit. -/
def hexValue? (c : Char) : Option Nat :=
  if c.isDigit then some (c.toNat - '0'.toNat)
  else if 'a' ≤ c && c ≤ 'f' then some (c.toNat - 'a'.toNat + 10)
  else if 'A' ≤ c && c ≤ 'F' then some (c.toNat - 'A'.toNat + 10)
  else none

/-- The character of a hexadecimal code. -/
def charOfCode? (code : List Char) : Option Char := do
  let digits ← code.mapM hexValue?
  let n := digits.foldl (fun acc d => 16 * acc + d) 0
  if n.isValidChar then some (Char.ofNat n) else none

/-- The white space after a backslash at the end of a line. Nothing but blanks
    may come before the line end. -/
def skipLineEnd? (cs : List Char) : Option (List Char) :=
  match cs.dropWhile fun c => c = ' ' || c = '\t' with
  | [] => some []
  | '\n' :: rest => some (rest.dropWhile fun c => c = ' ' || c = '\t' || c = '\n')
  | _ => none

/-- The text of an escape sequence after its backslash, and the rest. -/
def escape? (isMultiline : Bool) : List Char → Option (List Char × List Char)
  | '\x22' :: rest => some (['\x22'], rest)
  | '\x5c' :: rest => some (['\x5c'], rest)
  | 'b' :: rest => some (['\x08'], rest)
  | 'f' :: rest => some (['\x0c'], rest)
  | 'n' :: rest => some (['\n'], rest)
  | 'r' :: rest => some (['\r'], rest)
  | 't' :: rest => some (['\t'], rest)
  | 'u' :: rest => do
    if rest.length < 4 then none else some ([← charOfCode? (rest.take 4)], rest.drop 4)
  | 'U' :: rest => do
    if rest.length < 8 then none else some ([← charOfCode? (rest.take 8)], rest.drop 8)
  | c :: rest =>
    if isMultiline && (c = ' ' || c = '\t' || c = '\n') then
      (skipLineEnd? (c :: rest)).map fun rest => ([], rest)
    else none
  | [] => none

/-- The text of a string up to its closing quotes, and the rest. The limit bounds
    the number of characters read. -/
def body? (quote : Char) (isMultiline : Bool) : Nat → List Char → Option (List Char × List Char)
  | 0, _ => none
  | _, [] => none
  | limit + 1, c :: rest =>
    let more := fun (text : List Char) (rest : List Char) =>
      (body? quote isMultiline limit rest).map fun (tail, rest) => (text ++ tail, rest)
    if c = '\n' then if isMultiline then more [c] rest else none
    else if c = quote then
      if !isMultiline then some ([], rest)
      else match rest with
        | c₁ :: c₂ :: rest₂ =>
          if c₁ ≠ quote then more [quote] rest
          else if c₂ ≠ quote then more [quote] (c₂ :: rest₂)
          else some ([], rest₂)
        | [c₁] => if c₁ ≠ quote then more [quote] rest else none
        | [] => none
    else if c = '\x5c' && quote = '\x22' then
      (escape? isMultiline rest).bind fun (text, rest) => more text rest
    else if isPlain c || (c = '\t' && quote = '\x27') then more [c] rest
    else none

/-- A string after its first quote, and the rest. A line end right after three
    quotes does not belong to the text. -/
def string? (quote : Char) (cs : List Char) : Option (Token × List Char) :=
  let read := fun (isMultiline : Bool) (cs : List Char) =>
    (body? quote isMultiline (cs.length + 1) cs).map fun (text, rest) =>
      (quoted text isMultiline, rest)
  match cs with
  | c₁ :: rest =>
    if c₁ ≠ quote then read false cs
    else match rest with
      | c₂ :: rest₂ =>
        if c₂ ≠ quote then some (quoted [] false, rest)
        else match rest₂ with
          | '\n' :: rest₃ => read true rest₃
          | _ => read true rest₂
      | [] => some (quoted [] false, rest)
  | [] => none

/-- The first token of a text that is not empty, and the rest. -/
def first? (c : Char) (rest : List Char) : Option (Token × List Char) :=
  match c with
  | '\n' => some (newline, rest)
  | '=' => some (equals, rest)
  | '.' => some (period, rest)
  | ',' => some (comma, rest)
  | ':' => some (colon, rest)
  | '+' => some (plus, rest)
  | '\x7b' => some (openBrace, rest)
  | '\x7d' => some (closeBrace, rest)
  | '[' => some (openBracket, rest)
  | ']' => some (closeBracket, rest)
  | '#' => some (comment, rest.dropWhile isCommentChar)
  | '\x22' => string? '\x22' rest
  | '\x27' => string? '\x27' rest
  | _ =>
    if c = ' ' || c = '\t' then some (blank, rest.dropWhile fun c => c = ' ' || c = '\t')
    else if isWordChar c then
      some (word (c :: rest.takeWhile isWordChar), rest.dropWhile isWordChar)
    else none

/-- Write every line end as one character. -/
def foldLineEnds : List Char → List Char
  | '\r' :: '\n' :: rest => '\n' :: foldLineEnds rest
  | c :: rest => c :: foldLineEnds rest
  | [] => []

/-- Tokens of a text, at most `limit` of them. -/
def scanUpTo? : Nat → List Char → Option (List Token)
  | _, [] => some []
  | 0, _ => none
  | limit + 1, c :: rest =>
    match first? c rest with
    | none => none
    | some (token, rest') => (scanUpTo? limit rest').map (token :: ·)

/-- The tokens of a document. A byte order mark in front is skipped. -/
def scan? (text : String) : Option (List Token) :=
  let chars := foldLineEnds text.toList
  match chars with
  | '\uFEFF' :: rest => scanUpTo? rest.length rest
  | _ => scanUpTo? chars.length chars

end Token

end PaymentNetwork.Toml

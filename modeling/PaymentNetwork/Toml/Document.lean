import PaymentNetwork.Toml.Tree

/-!
# Documents of TOML

Puts the lines of a document together to one table.

A line is an entry, or a header that names the table that the following entries
belong to. A header in double brackets begins a new item of a list of tables. A
table has one header at most, and a header in double brackets does not come after
a part of what it names. Two entries under one key are left to the reader of the
table, who knows which keys matter.

## Main definitions

* `Section`: A header with the entries under it.
* `readDocument?`: The table that a document is.
-/

namespace PaymentNetwork.Toml

/-- A header with the entries under it. -/
structure Section where
  path : List String
  isItem : Bool
  entries : List (String × Tree)

/-- The path of a header up to its closing bracket, and the rest. -/
def readPath? : Nat → List Token → Option (List String × List Token)
  | 0, _ => none
  | limit + 1, ts => do
    let (key, ts) ← readKey? (skipBlank ts)
    match skipBlank ts with
    | .period :: rest =>
      let (keys, rest) ← readPath? limit rest
      return (key :: keys, rest)
    | .closeBracket :: rest => return ([key], rest)
    | _ => none

/-- A header after its first bracket: its path, whether it begins an item, and the
    tokens of the next line. -/
def readHeader? (ts : List Token) : Option ((List String × Bool) × List Token) := do
  match ts with
  | .openBracket :: rest =>
    let (path, ts) ← readPath? rest.length rest
    let ts ← expect? .closeBracket ts
    return ((path, true), ← endLine? (skipBlank ts))
  | _ =>
    let (path, ts) ← readPath? ts.length ts
    return ((path, false), ← endLine? (skipBlank ts))

/-- An entry, and the tokens of the next line. -/
def readEntry? (ts : List Token) : Option ((String × Tree) × List Token) := do
  let (key, ts) ← readAssignment? ts
  let (value, ts) ← readValue? (ts.length + 1) ts
  return ((key, value), ← endLine? (skipBlank ts))

/-- The sections of a document, the first one being the one that is being read.
    The limit bounds the number of lines. -/
def readSections? : Nat → Section → List Token → Option (List Section)
  | 0, _, _ => none
  | limit + 1, s, ts => do
    match ← skipLines? ts with
    | [] => return [s]
    | .openBracket :: rest =>
      let ((path, isItem), ts) ← readHeader? rest
      return s :: (← readSections? limit ⟨path, isItem, []⟩ ts)
    | ts =>
      let (entry, ts) ← readEntry? ts
      readSections? limit { s with entries := s.entries ++ [entry] } ts

/-- The keys that sections have at some depth, in order and without
    repetition. -/
def keysAt (depth : Nat) (sections : List Section) : List String :=
  (sections.filterMap fun s => s.path[depth]?).eraseDups

/-- Cut sections in front of every one that begins an item under a path. The first
    section is one. -/
def cutItems (depth : Nat) : List Section → List (List Section)
  | [] => []
  | s :: rest =>
    match cutItems depth rest with
    | [] => [[s]]
    | group :: groups =>
      match group.head? with
      | some t =>
        if t.isItem && decide (t.path.length = depth) then [s] :: group :: groups
        else (s :: group) :: groups
      | none => [s] :: groups

/-- The entries of the table that some sections describe. Their paths agree up to
    the depth. `isItem` says that the first one may begin an item. -/
def gather? : Nat → Nat → Bool → List Section → Option (List (String × Tree))
  | 0, _, _, _ => none
  | limit + 1, depth, isItem, sections => do
    let own := sections.filter fun s => s.path.length = depth
    if 1 < own.length ∨ (!isItem && own.any Section.isItem) then none
    else
      let subtables ← (keysAt depth sections).mapM fun key => do
        let group := sections.filter fun s => s.path[depth]? = some key
        let isList := match group.head? with
          | some s => s.isItem && decide (s.path.length = depth + 1)
          | none => false
        if isList then
          let items ← (cutItems (depth + 1) group).mapM fun item =>
            (gather? limit (depth + 1) true item).map .table
          return (key, Tree.list items)
        else return (key, .table (← gather? limit (depth + 1) false group))
      return own.flatMap Section.entries ++ subtables

/-- The table that a document is. -/
def readDocument? (text : String) : Option (List (String × Tree)) := do
  let tokens ← Token.scan? text
  let sections ← readSections? (tokens.length + 1) ⟨[], false, []⟩ tokens
  let depth := sections.foldl (fun acc s => max acc s.path.length) 0
  gather? (depth + 1) 0 false sections

end PaymentNetwork.Toml

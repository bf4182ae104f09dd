/-!
# How Alike Two Words Are

The Jaro and Winkler measure, for noticing misspelled commands.

Two characters match if they are equal and not too far apart. The measure grows
with the share of the characters that match and shrinks with the matches that are
out of order. Winkler's addition rewards a common beginning, of any length here.

## Main definitions

* `similarity`: How alike two words are, between zero and one.
-/

namespace PaymentNetwork

/-- The matches so far: the places of the second word that are taken, the place
    that was taken last, and how many matches are out of order. -/
structure Matching where
  taken : List Nat
  last : Nat
  outOfOrder : Nat

/-- The matches after the character at place `i` of the first word. -/
def Matching.extend (range : Nat) (second : List Char) (i : Nat) (c : Char) (m : Matching) :
    Matching :=
  let free := fun (p : Char × Nat) =>
    decide (i ≤ p.2 + range) && decide (p.2 ≤ i + range) && p.1 == c && !m.taken.contains p.2
  match second.zipIdx.find? free with
  | none => m
  | some (_, j) => ⟨j :: m.taken, j, if j < m.last then m.outOfOrder + 1 else m.outOfOrder⟩

/-- The share of matching characters and of matches that are in order. -/
def matchingShare (first second : List Char) : Float :=
  let a := first.length
  let b := second.length
  if a = 0 ∧ b = 0 then 1.0
  else if a = 0 ∨ b = 0 then 0.0
  else if a = 1 ∧ b = 1 then if first = second then 1.0 else 0.0
  else
    let range := max a b / 2 - 1
    let extend := fun (m : Matching) (p : Char × Nat) => m.extend range second p.2 p.1
    let m := first.zipIdx.foldl extend ⟨[], 0, 0⟩
    let count := m.taken.length.toFloat
    if m.taken.isEmpty then 0.0
    else (1.0 / 3.0) * (count / a.toFloat + count / b.toFloat
      + (count - m.outOfOrder.toFloat) / count)

/-- The length of the common beginning of two words. -/
def commonStart : List Char → List Char → Nat
  | a :: as, b :: bs => if a = b then commonStart as bs + 1 else 0
  | _, _ => 0

/-- How alike two words are, between zero and one. -/
def similarity (first second : String) : Float :=
  let share := matchingShare first.toList second.toList
  let start := (commonStart first.toList second.toList).toFloat
  let whole := share + 0.1 * start * (1.0 - share)
  if whole ≤ 1.0 then whole else 1.0

end PaymentNetwork

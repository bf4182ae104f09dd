/-!
# Stable Sorting

Insertion sort by a Boolean order.

Candidate routes, merkle leaves and reports are sorted, and in each case the
order of equal elements is part of the rule. Insertion keeps that order: a new
element goes in front of the first one it is not larger than, and elements are
inserted from the last to the first.

The sort recurses on the list, so that the sort of a closed list evaluates in a
proof. The merge sort of the standard library does not.

## Main definitions

* `insertBy`: Insert one element in front of the first larger or equal one.
* `sortBy`: Sort a list, keeping the order of equal elements.
* `sortOn`: Sort a list by a key.
-/

namespace PaymentNetwork

variable {α : Type}

/-- Insert `x` in front of the first element that it may precede. -/
def insertBy (le : α → α → Bool) (x : α) : List α → List α
  | [] => [x]
  | y :: ys => if le x y then x :: y :: ys else y :: insertBy le x ys

/-- Sort by `le`. Elements that precede each other keep their order. -/
def sortBy (le : α → α → Bool) (xs : List α) : List α := xs.foldr (insertBy le) []

/-- Sort by a key, smallest key first. -/
def sortOn {β : Type} [Ord β] (key : α → β) (xs : List α) : List α :=
  sortBy (fun a b => (compare (key a) (key b)).isLE) xs

end PaymentNetwork

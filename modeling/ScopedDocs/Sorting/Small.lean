/-!
# Sorting — a few values

How a short list is put in order. Values go in behind those that are in order, one
after the other (`Sorting.insertAll`). From two values on, the halves of a list are
sorted apart and merged from both ends at once (`Sorting.meet`). The two merges have to
meet at one place; where they miss each other, what values are compared by is no order,
and sorting gives up.
-/


namespace ScopedDocs

namespace Sorting

variable {α : Type} (less : α → α → Bool)

/-! ## Insertion -/

/-- Inserts a value into a list in descending order, before the first value it is not
less than. -/
def insertDescending (x : α) : List α → List α
  | [] => [x]
  | y :: rest => if less x y then y :: insertDescending x rest else x :: y :: rest

/-- Inserts one value after the other into a list in order, from its end on. -/
def insertAll (sorted values : List α) : List α :=
  (values.foldl (fun descending x => insertDescending less x descending) sorted.reverse).reverse

/-! ## Halves -/

/-- Two values in order. -/
def pair (x y : α) : α × α := if less y x then (y, x) else (x, y)

/-- The values of two pairs in order. The lesser values are compared, and the greater ones,
which tells the first and the last of all; then the two others are. -/
def ofPairs (p q : α × α) : List α :=
  let first := if less q.1 p.1 then q.1 else p.1
  let last := if less q.2 p.2 then p.2 else q.2
  let left := if less q.1 p.1 then p.1 else if less q.2 p.2 then q.1 else p.2
  let right := if less q.2 p.2 then q.2 else if less q.1 p.1 then p.2 else q.1
  if less right left then [first, right, left, last] else [first, left, right, last]

/-- One half of a list in order. In a long list, the first four values of a half go in as
pairs. -/
def half (isLong : Bool) (values : List α) : List α :=
  match isLong, values with
  | true, v₀ :: v₁ :: v₂ :: v₃ :: rest =>
    insertAll less (ofPairs less (pair less v₀ v₁) (pair less v₂ v₃)) rest
  | _, values => insertAll less [] values

/-! ## Merging from both ends -/

/-- Takes a number of values off the fronts of two lists: the first one of the second
list if it is less than that of the first list, else the latter. The answer is what has
been taken and what is left of each. -/
def draw : Nat → List α → List α → List α × List α × List α
  | count + 1, x :: xs, y :: ys =>
    if less y x then
      let (taken, left, right) := draw count (x :: xs) ys
      (y :: taken, left, right)
    else
      let (taken, left, right) := draw count xs (y :: ys)
      (x :: taken, left, right)
  | _, xs, ys => ([], xs, ys)

/-- **Merging from both ends.** The second half is as long as the first, or has one value
more. As many values as the first half has are taken from the fronts of the halves, the
lesser ones first, and as many from their ends, the greater ones first; one more may be
left in between. It is none if the two have not met in the first half. -/
def meet (left right : List α) : Option (List α) :=
  let size := left.length
  let (front, above, others) := draw less size left right
  let (back, _, below) := draw (fun x y => less y x) size right.reverse left.reverse
  let start := size - above.length
  if right.length = size then
    if start = below.length then some (front ++ back.reverse) else none
  else if start < below.length then
    if start + 1 = below.length then some (front ++ above.take 1 ++ back.reverse) else none
  else
    if start = below.length then some (front ++ others.take 1 ++ back.reverse) else none

/-- **A short list in order**, or none. -/
def small (values : List α) : Option (List α) :=
  if values.length < 2 then some values
  else
    let size := values.length / 2
    let isLong := decide (8 ≤ values.length)
    meet less (half less isLong (values.take size)) (half less isLong (values.drop size))

end Sorting

end ScopedDocs

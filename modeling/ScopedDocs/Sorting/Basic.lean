import ScopedDocs.Sorting.Small
/-!
# Sorting — long lists

How a list of any length is put in order, with equal values in the order they came in.
A list falls into runs, which are in order or small enough to be sorted (`Sorting.runs`).
Runs next to one another are merged in a tree that keeps their lengths alike
(`Sorting.weave`); where none of them was in order, their values are sorted in one go by
a pivot (`Sorting.quick`). All this compares values and does nothing else with them. It
gives up only where a short list does (`Sorting.small`).
-/


namespace ScopedDocs

namespace Sorting

variable {α : Type} (less : α → α → Bool)

/-! ## Runs -/

/-- Values next to one another in a list, and whether they are in order. -/
structure Run (α : Type) where
  /-- The values. -/
  values : List α
  /-- Whether they are in order. -/
  isSorted : Bool

/-- The number of values that go on behind a value as they should: each of them less
than the one before, or each of them not. -/
def stretch (isFalling : Bool) : α → List α → Nat
  | _, [] => 0
  | x, y :: rest => if less y x = isFalling then stretch isFalling y rest + 1 else 0

/-- The length of the run a list starts with, and whether the run is falling. -/
def start (values : List α) : Nat × Bool :=
  match values with
  | x :: y :: rest => (stretch less (less y x) x (y :: rest) + 1, less y x)
  | values => (values.length, false)

/-- The run that is made of the first values of a list: as it is there if it is long
enough, else of a short list that is sorted at once, or of values that are not in order
yet. -/
def firstRun (enough : Nat) (isEager : Bool) (values : List α) : Option (Run α) :=
  let (size, isFalling) := start less values
  if enough ≤ size then
    let found := values.take size
    some ⟨if isFalling then found.reverse else found, true⟩
  else if isEager then
    (small less (values.take 32)).map (⟨·, true⟩)
  else
    some ⟨values.take enough, false⟩

/-- **The runs of a list**, one behind the other. -/
def runs (enough : Nat) (isEager : Bool) : List α → Option (List (Run α))
  | [] => some []
  | x :: rest => do
    let run ← firstRun less enough isEager (x :: rest)
    let others ← runs enough isEager (rest.drop (run.values.length - 1))
    some (run :: others)
termination_by values => values.length
decreasing_by simp only [List.length_drop, List.length_cons]; omega

/-- The length from which on a run is left as it is. -/
def enough (size : Nat) : Nat :=
  if size ≤ 4096 then min (size - size / 2) 64
  else
    let shift := (1 + size.log2) / 2
    (Nat.pow 2 shift + size / Nat.pow 2 shift) / 2

/-! ## Merging -/

/-- Two lists in order as one: it is filled from the front if the first list is not
longer, else from the end. -/
def merge (left right : List α) : List α :=
  if left.length ≤ right.length then left.merge right fun x y => !less y x
  else (right.reverse.merge left.reverse fun y x => !less y x).reverse

variable (sort : List α → Option (List α))

/-- The values of a run in order. -/
def Run.settled (run : Run α) : Option (List α) :=
  if run.isSorted then some run.values else sort run.values

/-- Two runs as one. They are merged if one of them is in order, or if there is no room
to sort them together. -/
def join (room : Nat) (left right : Run α) : Option (Run α) :=
  if left.values.length + right.values.length ≤ room ∧
      left.isSorted = false ∧ right.isSorted = false then
    some ⟨left.values ++ right.values, false⟩
  else do
    let front ← left.settled sort
    let back ← right.settled sort
    some ⟨merge less front back, true⟩

/-- How deep in the tree two runs are merged, by where the first one starts, where they
meet and where the second one ends. -/
def depth (factor left middle right : Nat) : Nat :=
  let bits := (factor * (left + middle)) ^^^ (factor * (middle + right))
  if bits = 0 then 64 else 63 - bits.log2

/-- Joins a run to those before it that are to be merged as deep. -/
def collapse (room level : Nat) : Run α → List (Run α × Nat) →
    Option (Run α × List (Run α × Nat))
  | run, [] => some (run, [])
  | run, (left, deep) :: stack =>
    if level ≤ deep then do
      let joined ← join less sort room left run
      collapse room level joined stack
    else some (run, (left, deep) :: stack)

/-- **Merging runs**, the one behind the other: the runs that wait, the last one first,
with how deep they are to be merged, the place that has been reached, the run that ends
there and the runs behind it. -/
def weave (room factor : Nat) : List (Run α × Nat) → Nat → Run α → List (Run α) →
    Option (Run α)
  | stack, _, run, [] => (collapse less sort room 0 run stack).map Prod.fst
  | stack, place, run, next :: rest => do
    let level := depth factor (place - run.values.length) place (place + next.values.length)
    let (joined, waiting) ← collapse less sort room level run stack
    weave room factor ((joined, level) :: waiting) (place + next.values.length) next rest

/-- What makes a place in a list of some length a fraction of it. -/
def scale (size : Nat) : Nat := (Nat.pow 2 62 + size - 1) / size

/-- Sorting by runs. -/
def drift (room : Nat) (isEager : Bool) (values : List α) : Option (List α) :=
  (runs less (enough values.length) isEager values).bind fun
    | [] => some []
    | run :: rest =>
      (weave less sort room (scale values.length) [] run.values.length run rest).bind
        (Run.settled sort)

/-! ## Pivots -/

/-- Whether the value at one place of a list is less than that at another. -/
def lessAt (values : List α) (i j : Nat) : Bool :=
  match values[i]?, values[j]? with
  | some a, some b => less a b
  | _, _ => false

/-- The place of three that holds the middle value. -/
def median (comes : Nat → Nat → Bool) (a b c : Nat) : Nat :=
  if comes a b = comes a c then
    if comes b c = comes a b then b else c
  else a

/-- The place of a value that is about in the middle of the values at three places and
behind them. -/
def middle (comes : Nat → Nat → Bool) (a b c size : Nat) : Nat :=
  if 8 ≤ size then
    let part := size / 8
    let among (first : Nat) := middle comes first (first + 4 * part) (first + 7 * part) part
    median comes (among a) (among b) (among c)
  else median comes a b c
termination_by size
decreasing_by all_goals omega

/-- The place of the pivot of a list. -/
def pivot (values : List α) : Nat :=
  let part := values.length / 8
  middle (lessAt less values) 0 (4 * part) (7 * part) part

/-- **Sorting by pivots.** Short lists are sorted at once, and after too many pivots the
rest is left to another way of sorting. Values less than the pivot come first. If there
are none, or if a pivot before has been as great and no value is less than that, those
equal to the pivot come first. -/
def quick (fallback : List α → Option (List α)) : Nat → Option α → List α → Option (List α)
  | 0, _, values => if values.length ≤ 32 then small less values else fallback values
  | limit + 1, ancestor, values =>
    if values.length ≤ 32 then small less values
    else
      let before := values.take (pivot less values)
      match values.drop (pivot less values) with
      | [] => none
      | x :: after =>
        let below := (before ++ after).filter (less · x)
        if below.isEmpty || ancestor.any (!less · x) then
          let equal := before.filter (!less x ·) ++ x :: after.filter (!less x ·)
          (quick fallback limit none ((before ++ after).filter (less x ·))).map (equal ++ ·)
        else do
          let others := before.filter (!less · x) ++ x :: after.filter (!less · x)
          let back ← quick fallback limit (some x) others
          let front ← quick fallback limit ancestor below
          some (front ++ back)

/-! ## Sorting -/

/-- **Sorting.** It is none if what values are compared by turns out to be no order. No
more than so many values as fit into 8 MB, of 72 bytes each, or half of them, are sorted
by pivots at once. -/
def sorted? (values : List α) : Option (List α) :=
  let size := values.length
  if size ≤ 20 then some (insertAll less [] values)
  else
    let room := max (size - size / 2) (min size 111111)
    -- from here on all runs are in order, so that the first argument has no use
    let eagerly := drift less (small less) room true
    let byPivots := fun values => quick less eagerly (2 * values.length.log2) none values
    drift less byPivots room (decide (size ≤ 64)) values

end Sorting

end ScopedDocs

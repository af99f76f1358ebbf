import ScopedDocs.Instant.Reader
import ScopedDocs.Json.Basic
/-!
# JSON — order

How values compare. `Json.compare?` orders values of one kind, and takes two
strings that both hold an instant in the strict form as these instants;
`Json.matchesValue` is the equality of filters, and `Json.sortOrder` the order
of sorting, which puts the kinds one after the other (`Json.rank`).
-/


namespace ScopedDocs

/-- The order of numbers. Two integers of 64 bits with a sign are compared
exactly, any other two numbers as doubles. -/
def Number.compare (a b : Number) : Ordering :=
  match a.toSigned?, b.toSigned? with
  | some m, some n => Ord.compare m n
  | _, _ => a.toDouble.compare b.toDouble

/-- The order of texts: of instants if both are, else of their characters. -/
def compareTexts (a b : String) : Ordering :=
  match Instant.ofStrictText? a, Instant.ofStrictText? b with
  | some s, some t => s.compare t
  | _, _ => Ord.compare a b

namespace Json

/-- **The order of two values of one kind.** Values of different kinds, objects
and arrays have none. -/
def compare? : Json → Json → Option Ordering
  | null, null => some .eq
  | bool a, bool b => some (Ord.compare a b)
  | num a, num b => some (a.compare b)
  | str a, str b => some (compareTexts a b)
  | _, _ => none

/-- Whether a value is an array or an object. -/
def isCompound : Json → Bool
  | arr _ => true
  | obj _ => true
  | _ => false

/-- **Equality in filters.** Compound values have to be the same, others to
compare as equal. -/
def matchesValue (a b : Json) : Bool :=
  if a.isCompound || b.isCompound then a.same b else a.compare? b == some .eq

/-- The place of a kind of values in sorting. A missing value counts as
`null`. -/
def rank : Option Json → Nat
  | none => 0
  | some null => 0
  | some (num _) => 1
  | some (str _) => 2
  | some (obj _) => 3
  | some (arr _) => 4
  | some (bool _) => 5

/-- **The order of sorting** of two values that may be missing. -/
def sortOrder (a b : Option Json) : Ordering :=
  match a, b with
  | some x, some y =>
    if rank a = rank b then (x.compare? y).getD .eq else Ord.compare (rank a) (rank b)
  | _, _ => Ord.compare (rank a) (rank b)

end Json

end ScopedDocs

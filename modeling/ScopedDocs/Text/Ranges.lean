/-!
# Text — sets of characters

A set of characters is written as runs of code points, each from a first to a last
one. Runs in any order, which may overlap, are put in ascending order with a gap
between any two of them (`Ranges.ordered`), and what lies in the gaps is the set of
all other characters (`Ranges.others`).
-/


namespace ScopedDocs

/-- A set of characters, in runs from a first to a last one. -/
abbrev Ranges := List (Nat × Nat)

namespace Ranges

/-- Whether a character belongs to a set. -/
def has (runs : Ranges) (c : Char) : Bool :=
  runs.any fun (first, last) => first ≤ c.toNat && c.toNat ≤ last

/-- A run among others, before the first that starts later. -/
def insertRun (run : Nat × Nat) : Ranges → Ranges
  | [] => [run]
  | other :: rest => if run.1 ≤ other.1 then run :: other :: rest else other :: insertRun run rest

/-- Ascending runs, where those that touch the one before are joined to it. -/
def joined (run : Nat × Nat) : Ranges → Ranges
  | [] => [run]
  | next :: rest =>
    if next.1 ≤ run.2 + 1 then joined (run.1, max run.2 next.2) rest else run :: joined next rest

/-- The runs of a set in ascending order, no two of which touch. -/
def ordered (runs : Ranges) : Ranges :=
  match runs.foldr insertRun [] with
  | [] => []
  | run :: rest => joined run rest

/-- The last code point. -/
def lastPoint : Nat := 0x10FFFF

/-- What ascending runs leave out, from a code point on. -/
def gapsFrom (start : Nat) : Ranges → Ranges
  | [] => if start ≤ lastPoint then [(start, lastPoint)] else []
  | (first, last) :: rest =>
    (if start < first then [(start, first - 1)] else []) ++ gapsFrom (last + 1) rest

/-- The characters that are not in a set. -/
def others (runs : Ranges) : Ranges := gapsFrom 0 runs.ordered

end Ranges

end ScopedDocs

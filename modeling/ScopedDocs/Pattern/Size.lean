import ScopedDocs.Pattern.Search
/-!
# Patterns — their size

A pattern is compiled to an automaton that reads bytes, and to a second one that reads
them from the end to the start; neither may take more than `maxSize` bytes. A place for
a character takes room for the runs of bytes that write its characters
(`Class.bytes`): from the start, places with the same continuation are shared
(`forwardSize`), and from the end those with the same start (`backwardSize`). So a
pattern can be too large for its counts, and also for its length
(`Pattern.isOversized`).

The room of a text, alone or with an anchor, is what the automata take. For patterns with
other parts it is an estimate from above: a compiler may know shorter ways to write
alternatives, and takes less room for `*` and for counts with two bounds.
-/


namespace ScopedDocs

namespace Pattern

/-! ## Characters as bytes -/

/-- The bytes at one place, from a first to a last one. -/
abbrev ByteRun := Nat × Nat

/-- The runs of bytes for the code points from `first` to `last`, where `rest` bytes follow
the first one, which carries a mark of its own. Between the first and the last leading
byte, all continuations are there. -/
def byteRuns (mark : Nat) : Nat → Nat → Nat → List (List ByteRun)
  | 0, first, last => [[(mark + first, mark + last)]]
  | rest + 1, first, last =>
    let unit := Nat.pow 64 (rest + 1)
    let lead (n : Nat) : ByteRun := (mark + n / unit, mark + n / unit)
    if first / unit = last / unit then
      (byteRuns 0x80 rest (first % unit) (last % unit)).map (lead first :: ·)
    else
      let front := first % unit ≠ 0
      let back := last % unit ≠ unit - 1
      let least := if front then first / unit + 1 else first / unit
      let most := if back then last / unit else last / unit + 1
      (if front then (byteRuns 0x80 rest (first % unit) (unit - 1)).map (lead first :: ·)
        else []) ++
        (if least < most then
          [(mark + least, mark + (most - 1)) :: List.replicate (rest + 1) (0x80, 0xBF)]
        else []) ++
        (if back then (byteRuns 0x80 rest 0 (last % unit)).map (lead last :: ·) else [])

/-- The code points that are written with one length: the first and the last one, the mark
of the leading byte, and the number of bytes behind it. Surrogates are left out. -/
def encodings : List (Nat × Nat × Nat × Nat) :=
  [(0, 0x7F, 0, 0), (0x80, 0x7FF, 0xC0, 1), (0x800, 0xD7FF, 0xE0, 2), (0xE000, 0xFFFF, 0xE0, 2),
    (0x10000, Ranges.lastPoint, 0xF0, 3)]

/-- The runs of bytes that write the characters of a set, in ascending order. -/
def bytesOf (runs : Ranges) : List (List ByteRun) :=
  runs.flatMap fun (first, last) =>
    encodings.flatMap fun (least, most, mark, rest) =>
      if max first least ≤ min last most then byteRuns mark rest (max first least) (min last most)
      else []

/-- What may stand first. -/
def heads (bytes : List (List ByteRun)) : List ByteRun := (bytes.filterMap List.head?).eraseDups

/-- What may follow a first run. -/
def behind (bytes : List (List ByteRun)) (run : ByteRun) : List (List ByteRun) :=
  bytes.filterMap fun
    | first :: rest => if first = run then some rest else none
    | [] => none

/-- The states that read some bytes, each told by what it may still read. -/
def states : Nat → List (List ByteRun) → List (List (List ByteRun))
  | 0, _ => []
  | depth + 1, bytes =>
    bytes :: ((heads bytes).map (behind bytes)).flatMap fun next =>
      if next = [[]] then [] else states depth next

/-- The room of a state, in bytes. -/
def stateSize : Nat := 32

/-- The room of the states that read bytes from the start. -/
def forwardSize (bytes : List (List ByteRun)) : Nat :=
  (states 4 bytes).eraseDups.foldl
    (fun room next => room + stateSize + 8 * (heads next).length) stateSize

/-- The room of the states that read bytes from the end. -/
def backwardSize (bytes : List (List ByteRun)) : Nat :=
  let starts := bytes.flatMap fun runs => (List.range runs.length).map fun i => runs.take (i + 1)
  2 * stateSize + 4 * bytes.length + stateSize * starts.eraseDups.length

/-! ## Patterns -/

/-- The room of a place for a character, in bytes. A character without variants takes a
state for each of its bytes, and a set of ASCII a single table. -/
def Class.size (ignoreCase back : Bool) (kind : Class) : Nat :=
  let runs := kind.runs ignoreCase
  match runs with
  | [] => stateSize
  | [(first, last)] =>
    if first = last then stateSize * (Char.ofNat first).utf8Size else spread runs
  | runs => spread runs
where
  /-- The room of a set with more than one character. -/
  spread (runs : Ranges) : Nat :=
    if runs.all fun run => run.2 ≤ 0x7F then 2 * stateSize + 8 * runs.length
    else if back then backwardSize (bytesOf runs)
    else forwardSize (bytesOf runs)

/-- The room of a pattern, in bytes. Only from the start it is kept where groups are. -/
def size (ignoreCase back : Bool) : Pattern → Nat
  | empty => 0
  | one kind => kind.size ignoreCase back
  | start => stateSize
  | finish => stateSize
  | group p => p.size ignoreCase back + if back then 0 else 2 * stateSize
  | seq p q => p.size ignoreCase back + q.size ignoreCase back
  | alt p q => p.size ignoreCase back + q.size ignoreCase back + (2 * stateSize + 8)
  | plus p => p.size ignoreCase back + (stateSize + 8)
  | times p n => n * p.size ignoreCase back

/-- Whether every match starts at the start of the text, as far as the first part tells. -/
def isAnchoredFront : Pattern → Bool
  | empty => false
  | one _ => false
  | start => true
  | finish => false
  | group p => p.isAnchoredFront
  | seq p q => p.isAnchoredFront || (p.isBlank && q.isAnchoredFront)
  | alt p q => p.isAnchoredFront && q.isAnchoredFront
  | plus p => p.isAnchoredFront
  | times p n => n != 0 && p.isAnchoredFront

/-- Whether every match ends at the end of the text, as far as the last part tells. -/
def isAnchoredBack : Pattern → Bool
  | empty => false
  | one _ => false
  | start => false
  | finish => true
  | group p => p.isAnchoredBack
  | seq p q => q.isAnchoredBack || (q.isBlank && p.isAnchoredBack)
  | alt p q => p.isAnchoredBack && q.isAnchoredBack
  | plus p => p.isAnchoredBack
  | times p n => n != 0 && p.isAnchoredBack

/-- The room a whole pattern takes beside its parts, in bytes. A match that is not anchored
may begin behind anything. -/
def overhead (multiline back : Bool) (p : Pattern) : Nat :=
  let anchored := !multiline && if back then p.isAnchoredBack else p.isAnchoredFront
  (if anchored then stateSize else 3 * stateSize + 16) + if back then stateSize else 3 * stateSize

/-- The room there is for a pattern, in bytes. -/
def maxSize : Nat := 10485760

/-- **Too large.** Whether a pattern takes more room than there is, read from the start or
from the end. -/
def isOversized (mode : Mode) (p : Pattern) : Bool :=
  [false, true].any fun back =>
    maxSize < p.size mode.ignoreCase back + p.overhead mode.multiline back

end Pattern

end ScopedDocs

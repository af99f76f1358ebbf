import ScopedDocs.Pattern.Basic
/-!
# Patterns — searching a text

A text is read once, character by character, by a pattern that carries marks.
A mark on a place for a character says that some match so far has just read its
last character there (`Marked.read` moves the marks on). What a pattern does
between two characters is its `Border`: whether it matches the empty text there,
and whether a match ends there because a mark can reach the end of the pattern
without a further character. A pattern occurs in a text when either holds
anywhere (`Pattern.occurs`).

Parts without a mark stay plain patterns (`Marked.idle`), and a count is written
out only as far as marks have come. So a character costs no more than the part
of the pattern that marks have reached.
-/


namespace ScopedDocs

namespace Pattern

/-- How patterns are matched. -/
structure Mode where
  /-- Whether case variants match each other. -/
  ignoreCase : Bool
  /-- Whether the anchors match at the ends of lines too. -/
  multiline : Bool

/-- What stands on either side of a spot of a text. -/
structure Spot where
  /-- The character before it, unless it is the start of the text. -/
  before : Option Char
  /-- The character after it, unless it is the end of the text. -/
  after : Option Char
  deriving DecidableEq

namespace Spot

/-- Whether the anchor of the start matches here. -/
def atStart (mode : Mode) (s : Spot) : Bool :=
  match s.before with
  | none => true
  | some c => mode.multiline && c == '\n'

/-- Whether the anchor of the end matches here. -/
def atEnd (mode : Mode) (s : Spot) : Bool :=
  match s.after with
  | none => true
  | some c => mode.multiline && c == '\n'

end Spot

/-- Whether a character belongs to a class. -/
def Class.admits : Class → Char → Bool
  | only c, d => c == d
  | any, d => d != '\n'
  | digit, d => isDecimalDigit d
  | among negated runs, d => negated != runs.has d

/-- A class with its characters folded. -/
def Class.fold : Class → Class
  | only c => only (simpleFold c)
  | any => any
  | digit => digit
  | among negated runs => among negated runs.foldings

/-- A pattern with all its characters folded. -/
def fold : Pattern → Pattern
  | empty => empty
  | one kind => one kind.fold
  | start => start
  | finish => finish
  | group p => group p.fold
  | seq p q => seq p.fold q.fold
  | alt p q => alt p.fold q.fold
  | plus p => plus p.fold
  | times p n => times p.fold n

/-- Whether a pattern matches the empty text at a spot. -/
def skips (mode : Mode) (spot : Spot) : Pattern → Bool
  | empty => true
  | one _ => false
  | start => spot.atStart mode
  | finish => spot.atEnd mode
  | group p => p.skips mode spot
  | seq p q => p.skips mode spot && q.skips mode spot
  | alt p q => p.skips mode spot || q.skips mode spot
  | plus p => p.skips mode spot
  | times p n => n == 0 || p.skips mode spot

/-- A pattern that is being matched. -/
inductive Marked where
  /-- A pattern without a mark. -/
  | idle (p : Pattern)
  /-- A place for a character of a class, with a mark. -/
  | here (kind : Class)
  /-- Matches one pattern and then another. -/
  | seq (first second : Marked)
  /-- Matches one pattern or another. -/
  | alt (left right : Marked)
  /-- Matches a pattern at least once. -/
  | plus (body : Marked)
  deriving DecidableEq, Inhabited

/-- What a pattern that is being matched does at a spot. -/
structure Border where
  /-- Whether the pattern matches the empty text at the spot. -/
  skips : Bool
  /-- Whether a match that has read a character ends at the spot. -/
  ends : Bool
  deriving DecidableEq

namespace Marked

/-- Whether there is no mark. -/
def isIdle : Marked → Bool
  | idle _ => true
  | _ => false

/-- A place for a character, with a mark or without. -/
def place (kind : Class) (mark : Bool) : Marked :=
  if mark then here kind else idle (.one kind)

/-- One pattern and then another. -/
def followedBy : Marked → Marked → Marked
  | idle p, idle q => idle (.seq p q)
  | m, n => seq m n

/-- One pattern or another. -/
def orElse : Marked → Marked → Marked
  | idle p, idle q => idle (.alt p q)
  | m, n => alt m n

/-- A pattern at least once. -/
def repeated : Marked → Marked
  | idle p => idle (.plus p)
  | m => plus m

/-- A number of copies of a pattern, of which the first is being matched. If the
pattern can be skipped, so are the others. -/
def copies (p : Pattern) (m : Marked) (skipped : Bool) : Nat → Marked
  | 0 => idle .empty
  | n + 1 => followedBy m (if skipped then copies p m skipped n else idle (.times p n))

/-- The marks of a pattern where matches begin at a spot, after the character
behind it. -/
def enter (mode : Mode) (spot : Spot) (c : Char) : Pattern → Marked
  | .empty => idle .empty
  | .one kind => place kind (kind.admits c)
  | .start => idle .start
  | .finish => idle .finish
  | .group p => enter mode spot c p
  | .seq p q =>
    followedBy (enter mode spot c p) (if p.skips mode spot then enter mode spot c q else idle q)
  | .alt p q => orElse (enter mode spot c p) (enter mode spot c q)
  | .plus p => repeated (enter mode spot c p)
  | .times p n =>
    let m := enter mode spot c p
    if m.isIdle then idle (.times p n) else copies p m (p.skips mode spot) n

/-- What the pattern does at a spot. -/
def border (mode : Mode) (spot : Spot) : Marked → Border
  | idle p => ⟨p.skips mode spot, false⟩
  | here _ => ⟨false, true⟩
  | seq m n =>
    let first := m.border mode spot
    let second := n.border mode spot
    ⟨first.skips && second.skips, second.ends || (first.ends && second.skips)⟩
  | alt m n =>
    let left := m.border mode spot
    let right := n.border mode spot
    ⟨left.skips || right.skips, left.ends || right.ends⟩
  | plus m => m.border mode spot

/-- The marks after one more character, which stands behind a spot. Matches
begin at the spot if `begins`. What follows a pattern begins where that pattern
ends, and a repetition begins anew where its body ends. -/
def read (mode : Mode) (spot : Spot) (c : Char) (begins : Bool) : Marked → Marked
  | idle p => if begins then enter mode spot c p else idle p
  | here kind => place kind (begins && kind.admits c)
  | seq m n =>
    let first := m.border mode spot
    followedBy (m.read mode spot c begins)
      (n.read mode spot c (first.ends || (begins && first.skips)))
  | alt m n => orElse (m.read mode spot c begins) (n.read mode spot c begins)
  | plus m => repeated (m.read mode spot c (begins || (m.border mode spot).ends))

/-- Whether a match ends at a spot or behind it, where matches may begin at
every spot. The text is given by the character before the spot and the rest. -/
def finds (mode : Mode) (before : Option Char) : Marked → List Char → Bool
  | m, [] =>
    let last := m.border mode ⟨before, none⟩
    last.skips || last.ends
  | m, c :: rest =>
    let spot : Spot := ⟨before, some c⟩
    let next := m.border mode spot
    next.skips || next.ends || finds mode (some c) (m.read mode spot c true) rest

end Marked

/-- **Searching.** Whether a match of the pattern lies anywhere in a text. Where
case variants match each other, both are folded first. Line feeds and digits fold
to themselves, and nothing else folds to them. -/
def occurs (mode : Mode) (p : Pattern) (text : String) : Bool :=
  if mode.ignoreCase then (Marked.idle p.fold).finds mode none (text.toList.map simpleFold)
  else (Marked.idle p).finds mode none text.toList

end Pattern

end ScopedDocs

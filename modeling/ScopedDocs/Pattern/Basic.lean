import ScopedDocs.Text.CaseFold
import ScopedDocs.Text.Digit
/-!
# Patterns — syntax trees and literals

A pattern is built from classes of characters and anchors by sequence,
alternative and repetition. `Pattern.escape` writes a text as the pattern of
its characters, and `Pattern.literal` is that pattern.
-/


namespace ScopedDocs

/-- A class of characters. -/
inductive Pattern.Class where
  /-- One character. -/
  | only (c : Char)
  /-- Every character but a line feed. -/
  | any
  /-- Every decimal digit. -/
  | digit
  /-- Every character of a set or, of a negated one, every other character. -/
  | among (negated : Bool) (runs : Ranges)
  deriving DecidableEq, Inhabited

/-- A pattern. -/
inductive Pattern where
  /-- Matches the empty text. -/
  | empty
  /-- Matches one character of a class. -/
  | one (kind : Pattern.Class)
  /-- Matches at the start, of the text or of a line. -/
  | start
  /-- Matches at the end, of the text or of a line. -/
  | finish
  /-- Matches what the pattern in its brackets matches. -/
  | group (body : Pattern)
  /-- Matches one pattern and then another. -/
  | seq (first second : Pattern)
  /-- Matches one pattern or another. -/
  | alt (left right : Pattern)
  /-- Matches a pattern at least once. -/
  | plus (body : Pattern)
  /-- Matches a pattern a given number of times. -/
  | times (body : Pattern) (count : Nat)
  deriving DecidableEq, Inhabited

namespace Pattern

/-- The characters of a class. Where case variants match each other, a set is closed
before it is negated. -/
def Class.runs (ignoreCase : Bool) : Class → Ranges
  | only c =>
    let runs : Ranges := [(c.toNat, c.toNat)]
    if ignoreCase then runs.closed.ordered else runs
  | any => Ranges.others [('\n'.toNat, '\n'.toNat)]
  | digit => digitRanges.ordered
  | among negated runs =>
    let runs := if ignoreCase then runs.closed else runs
    if negated then runs.others else runs.ordered

/-- A pattern, or nothing. -/
def optional (p : Pattern) : Pattern := alt p empty

/-- A pattern, any number of times. -/
def star (p : Pattern) : Pattern := optional (plus p)

/-- Whether a pattern reads no character, whatever text it is matched with. -/
def isBlank : Pattern → Bool
  | empty => true
  | one _ => false
  | start => true
  | finish => true
  | group p => p.isBlank
  | seq p q => p.isBlank && q.isBlank
  | alt p q => p.isBlank && q.isBlank
  | plus p => p.isBlank
  | times p n => n == 0 || p.isBlank

/-- A pattern, a number of times. Where it reads nothing, once is as good as any
greater number of times. -/
def repeated (p : Pattern) (n : Nat) : Pattern := times p (if p.isBlank then min n 1 else n)

/-- A pattern, at least a given number of times. -/
def atLeast (p : Pattern) : Nat → Pattern
  | 0 => star p
  | 1 => plus p
  | n + 1 => seq (repeated p n) (plus p)

/-- A pattern, a least number of times and up to a number more. -/
def between (p : Pattern) (least more : Nat) : Pattern :=
  seq (repeated p least) (repeated (optional p) more)

/-- The pattern that matches one character only. -/
def char (c : Char) : Pattern := one (.only c)

/-- The pattern of a text: its characters, one after the other. -/
def literal : List Char → Pattern
  | [] => empty
  | c :: cs => seq (char c) (literal cs)

/-- The characters with a meaning of their own in patterns. -/
def metaCharacters : List Char :=
  ['\\', '.', '+', '*', '?', '(', ')', '|', '[', ']', '\x7b', '\x7d', '^', '$', '#', '&', '-', '~']

/-- A text with a backslash before each character that has a meaning of its
own. -/
def escapeChars (cs : List Char) : List Char :=
  cs.flatMap fun c => if metaCharacters.contains c then ['\\', c] else [c]

/-- **Escaping.** The text of the pattern that matches a text literally. -/
def escape (s : String) : String := String.ofList (escapeChars s.toList)

end Pattern

end ScopedDocs

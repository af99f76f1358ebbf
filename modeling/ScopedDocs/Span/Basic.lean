import ScopedDocs.Text.Digits
/-!
# Spans — lengths of time

A span is a number of whole seconds and of nanoseconds. `Span.millis` is its
length in whole milliseconds, the unit in which documents store lengths of
time.
-/


namespace ScopedDocs

/-- A length of time. -/
structure Span where
  /-- Whole seconds. -/
  seconds : Nat
  /-- Nanoseconds into the next second. -/
  nanos : Nat
  /-- The seconds fit a word of 64 bits. -/
  seconds_lt : seconds < UInt64.size := by decide
  /-- The nanoseconds do not fill a second. -/
  nanos_lt : nanos < 1000000000 := by decide
  deriving DecidableEq

namespace Span

/-- Nanoseconds in a second. -/
def nanosPerSecond : Nat := 1000000000

/-- The span of seconds and any number of nanoseconds, if its seconds fit a
word. -/
def of? (seconds nanos : Nat) : Option Span :=
  if h : seconds + nanos / nanosPerSecond < UInt64.size then
    some ⟨seconds + nanos / nanosPerSecond, nanos % nanosPerSecond, h, Nat.mod_lt _ (by decide)⟩
  else none

/-- No time. -/
def zero : Span := { seconds := 0, nanos := 0 }

instance : Inhabited Span := ⟨zero⟩

/-- Whether the span is no time. -/
def isZero (s : Span) : Bool := s.seconds == 0 && s.nanos == 0

/-- The length in nanoseconds. -/
def length (s : Span) : Nat := s.seconds * nanosPerSecond + s.nanos

/-- The span, longer by seconds and any number of nanoseconds. The nanoseconds
have to fit a word before they carry, the seconds afterwards. -/
def extend? (s : Span) (seconds nanos : Nat) : Option Span :=
  if s.nanos + nanos < UInt64.size then of? (s.seconds + seconds) (s.nanos + nanos) else none

/-- **Whole milliseconds**, the rest dropped, and no more than a word holds. -/
def millis (s : Span) : Nat :=
  min (s.seconds * 1000 + s.nanos / 1000000) (UInt64.size - 1)

/-- A number with a fraction of `width` digits, without the zeros at its end. -/
def decimalText (whole width fraction : Nat) : List Char :=
  let digits := ((decimalDigits width fraction).reverse.dropWhile (· == '0')).reverse
  whole.repr.toList ++ (if digits.isEmpty then [] else '.' :: digits)

/-- The text of a span in the largest unit, up to seconds, of which it has one. -/
def text (s : Span) : String :=
  String.ofList <|
    if 0 < s.seconds then decimalText s.seconds 9 s.nanos ++ ['s']
    else if 1000000 ≤ s.nanos then
      decimalText (s.nanos / 1000000) 6 (s.nanos % 1000000) ++ ['m', 's']
    else if 1000 ≤ s.nanos then decimalText (s.nanos / 1000) 3 (s.nanos % 1000) ++ ['µ', 's']
    else decimalText s.nanos 0 0 ++ ['n', 's']

end Span

end ScopedDocs

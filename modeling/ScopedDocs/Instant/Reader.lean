import ScopedDocs.Instant.Basic
import ScopedDocs.Text.Blank
/-!
# Instants — reading text

Two forms of one text. The strict form (`Instant.ofStrictText?`) has a fixed
number of digits in each part; the lenient form (`Instant.ofText?`) allows
short parts, signed years, an offset without its colon, and blanks between the
parts. Both yield the instant of the clock reading they hold
(`ClockReading.toInstant?`).
-/


namespace ScopedDocs

/-- What a clock and a calendar show somewhere. -/
structure ClockReading where
  /-- The date. -/
  date : Date
  /-- The hour of the day. -/
  hour : Nat
  /-- The minute of the hour. -/
  minute : Nat
  /-- The second of the minute; 60 is a leap second. -/
  second : Nat
  /-- Nanoseconds into the second. -/
  nanos : Nat
  /-- How many seconds the clock is ahead of universal time. -/
  offset : Int

namespace ClockReading

/-- Whether the date and the time of day exist, in the years that instants
reach. -/
def isReal (r : ClockReading) : Bool :=
  Instant.firstYear ≤ r.date.year && r.date.year ≤ Instant.lastYear && r.date.isReal &&
    r.hour < 24 && r.minute < 60 && r.second ≤ 60 && r.offset.natAbs < 86400

/-- Whole seconds of universal time. A leap second counts as the one before. -/
def seconds (r : ClockReading) : Int :=
  Instant.secondsPerDay * r.date.toDay + (3600 * r.hour + 60 * r.minute + min r.second 59 : Nat) -
    r.offset

/-- **The instant of a reading**, if its date and time exist and the instant is
in reach. -/
def toInstant? (r : ClockReading) : Option Instant :=
  let nanos := if r.second = 60 then r.nanos + Instant.nanosPerSecond else r.nanos
  if r.isReal then
    if h : Instant.IsPoint r.seconds nanos then some ⟨r.seconds, nanos, h⟩ else none
  else none

end ClockReading

namespace Instant

namespace Reader

/-- A number of at least `least` and at most `most` digits, and the rest. -/
def number? (least most : Nat) (cs : List Char) : Option (Nat × List Char) :=
  let run := (cs.take most).takeWhile Char.isDigit
  if run.length < least then none else some (decimalValue run, cs.drop run.length)

/-- The text behind a character that has to come first. -/
def expect? (c : Char) : List Char → Option (List Char)
  | d :: rest => if d = c then some rest else none
  | [] => none

/-- The text behind the mark between a date and a time. -/
def separator? : List Char → Option (List Char)
  | c :: rest => if c = 'T' || c = 't' || c = ' ' then some rest else none
  | [] => none

/-- The nanoseconds of a fraction of a second, if there is one, and the rest.
Digits behind the ninth do not count. -/
def fraction? : List Char → Option (Nat × List Char)
  | '.' :: rest =>
    let run := rest.takeWhile Char.isDigit
    let kept := run.take 9
    if run.isEmpty then none
    else some (decimalValue kept * Nat.pow 10 (9 - kept.length), rest.drop run.length)
  | cs => some (0, cs)

/-- The sign of an offset, and the rest. -/
def sign? : List Char → Option (Int × List Char)
  | c :: rest =>
    if c = '+' then some (1, rest) else if c = '-' || c = '−' then some (-1, rest) else none
  | [] => none

/-- The seconds of an offset from universal time, and the rest. What stands
between hours and minutes is left to `between`. -/
def offset? (between : List Char → Option (List Char)) : List Char → Option (Int × List Char)
  | [] => none
  | c :: rest =>
    if c = 'Z' || c = 'z' then some (0, rest)
    else do
      let (sign, rest) ← sign? (c :: rest)
      let (hours, rest) ← number? 2 2 rest
      let rest ← between rest
      let (minutes, rest) ← number? 2 2 rest
      if minutes < 60 then some (sign * (3600 * hours + 60 * minutes : Nat), rest) else none

/-- A year, with any number of digits behind a sign and up to four without, and
the rest. -/
def year? : List Char → Option (Int × List Char)
  | '-' :: rest => (number? 1 rest.length rest).map fun (n, rest) => (-(n : Int), rest)
  | '+' :: rest => (number? 1 rest.length rest).map fun (n, rest) => ((n : Int), rest)
  | cs => (number? 1 4 cs).map fun (n, rest) => ((n : Int), rest)

/-- A number of one or two digits behind blanks, and the rest behind blanks. -/
def part? (cs : List Char) : Option (Nat × List Char) :=
  (number? 1 2 (skipBlanks cs)).map fun (n, rest) => (n, skipBlanks rest)

/-- An offset in the lenient form: its colon may be missing, and the name of
universal time may stand for it. -/
def lenientOffset? (cs : List Char) : Option (Int × List Char) :=
  if (cs.take 3).map Char.toUpper = ['U', 'T', 'C'] then some (0, cs.drop 3)
  else offset? (fun cs => some (cs.dropWhile fun c => c = ':' || isBlank c)) cs

/-- A reading in the lenient form, and the rest. -/
def lenient? (cs : List Char) : Option (ClockReading × List Char) := do
  let (year, cs) ← year? (skipBlanks cs)
  let cs ← expect? '-' (skipBlanks cs)
  let (month, cs) ← part? cs
  let cs ← expect? '-' cs
  let (day, cs) ← number? 1 2 (skipBlanks cs)
  let cs ← separator? cs
  let (hour, cs) ← part? cs
  let cs ← expect? ':' cs
  let (minute, cs) ← part? cs
  let cs ← expect? ':' cs
  let (second, cs) ← number? 1 2 (skipBlanks cs)
  let (nanos, cs) ← fraction? cs
  let (offset, cs) ← lenientOffset? (skipBlanks cs)
  some (⟨⟨year, month, day⟩, hour, minute, second, nanos, offset⟩, cs)

/-- A reading in the strict form, and the rest. -/
def strict? (cs : List Char) : Option (ClockReading × List Char) := do
  let (year, cs) ← number? 4 4 cs
  let cs ← expect? '-' cs
  let (month, cs) ← number? 2 2 cs
  let cs ← expect? '-' cs
  let (day, cs) ← number? 2 2 cs
  let cs ← separator? cs
  let (hour, cs) ← number? 2 2 cs
  let cs ← expect? ':' cs
  let (minute, cs) ← number? 2 2 cs
  let cs ← expect? ':' cs
  let (second, cs) ← number? 2 2 cs
  let (nanos, cs) ← fraction? cs
  let (offset, cs) ← offset? (expect? ':') cs
  some (⟨⟨year, month, day⟩, hour, minute, second, nanos, offset⟩, cs)

end Reader

/-- **Reading, leniently.** The instant a text holds in the lenient form. -/
def ofText? (s : String) : Option Instant := do
  let (reading, rest) ← Reader.lenient? s.toList
  if (skipBlanks rest).isEmpty then reading.toInstant? else none

/-- **Reading, strictly.** The instant a text holds in the strict form. -/
def ofStrictText? (s : String) : Option Instant := do
  let (reading, rest) ← Reader.strict? s.toList
  if rest.isEmpty then reading.toInstant? else none

end Instant

end ScopedDocs

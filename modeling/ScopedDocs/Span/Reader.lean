import ScopedDocs.Span.Basic
import ScopedDocs.Text.Blank
/-!
# Spans — reading text

Spans as people write them: one or more numbers, each with its unit and
possibly a fraction, as in `1h 30m` or `1.5s`. Blanks may stand anywhere but
inside a unit. `Span.ofText?` adds them up.
-/


namespace ScopedDocs

namespace Span

/-- What the fractions of a unit are counted in, and how many of it make up the
unit. -/
inductive Grain where
  /-- Fractions are whole nanoseconds. -/
  | nanos (size : Nat)
  /-- Fractions are whole seconds. -/
  | seconds (size : Nat)

/-- A unit of time. -/
structure TimeUnit where
  /-- The seconds of the unit. -/
  seconds : Nat
  /-- The nanoseconds of the unit, beside its seconds. -/
  nanos : Nat
  /-- What its fractions are counted in, if it has any. -/
  grain : Option Grain

namespace TimeUnit

/-- A unit of so many nanoseconds, below a second. -/
def ofNanos (n : Nat) : TimeUnit := ⟨0, n, some (.nanos n)⟩

/-- A unit of so many seconds, whose fractions are whole nanoseconds. -/
def ofFineSeconds (n : Nat) : TimeUnit := ⟨n, 0, some (.nanos (n * nanosPerSecond))⟩

/-- A unit of so many seconds, whose fractions are whole seconds. -/
def ofSeconds (n : Nat) : TimeUnit := ⟨n, 0, some (.seconds n)⟩

/-- The unit of a name. Names tell lower from upper case. -/
def ofName? (name : String) : Option TimeUnit :=
  if ["nanos", "nsec", "ns"].contains name then some ⟨0, 1, none⟩
  else if ["usec", "us", "µs"].contains name then some (ofNanos 1000)
  else if ["millis", "msec", "ms"].contains name then some (ofNanos 1000000)
  else if ["seconds", "second", "secs", "sec", "s"].contains name then some (ofFineSeconds 1)
  else if ["minutes", "minute", "min", "mins", "m"].contains name then some (ofFineSeconds 60)
  else if ["hours", "hour", "hr", "hrs", "h"].contains name then some (ofSeconds 3600)
  else if ["days", "day", "d"].contains name then some (ofSeconds 86400)
  else if ["weeks", "week", "wk", "wks", "w"].contains name then some (ofSeconds 604800)
  else if ["months", "month", "M"].contains name then some (ofSeconds 2630016)
  else if ["years", "year", "yr", "yrs", "y"].contains name then some (ofSeconds 31557600)
  else none

/-- A natural number, if it fits a word of 64 bits. -/
def word? (n : Nat) : Option Nat := if n < UInt64.size then some n else none

/-- A span, longer by so many of the unit. -/
def extend? (u : TimeUnit) (count : Nat) (s : Span) : Option Span := do
  s.extend? (← word? (count * u.seconds)) (← word? (count * u.nanos))

/-- So many of a size, over `10 ^ places`, if the quotient is a whole number. -/
def quotient? (size digits places : Nat) : Option Nat := do
  let product ← word? (digits * size)
  if product % Nat.pow 10 places = 0 then some (product / Nat.pow 10 places) else none

/-- A span, longer by the part `digits / 10 ^ places` of the unit, if that is a
whole number of what its fractions are counted in. -/
def extendByPart? (u : TimeUnit) (digits places : Nat) (s : Span) : Option Span :=
  match u.grain with
  | none => none
  | some (.nanos size) => do s.extend? 0 (← quotient? size digits places)
  | some (.seconds size) => do s.extend? (← quotient? size digits places) 0

end TimeUnit

namespace Reader

/-- Whether a character may stand in the name of a unit. -/
def isUnitChar (c : Char) : Bool := c.isAlpha || c = 'µ'

/-- One number with its unit: the digits before and after the point, the name,
and the rest. Blanks may stand between the digits, and a blank may end the
name. -/
def term? (cs : List Char) : Option (List Char × Option (List Char) × String × List Char) := do
  let inNumber (c : Char) : Bool := c.isDigit || isBlank c
  let whole := (cs.takeWhile inNumber).filter Char.isDigit
  let rest := cs.dropWhile inNumber
  let (fraction, rest) ← match rest with
    | '.' :: rest =>
      let digits := (rest.takeWhile inNumber).filter Char.isDigit
      if digits.isEmpty then none else some (some digits, rest.dropWhile inNumber)
    | rest => some (none, rest)
  let name := rest.takeWhile isUnitChar
  let rest := rest.dropWhile isUnitChar
  if whole.isEmpty || name.isEmpty then none
  else some (whole, fraction, String.ofList name, rest)

/-- A span, longer by a term. A fraction has fewer than twenty digits. -/
def extend? (whole : List Char) (fraction : Option (List Char)) (name : String) (sum : Span) :
    Option Span := do
  let u ← TimeUnit.ofName? name
  let sum ← u.extend? (← TimeUnit.word? (decimalValue whole)) sum
  match fraction with
  | none => some sum
  | some digits =>
    if digits.length < 20 then u.extendByPart? (decimalValue digits) digits.length sum else none

/-- Adds up the terms of a text. -/
def terms? : Nat → Span → List Char → Option Span
  | 0, _, _ => none
  | fuel + 1, sum, cs => do
    let (whole, fraction, name, rest) ← term? cs
    let sum ← extend? whole fraction name sum
    match rest with
    | [] => some sum
    | c :: _ =>
      if c.isDigit then terms? fuel sum rest
      else if isBlank c then
        match skipBlanks rest with
        | [] => some sum
        | d :: rest => if d.isDigit then terms? fuel sum (d :: rest) else none
      else none

end Reader

/-- **Reading.** The span a text writes. A lone zero needs no unit. -/
def ofText? (s : String) : Option Span :=
  if s = "0" then some zero
  else
    let cs := skipBlanks s.toList
    Reader.terms? (cs.length + 1) zero cs

end Span

end ScopedDocs

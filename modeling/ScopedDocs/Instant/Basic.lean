import ScopedDocs.Instant.Calendar
import ScopedDocs.Text.Digits
/-!
# Instants — points in time

An instant is a second of universal time and nanoseconds into it. A leap second
is kept as the second before it with a thousand million nanoseconds or more, so
that it stands between that second and the next one. Clocks have leap seconds at
the end of a minute only, but an instant may have one behind any second.
`Instant.text` writes an instant with as few digits of the second as are exact, in
groups of three.
-/


namespace ScopedDocs

namespace Instant

/-- Nanoseconds in a second. -/
def nanosPerSecond : Nat := 1000000000

/-- Seconds in a day. -/
def secondsPerDay : Int := 86400

/-- The first year that instants reach. -/
def firstYear : Int := -262143

/-- The last year that instants reach. -/
def lastYear : Int := 262142

/-- The first second that instants reach, at the start of the first year. -/
def firstSecond : Int := -8334601228800

/-- The last second that instants reach, at the end of the last year. -/
def lastSecond : Int := 8210266876799

/-- What makes seconds and nanoseconds an instant: the second is in reach, and the
nanoseconds are in it or in a leap second behind it. -/
def IsPoint (seconds : Int) (nanos : Nat) : Prop :=
  firstSecond ≤ seconds ∧ seconds ≤ lastSecond ∧ nanos < 2 * nanosPerSecond

instance (seconds : Int) (nanos : Nat) : Decidable (IsPoint seconds nanos) :=
  inferInstanceAs (Decidable (_ ∧ _ ∧ _))

end Instant

/-- A point in time. -/
structure Instant where
  /-- Whole seconds from 1970-01-01T00:00:00Z on. -/
  seconds : Int
  /-- Nanoseconds into the second; from `10⁹` on, into the leap second behind it. -/
  nanos : Nat
  /-- There is such a point in time. -/
  isPoint : Instant.IsPoint seconds nanos := by decide
  deriving DecidableEq

namespace Instant

instance : Inhabited Instant := ⟨⟨0, 0, by decide⟩⟩

/-- The order in time. -/
def compare (a b : Instant) : Ordering :=
  (Ord.compare a.seconds b.seconds).then (Ord.compare a.nanos b.nanos)

/-- The text of a year: four digits, and a sign and at least four digits
outside 0 to 9999. -/
def yearText (year : Int) : List Char :=
  if 0 ≤ year ∧ year ≤ 9999 then paddedDecimal 4 year.natAbs
  else (if year < 0 then '-' else '+') :: paddedDecimal 4 year.natAbs

/-- The text of a fraction of a second: none for zero, else the least of three,
six and nine digits that is exact. -/
def fractionText (nanos : Nat) : List Char :=
  if nanos = 0 then []
  else if nanos % 1000000 = 0 then '.' :: decimalDigits 3 (nanos / 1000000)
  else if nanos % 1000 = 0 then '.' :: decimalDigits 6 (nanos / 1000)
  else '.' :: decimalDigits 9 nanos

/-- The characters of the text of an instant. -/
def chars (t : Instant) : List Char :=
  let date := Date.ofDay (t.seconds / secondsPerDay)
  let clock := (t.seconds % secondsPerDay).toNat
  let second := clock % 60 + t.nanos / nanosPerSecond
  yearText date.year ++ '-' :: decimalDigits 2 date.month ++ '-' :: decimalDigits 2 date.day ++
    'T' :: decimalDigits 2 (clock / 3600) ++ ':' :: decimalDigits 2 (clock / 60 % 60) ++
    ':' :: decimalDigits 2 second ++ fractionText (t.nanos % nanosPerSecond) ++ ['Z']

/-- **Text.** An instant in universal time. -/
def text (t : Instant) : String := String.ofList t.chars

end Instant

end ScopedDocs

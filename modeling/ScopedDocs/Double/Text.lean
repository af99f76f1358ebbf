import ScopedDocs.Double
/-!
# Doubles — the shortest text that reads back

`Double.shortest` takes the coarsest decimal grid that holds a number which
rounds to the double, and of that grid the nearest such number. `Double.text`
lays its digits out: positionally while the point is near the digits
(`firstPlace` to `lastPlace`), and with an exponent beyond.
-/


namespace ScopedDocs

namespace Double

/-- A positive decimal number `0.d₁d₂… × 10 ^ point`. -/
structure Decimal where
  /-- The digits, most significant first. -/
  digits : List Char
  /-- The place of the decimal point, counted from before the first digit. -/
  point : Int
  deriving Inhabited

/-- The magnitude nearest to `m × 10 ^ e`. -/
def nearestUnits (m : Nat) (e : Int) : Nat :=
  if e < 0 then roundUnits (m * one) (Nat.pow 10 e.natAbs)
  else roundUnits (m * Nat.pow 10 e.natAbs * one) 1

/-- The place of the point in the decimal expansion of a positive magnitude:
the least `k` with the value below `10 ^ k`. -/
def pointOf (units : Nat) : Int :=
  ((units * Nat.pow 10 330 / one).repr.length : Int) - 330

/-- The largest number of the grid `10 ^ e` that is not above the magnitude,
and whether it is the nearer one of its two neighbours on the grid. -/
def gridFloor (units : Nat) (e : Int) : Nat × Bool :=
  let (num, den) := if e < 0 then (units * Nat.pow 10 e.natAbs, one)
    else (units, one * Nat.pow 10 e.natAbs)
  let m := num / den
  (m, 2 * (num % den) < den || (2 * (num % den) == den && m % 2 == 0))

/-- The number of the grid `10 ^ e` that reads back as the magnitude and is
nearest to it, if one of its two neighbours there reads back. -/
def onGrid? (units : Nat) (e : Int) : Option Nat :=
  let (m, lower) := gridFloor units e
  let below := nearestUnits m e == units
  let above := nearestUnits (m + 1) e == units
  if below && (lower || !above) then some m else if above then some (m + 1) else none

/-- The first of the next `fuel` grids, from `n` digits on, with a number that
reads back, and that number. -/
def searchGrids (units : Nat) (point : Int) (n : Nat) : Nat → Nat × Int
  | 0 => ((gridFloor units (point - n)).1, point - n)
  | fuel + 1 =>
    match onGrid? units (point - n) with
    | some m => (m, point - n)
    | none => searchGrids units point (n + 1) fuel

/-- **Shortest digits.** The fewest digits that read back as a positive
magnitude, and of those the nearest. Seventeen always suffice. -/
def shortest (units : Nat) : Decimal :=
  let (m, e) := searchGrids units (pointOf units) 1 17
  let written := m.repr.toList
  ⟨(written.reverse.dropWhile (· == '0')).reverse, written.length + e⟩

/-- The least place of the point that is written without an exponent. -/
def firstPlace : Int := -4

/-- The greatest place of the point that is written without an exponent. -/
def lastPlace : Int := 16

/-- Lays out a positive decimal. A whole number keeps one zero after the point,
and a mantissa of one digit has no point. -/
def Decimal.layout (d : Decimal) : List Char :=
  let places := d.point.natAbs
  if 0 < d.point ∧ d.point ≤ lastPlace then
    let padded := d.digits ++ List.replicate (places - d.digits.length) '0'
    let fraction := padded.drop places
    padded.take places ++ '.' :: (if fraction.isEmpty then ['0'] else fraction)
  else if firstPlace ≤ d.point ∧ d.point ≤ 0 then
    '0' :: '.' :: (List.replicate places '0' ++ d.digits)
  else
    let fraction := d.digits.drop 1
    d.digits.take 1 ++ (if fraction.isEmpty then [] else '.' :: fraction) ++
      'e' :: (toString (d.point - 1)).toList

/-- The text of a double. -/
def text (d : Double) : String :=
  let magnitude := if d.units = 0 then "0.0" else String.ofList (shortest d.units).layout
  if d.negative then "-" ++ magnitude else magnitude

end Double

end ScopedDocs

/-!
# Doubles — finite binary floating-point numbers, exactly

A finite double is a sign and a whole number of *units*, the least positive
double `2⁻¹⁰⁷⁴`. Every comparison is then one of integers, and every rounding
is `roundUnits`, which rounds a ratio of naturals to the nearest magnitude with
at most 53 significant bits, ties to the even neighbour (`roundHalfEven`).
-/


namespace ScopedDocs

/-- A finite double: its sign, and its magnitude in units of `2⁻¹⁰⁷⁴`. The two
zeros differ in the sign alone. -/
structure Double where
  /-- Whether the sign is minus. -/
  negative : Bool
  /-- The magnitude, counted in least positive doubles. -/
  units : Nat
  deriving DecidableEq, Inhabited

namespace Double

/-- The number of units in one. -/
def one : Nat := Nat.pow 2 1074

/-- The first magnitude beyond the largest finite double. -/
def bound : Nat := Nat.pow 2 2098

/-- The natural number nearest to `num / den`; a half goes to the even one. -/
def roundHalfEven (num den : Nat) : Nat :=
  let q := num / den
  let twice := 2 * (num % den)
  if twice < den then q else if den < twice then q + 1 else q + q % 2

/-- The spacing of doubles whose magnitude lies between `n` and `n + 1` units:
a power of two that leaves 53 significant bits. -/
def spacing (n : Nat) : Nat := Nat.pow 2 (n.log2 - 52)

/-- **Rounding.** The magnitude, in units, of the double nearest to the ratio
`num / den` of units. -/
def roundUnits (num den : Nat) : Nat :=
  let step := spacing (num / den)
  step * roundHalfEven num (den * step)

/-- The double nearest to an integer. -/
def ofInt (n : Int) : Double :=
  ⟨n < 0, roundUnits (n.natAbs * one) 1⟩

/-- The value as an integer number of units, with its sign. -/
def signedUnits (d : Double) : Int :=
  if d.negative then -(d.units : Int) else d.units

/-- The order of the values; the two zeros are equal. -/
def compare (a b : Double) : Ordering := Ord.compare a.signedUnits b.signedUnits

/-- Whether two doubles have one value; the two zeros do. -/
def same (a b : Double) : Bool := a.signedUnits == b.signedUnits

/-- Whether the value is zero, of either sign. -/
def isZero (d : Double) : Bool := d.units == 0

/-- A power of ten, rounded. -/
def tenPow (n : Nat) : Nat := roundUnits (Nat.pow 10 n * one) 1

/-- Divides a magnitude by `10 ^ n`. The powers beyond the largest double are
divided out first, `10 ^ 308` at a time. -/
def scaleDown (units n : Nat) : Nat :=
  if units = 0 then 0
  else if h : n ≤ 308 then roundUnits (units * one) (tenPow n)
  else scaleDown (roundUnits (units * one) (tenPow 308)) (n - 308)
termination_by n

/-- **Reading.** The double written as a whole number of `digits` times ten to
the `exponent`: both are rounded to doubles, and so is their product or
quotient. A value too large for a double has no reading. -/
def ofDecimal? (negative : Bool) (digits : Nat) (exponent : Int) : Option Double :=
  let mantissa := roundUnits (digits * one) 1
  if exponent < 0 then some ⟨negative, scaleDown mantissa exponent.natAbs⟩
  else if digits = 0 then some ⟨negative, 0⟩
  else if 308 < exponent then none
  else
    let product := roundUnits (mantissa * tenPow exponent.natAbs) one
    if product < bound then some ⟨negative, product⟩ else none

end Double

end ScopedDocs

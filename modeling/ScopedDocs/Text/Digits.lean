/-!
# Text — numbers in digits

Runs of digits and their values: `decimalValue` reads a run of decimal digits,
`fixedDigits` writes the last digits of a number in a base, and
`digitsValue_fixedDigits` says that these are the number's remainder.
-/


namespace ScopedDocs

/-- The value of a decimal digit. -/
def decimalDigitValue (c : Char) : Nat := c.toNat - '0'.toNat

/-- The value of a run of decimal digits. -/
def decimalValue (digits : List Char) : Nat :=
  digits.foldl (fun n c => 10 * n + decimalDigitValue c) 0

/-- The value of a hexadecimal digit, of either case. -/
def hexValue? (c : Char) : Option Nat :=
  if c.isDigit then some (decimalDigitValue c)
  else if 'a' ≤ c && c ≤ 'f' then some (c.toNat - 'a'.toNat + 10)
  else if 'A' ≤ c && c ≤ 'F' then some (c.toNat - 'A'.toNat + 10)
  else none

/-- The value of digits in a base, the most significant first. -/
def digitsValue (base : Nat) (digits : List Nat) : Nat :=
  digits.foldl (fun n d => base * n + d) 0

/-- The last `width` digits of a number in a base, the most significant first. -/
def fixedDigits (base : Nat) : Nat → Nat → List Nat
  | 0, _ => []
  | width + 1, n => fixedDigits base width (n / base) ++ [n % base]

/-- The last `width` decimal digits of a number. -/
def decimalDigits (width n : Nat) : List Char := (fixedDigits 10 width n).map Nat.digitChar

/-- A number in decimal digits, with zeros in front up to a width. -/
def paddedDecimal (width n : Nat) : List Char :=
  if n < Nat.pow 10 width then decimalDigits width n else n.repr.toList

/-- There are as many digits as asked for. -/
@[simp] theorem length_fixedDigits (base width n : Nat) :
    (fixedDigits base width n).length = width := by
  induction width generalizing n with
  | zero => rfl
  | succ width ih => simp [fixedDigits, ih]

/-- The last digits of a number are worth its remainder. -/
theorem digitsValue_fixedDigits (base width n : Nat) :
    digitsValue base (fixedDigits base width n) = n % Nat.pow base width := by
  induction width generalizing n with
  | zero => simp [fixedDigits, digitsValue, Nat.mod_one]
  | succ width ih =>
    have h := ih (n / base)
    have hpow : Nat.pow base (width + 1) = base * Nat.pow base width := Nat.mul_comm _ _
    simp only [digitsValue] at h
    simp only [digitsValue, fixedDigits, List.foldl_append, List.foldl_cons, List.foldl_nil, h,
      hpow, Nat.mod_mul]
    exact Nat.add_comm _ _

end ScopedDocs

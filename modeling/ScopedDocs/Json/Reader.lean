import ScopedDocs.Json.Basic
import ScopedDocs.Text.Digits
/-!
# JSON — reading text

`Json.ofText?` reads one value and nothing after it but blanks. An integer
literal that fits 64 bits is an integer, every other number a double
(`Number.ofLiteral?`). Of two members of one key the later one counts, in the
place of the earlier. Arrays and objects nest no deeper than `maxNesting`.
-/


namespace ScopedDocs

/-- The parts of a number literal. -/
structure NumberLiteral where
  /-- Whether it starts with a minus. -/
  negative : Bool
  /-- The digits before the point. -/
  whole : List Char
  /-- The digits after the point, if it has one. -/
  fraction : Option (List Char)
  /-- The exponent, if it has one. -/
  exponent : Option Int

namespace Number

/-- Appends digits to a whole number while it stays below `2⁶⁴`, and says how
many digits were left over. -/
def takeDigits : Nat → List Char → Nat × Nat
  | n, [] => (n, 0)
  | n, c :: rest =>
    let next := 10 * n + decimalDigitValue c
    if next < UInt64.size then takeDigits next rest else (n, rest.length + 1)

/-- **Reading a number.** An integer literal in `0 … 2⁶⁴ - 1` or
`-2⁶³ … -1` is that integer, and every other literal a double. A double is read
from its leading digits, as many as a word of 64 bits holds on either side of
the point. -/
def ofLiteral? (literal : NumberLiteral) : Option Number :=
  let n := decimalValue literal.whole
  let integral := literal.fraction.isNone && literal.exponent.isNone
  if integral && !literal.negative && n < UInt64.size then some (int n)
  else if integral && literal.negative && 0 < n && n ≤ Int64.minValue.toInt.natAbs then some (int (-n))
  else
    let (whole, left) := takeDigits 0 literal.whole
    let fraction := literal.fraction.getD []
    let (digits, ignored) := takeDigits whole fraction
    let exponent := (left : Int) - (fraction.length - ignored : Nat) + literal.exponent.getD 0
    (Double.ofDecimal? literal.negative digits exponent).map double

end Number

namespace Json

namespace Reader

/-- Whether a character may stand between two tokens. -/
def isBlank (c : Char) : Bool := c = ' ' || c = '\t' || c = '\n' || c = '\r'

/-- The text behind its leading blanks. -/
def skipBlanks (cs : List Char) : List Char := cs.dropWhile isBlank

/-- Four hexadecimal digits, and the rest. -/
def hexUnit? : List Char → Option (Nat × List Char)
  | a :: b :: c :: d :: rest => do
    let a ← hexValue? a
    let b ← hexValue? b
    let c ← hexValue? c
    let d ← hexValue? d
    some (((a * 16 + b) * 16 + c) * 16 + d, rest)
  | _ => none

/-- The character of a hexadecimal escape, and the rest. A character beyond
U+FFFF is written as two units, a high one and a low one. -/
def hexEscape? (cs : List Char) : Option (Char × List Char) := do
  let (high, rest) ← hexUnit? cs
  if 0xD800 ≤ high && high < 0xDC00 then
    match rest with
    | '\\' :: 'u' :: rest =>
      let (low, rest) ← hexUnit? rest
      if 0xDC00 ≤ low && low < 0xE000 then
        some (Char.ofNat (0x10000 + (high - 0xD800) * 0x400 + (low - 0xDC00)), rest)
      else none
    | _ => none
  else if 0xDC00 ≤ high && high < 0xE000 then none
  else some (Char.ofNat high, rest)

/-- The character a simple escape stands for. -/
def simpleEscape? (c : Char) : Option Char :=
  if c = '"' || c = '\\' || c = '/' then some c
  else if c = 'b' then some '\x08'
  else if c = 'f' then some '\x0c'
  else if c = 'n' then some '\n'
  else if c = 'r' then some '\r'
  else if c = 't' then some '\t'
  else none

/-- The characters of a string up to its closing quote, put behind those
already read in reverse, and the rest. -/
def stringBody? : Nat → List Char → List Char → Option (String × List Char)
  | 0, _, _ => none
  | fuel + 1, done, cs =>
    match cs with
    | '"' :: rest => some (String.ofList done.reverse, rest)
    | '\\' :: 'u' :: rest => do
      let (c, rest) ← hexEscape? rest
      stringBody? fuel (c :: done) rest
    | '\\' :: c :: rest => do
      let c ← simpleEscape? c
      stringBody? fuel (c :: done) rest
    | c :: rest => if c.toNat < 0x20 then none else stringBody? fuel (c :: done) rest
    | [] => none

/-- A run of decimal digits, at least one, and the rest. -/
def digits? (cs : List Char) : Option (List Char × List Char) :=
  match cs.takeWhile Char.isDigit with
  | [] => none
  | run => some (run, cs.dropWhile Char.isDigit)

/-- The digits behind a decimal point, if there is one, and the rest. -/
def fraction? : List Char → Option (Option (List Char) × List Char)
  | '.' :: rest => (digits? rest).map fun (run, rest) => (some run, rest)
  | cs => some (none, cs)

/-- The exponent, if there is one, and the rest. -/
def exponent? : List Char → Option (Option Int × List Char)
  | c :: rest =>
    if c = 'e' || c = 'E' then
      let (negative, rest) := match rest with
        | '-' :: rest => (true, rest)
        | '+' :: rest => (false, rest)
        | rest => (false, rest)
      (digits? rest).map fun (run, rest) =>
        let n : Int := decimalValue run
        (some (if negative then -n else n), rest)
    else some (none, c :: rest)
  | [] => some (none, [])

/-- A number, and the rest. Its whole part has no leading zero. -/
def number? (cs : List Char) : Option (Number × List Char) := do
  let (negative, cs) := match cs with
    | '-' :: rest => (true, rest)
    | cs => (false, cs)
  let (whole, rest) ← digits? cs
  if whole.head? = some '0' && whole.length ≠ 1 then none
  else
    let (fraction, rest) ← fraction? rest
    let (exponent, rest) ← exponent? rest
    let number ← Number.ofLiteral? ⟨negative, whole, fraction, exponent⟩
    some (number, rest)

mutual

/-- A value inside at most `room` more brackets, and the rest. -/
def value? (room : Nat) : Nat → List Char → Option (Json × List Char)
  | 0, _ => none
  | fuel + 1, cs =>
    match skipBlanks cs with
    | 'n' :: 'u' :: 'l' :: 'l' :: rest => some (null, rest)
    | 't' :: 'r' :: 'u' :: 'e' :: rest => some (bool true, rest)
    | 'f' :: 'a' :: 'l' :: 's' :: 'e' :: rest => some (bool false, rest)
    | '"' :: rest => (stringBody? (rest.length + 1) [] rest).map fun (s, rest) => (str s, rest)
    | '[' :: rest =>
      if room = 0 then none
      else
        match skipBlanks rest with
        | ']' :: rest => some (arr [], rest)
        | rest => (items? (room - 1) fuel rest).map fun (items, rest) => (arr items, rest)
    | '\x7b' :: rest =>
      if room = 0 then none
      else
        match skipBlanks rest with
        | '\x7d' :: rest => some (obj [], rest)
        | rest =>
          (pairs? (room - 1) fuel rest).map fun (pairs, rest) => (obj (Members.ofList pairs), rest)
    | rest => (number? rest).map fun (n, rest) => (num n, rest)

/-- Items up to the closing bracket, and the rest. -/
def items? (room : Nat) : Nat → List Char → Option (List Json × List Char)
  | 0, _ => none
  | fuel + 1, cs => do
    let (item, rest) ← value? room fuel cs
    match skipBlanks rest with
    | ',' :: rest => (items? room fuel rest).map fun (items, rest) => (item :: items, rest)
    | ']' :: rest => some ([item], rest)
    | _ => none

/-- Pairs of a key and a value up to the closing brace, and the rest. -/
def pairs? (room : Nat) : Nat → List Char → Option (List (String × Json) × List Char)
  | 0, _ => none
  | fuel + 1, cs =>
    match skipBlanks cs with
    | '"' :: rest => do
      let (key, rest) ← stringBody? (rest.length + 1) [] rest
      match skipBlanks rest with
      | ':' :: rest =>
        let (value, rest) ← value? room fuel rest
        match skipBlanks rest with
        | ',' :: rest => (pairs? room fuel rest).map fun (pairs, rest) => ((key, value) :: pairs, rest)
        | '\x7d' :: rest => some ([(key, value)], rest)
        | _ => none
      | _ => none
    | _ => none

end

end Reader

/-- The arrays and objects that a text may open inside each other. -/
def maxNesting : Nat := 127

/-- **Reading.** The value a text holds, if it holds one value and no more. -/
def ofText? (s : String) : Option Json :=
  let cs := s.toList
  match Reader.value? maxNesting (cs.length + 1) cs with
  | some (value, rest) => if (Reader.skipBlanks rest).isEmpty then some value else none
  | none => none

end Json

end ScopedDocs

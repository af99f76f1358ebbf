import ScopedDocs.Text.Digits
/-!
# Identifiers

Universally unique identifiers of 128 bits. `Uuid.text` writes the hyphenated
form in lower case; `Uuid.ofText?` reads that form, bare, in braces or behind
its scheme, and the form without hyphens.
-/


namespace ScopedDocs

/-- A universally unique identifier. -/
structure Uuid where
  /-- Its 128 bits. -/
  bits : BitVec 128
  deriving DecidableEq, Inhabited

namespace Uuid

/-- The identifier whose bits are all zero. It identifies nothing. -/
def nil : Uuid := ⟨0⟩

/-- Whether the identifier is the nil one. -/
def isNil (u : Uuid) : Bool := u == nil

/-- The 32 hexadecimal digits, in lower case. -/
def hexDigits (u : Uuid) : List Char := (fixedDigits 16 32 u.bits.toNat).map Nat.digitChar

/-- Sets hyphens between groups of eight, four, four, four and twelve digits. -/
def hyphenate (digits : List Char) : List Char :=
  digits.take 8 ++ '-' :: (digits.drop 8).take 4 ++ '-' :: (digits.drop 12).take 4 ++
    '-' :: (digits.drop 16).take 4 ++ '-' :: digits.drop 20

/-- **Text.** The hyphenated form in lower case. -/
def text (u : Uuid) : String := String.ofList (hyphenate u.hexDigits)

/-- The identifier of 32 hexadecimal digits. -/
def ofHex? (cs : List Char) : Option Uuid :=
  if cs.length = 32 then
    (cs.mapM hexValue?).map fun digits => ⟨BitVec.ofNat 128 (digitsValue 16 digits)⟩
  else none

/-- The identifier of a hyphenated form. -/
def ofHyphenated? (cs : List Char) : Option Uuid :=
  let digits := cs.filter (· != '-')
  if hyphenate digits = cs then ofHex? digits else none

/-- **Reading.** The identifier a text writes in one of the four forms. -/
def ofText? (s : String) : Option Uuid :=
  match s.toList with
  | '\x7b' :: rest => if rest.getLast? = some '\x7d' then ofHyphenated? rest.dropLast else none
  | 'u' :: 'r' :: 'n' :: ':' :: 'u' :: 'u' :: 'i' :: 'd' :: ':' :: rest => ofHyphenated? rest
  | cs => if cs.length = 32 then ofHex? cs else ofHyphenated? cs

end Uuid

end ScopedDocs

/-!
# Text — blanks

The characters with the property of white space, and the text between the
blanks at its two ends (`trimBlanks`). A zero-width space is no blank.
-/


namespace ScopedDocs

/-- The runs of blanks: the first and the last character of each. -/
def blankRanges : List (Nat × Nat) :=
  [(0x09, 0x0D), (0x20, 0x20), (0x85, 0x85), (0xA0, 0xA0), (0x1680, 0x1680), (0x2000, 0x200A),
    (0x2028, 0x2029), (0x202F, 0x202F), (0x205F, 0x205F), (0x3000, 0x3000)]

/-- Whether a character is white space. -/
def isBlank (c : Char) : Bool :=
  blankRanges.any fun (first, last) => first ≤ c.toNat && c.toNat ≤ last

/-- The characters behind the leading blanks. -/
def skipBlanks (cs : List Char) : List Char := cs.dropWhile isBlank

/-- The characters between the blanks at the two ends. -/
def trimBlanks (cs : List Char) : List Char :=
  (skipBlanks (skipBlanks cs).reverse).reverse

/-- A text without the blanks at its two ends. -/
def trimmed (s : String) : String := String.ofList (trimBlanks s.toList)

end ScopedDocs

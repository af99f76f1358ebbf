import ScopedDocs.Text.Hidden
/-!
# Text — quoted for people

A text between quotes in which every character can be seen: quotes, backslashes
and line ends are escaped, and so is every character that shows nothing of its
own (`isHidden`).
-/


namespace ScopedDocs

/-- A character of a quoted text. -/
def quotedChar (c : Char) : List Char :=
  if c = '"' || c = '\\' then ['\\', c]
  else if c = '\n' then ['\\', 'n']
  else if c = '\r' then ['\\', 'r']
  else if c = '\t' then ['\\', 't']
  else if c.toNat = 0 then ['\\', '0']
  else if c.toNat < 0x7F && 0x20 ≤ c.toNat then [c]
  else if isHidden c then '\\' :: 'u' :: '\x7b' :: (Nat.toDigits 16 c.toNat ++ ['\x7d'])
  else [c]

/-- **Quoting.** A text between quotes. -/
def quotedText (s : String) : String :=
  String.ofList ('"' :: (s.toList.flatMap quotedChar ++ ['"']))

/-- Quoted texts between brackets. -/
def quotedTexts (items : List String) : String :=
  "[" ++ ", ".intercalate (items.map quotedText) ++ "]"

end ScopedDocs

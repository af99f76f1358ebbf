import ScopedDocs.Double.Text
import ScopedDocs.Json.Basic
/-!
# JSON — compact text

`Json.text` writes a value without blanks. Strings keep every character but the
quote, the backslash and the control characters below U+0020, which are escaped
(`Json.escaped`).
-/


namespace ScopedDocs

/-- The text of a number. -/
def Number.text : Number → String
  | int n => toString n
  | double d => d.text

namespace Json

/-- A character of a string as it is written. -/
def escaped (c : Char) : List Char :=
  if c = '"' then ['\\', '"']
  else if c = '\\' then ['\\', '\\']
  else if c = '\x08' then ['\\', 'b']
  else if c = '\x0c' then ['\\', 'f']
  else if c = '\n' then ['\\', 'n']
  else if c = '\r' then ['\\', 'r']
  else if c = '\t' then ['\\', 't']
  else if c.toNat < 0x20 then
    ['\\', 'u', '0', '0', (c.toNat / 16).digitChar, (c.toNat % 16).digitChar]
  else [c]

/-- A string in its quotes. -/
def quoted (s : String) : String :=
  String.ofList ('"' :: (s.toList.flatMap escaped ++ ['"']))

mutual

/-- **Compact text.** The text of a value, without blanks. -/
def text : Json → String
  | null => "null"
  | bool true => "true"
  | bool false => "false"
  | num n => n.text
  | str s => quoted s
  | arr [] => "[]"
  | arr (item :: items) => "[" ++ text item ++ itemsText items ++ "]"
  | obj [] => "\x7b\x7d"
  | obj ((key, value) :: members) =>
    "\x7b" ++ quoted key ++ ":" ++ text value ++ membersText members ++ "\x7d"

/-- The items after the first, each behind a comma. -/
def itemsText : List Json → String
  | [] => ""
  | item :: items => "," ++ text item ++ itemsText items

/-- The members after the first, each behind a comma. -/
def membersText : List (String × Json) → String
  | [] => ""
  | (key, value) :: members => "," ++ quoted key ++ ":" ++ text value ++ membersText members

end

end Json

end ScopedDocs

import ScopedDocs.Instant.Reader
import ScopedDocs.Json.Basic
import ScopedDocs.Span.Basic
import ScopedDocs.Uuid
/-!
# JSON — typed reading

How the types of the library read themselves out of JSON. A record is an object
of its fields, other keys ignored, or an array of its fields in their order
(`fields?`); a field with a default may be missing (`orElse?`), and only an
optional one may be `null` (`optional?`). A name is a string, or an object whose
one key is the name and whose value is `null` (`name?`).
-/


namespace ScopedDocs

namespace Json

namespace Decode

/-- The fields of a record by their keys, in order: each its value, or nothing
if it is missing. -/
def fields? (keys : List String) : Json → Option (List (Option Json))
  | obj members => some (keys.map fun key => members.lookup key)
  | arr items =>
    if items.length ≤ keys.length then
      some (items.map some ++ List.replicate (keys.length - items.length) none)
    else none
  | _ => none

/-- A field that has to be there. -/
def required? {α : Type} (read : Json → Option α) (field : Option Json) : Option α :=
  field.bind read

/-- A field with a default. -/
def orElse? {α : Type} (read : Json → Option α) (default : α) : Option Json → Option α
  | some value => read value
  | none => some default

/-- A value that may be `null`. -/
def optional? {α : Type} (read : Json → Option α) : Json → Option (Option α)
  | null => some none
  | value => (read value).map some

/-- An array of values. -/
def list? {α : Type} (read : Json → Option α) : Json → Option (List α)
  | arr items => items.mapM read
  | _ => none

/-- Any value. -/
def any? (value : Json) : Option Json := some value

/-- A natural number of 64 bits. -/
def word? : Json → Option UInt64
  | num (.int n) => if 0 ≤ n ∧ n.toNat < UInt64.size then some (UInt64.ofNat n.toNat) else none
  | _ => none

/-- An integer. -/
def int? : Json → Option Int
  | num (.int n) => some n
  | _ => none

/-- The name of an alternative. -/
def name? : Json → Option String
  | str s => some s
  | obj [(name, null)] => some name
  | _ => none

/-- An identifier. -/
def uuid? (value : Json) : Option Uuid := value.string?.bind Uuid.ofText?

/-- An instant, in the lenient form. -/
def instant? (value : Json) : Option Instant := value.string?.bind Instant.ofText?

/-- A span: its seconds and nanoseconds, and nothing else. -/
def span? : Json → Option Span
  | obj [(first, a), (second, b)] =>
    if first = "secs" ∧ second = "nanos" then spanOf? a b
    else if first = "nanos" ∧ second = "secs" then spanOf? b a
    else none
  | arr [a, b] => spanOf? a b
  | _ => none
where
  /-- The span of its two parts; the nanoseconds are a word of 32 bits. -/
  spanOf? (seconds nanos : Json) : Option Span := do
    let seconds ← word? seconds
    let nanos ← word? nanos
    if nanos.toNat < UInt32.size then Span.of? seconds.toNat nanos.toNat else none

end Decode

end Json

namespace Span

/-- The written form of a span. -/
def toJson (s : Span) : Json :=
  .obj [("secs", .ofNat s.seconds), ("nanos", .ofNat s.nanos)]

end Span

end ScopedDocs

import ScopedDocs.Json.Text
import ScopedDocs.Pattern.Basic
import ScopedDocs.Search.Basic
/-!
# Searches — the conditions of single tests

What the tests of a search become in a filter. A comparison takes the first
value of its test. A test of text becomes a pattern of the value's characters,
whatever they mean in patterns, and case does not count.
-/


namespace ScopedDocs

/-- The text of a value in a test of text: a string itself, and any other value
as it is written. -/
def Json.searchText : Json → String
  | .str s => s
  | value => value.text

namespace ValueTest

/-- The first value, which an operator may need. -/
def first (t : ValueTest) : Except Error Json :=
  match t.values with
  | value :: _ => .ok value
  | [] => .error (.search (.missingOperand t.field t.operator.name))

/-- The condition that a value matches a pattern, whatever the case. -/
def patternCondition (pattern : String) : Json :=
  .obj [("$regex", .str pattern), ("$options", .str "i")]

/-- **The condition of a test** on the value of its field. -/
def condition (t : ValueTest) : Except Error Json :=
  let compare (operator : String) : Except Error Json :=
    t.first.map fun value => .obj [(operator, value)]
  match t.operator with
  | .equals => compare "$eq"
  | .notEquals => compare "$ne"
  | .greater => compare "$gt"
  | .less => compare "$lt"
  | .greaterOrEqual => compare "$gte"
  | .lessOrEqual => compare "$lte"
  | .contains => t.first.map fun value => patternCondition (Pattern.escape value.searchText)
  | .startsWith =>
    t.first.map fun value => patternCondition ("^" ++ Pattern.escape value.searchText)
  | .endsWith =>
    t.first.map fun value => patternCondition (Pattern.escape value.searchText ++ "$")
  | .isIn => .ok (.obj [("$in", .arr t.values)])
  | .notIn => .ok (.obj [("$nin", .arr t.values)])

end ValueTest

/-- The condition that a value lies between bounds, unless there are none. -/
def boundsCondition? (min max : Option Json) : Option Json :=
  match min, max with
  | none, none => none
  | some least, none => some (.obj [("$gte", least)])
  | none, some greatest => some (.obj [("$lte", greatest)])
  | some least, some greatest => some (.obj [("$gte", least), ("$lte", greatest)])

/-- The condition of a range of dates. Dates are stored as texts. -/
def DateRange.condition? (r : DateRange) : Option Json :=
  boundsCondition? (r.min.map fun t => .str t.text) (r.max.map fun t => .str t.text)

/-- The condition of a range of spans. Spans are stored in milliseconds. -/
def SpanRange.condition? (r : SpanRange) : Option Json :=
  boundsCondition? (r.min.map fun s => .ofNat s.millis) (r.max.map fun s => .ofNat s.millis)

end ScopedDocs

import ScopedDocs.Error.Basic
import ScopedDocs.Filter.Operator
import ScopedDocs.Json.Order
import ScopedDocs.Json.Path
import ScopedDocs.Pattern.Reader
import ScopedDocs.Pattern.Search
import ScopedDocs.Pattern.Size
/-!
# Filters — whether a document satisfies one

A filter is a document: its keys are paths with conditions, or connectives with
lists of filters, and all of them have to hold (`Filter.holds`). They are tried
in order and only as far as the answer needs, so that what is malformed behind
a key that fails goes unnoticed.
-/


namespace ScopedDocs

namespace Filter

/-- Whether some value at a path equals an expected one. A path that reaches
nothing equals `null`. -/
def equalsAt (document : Json) (segments : List String) (expected : Json) : Bool :=
  match document.candidates segments with
  | [] => expected.same .null
  | values => values.any fun value => value.matchesValue expected

/-- Whether some value at a path stands to an operand as asked. -/
def comparesAt (document : Json) (segments : List String) (accepts : Ordering → Bool)
    (operand : Json) : Bool :=
  (document.candidates segments).any fun value => (value.compare? operand).any accepts

/-- Whether some value at a path equals one of the items of an operand, which
has to be an array. -/
def oneOfAt (document : Json) (segments : List String) (operator : String) (operand : Json) :
    Except Error Bool :=
  match operand with
  | .arr items => .ok (items.any (equalsAt document segments))
  | _ => .error (.ofFault (.notAnArray operator))

/-- Whether some string at a path matches a pattern, which has to be a string
that can be read and is not too large. -/
def matchesAt (document : Json) (segments : List String) (options : String) (operand : Json) :
    Except Error Bool :=
  match operand with
  | .str text =>
    match Pattern.ofText? text with
    | some pattern =>
      let mode : Pattern.Mode := ⟨options.toList.contains 'i', options.toList.contains 'm'⟩
      if pattern.isOversized mode then .error (.ofFault (.oversizedPattern Pattern.maxSize))
      else
        .ok ((document.candidates segments).any fun value =>
          value.string?.any (pattern.occurs mode))
    | none => .error (.ofFault .unreadablePattern)
  | _ => .error (.ofFault .patternNotAString)

/-- Whether a path reaches something, or nothing, as the operand asks. -/
def presentAt (document : Json) (segments : List String) (operand : Json) : Bool :=
  let wanted := match operand with
    | .bool b => b
    | _ => true
  !(document.reach segments).isEmpty == wanted

/-- The options of the pattern among operators. -/
def patternOptions (operators : Members Json) : String :=
  ((operators.lookup "$options").bind Json.string?).getD ""

/-- Whether the members of a condition are operators: there are some, and all
of them start with a dollar sign. -/
def areOperators (members : Members Json) : Bool :=
  !members.isEmpty && members.all fun (key, _) => isWord key

/-- The items of the arrays at a path. -/
def itemsAt (document : Json) (segments : List String) : List Json :=
  (document.reach segments).flatMap fun value => value.items?.getD []

/-- The key under which an item is tested by itself. -/
def itemKey : String := "v"

/-- Whether an operator holds at a path, as long as its operand is no filter. An
item of an array satisfies no operand but a document, and an item that is a
document asks for one. -/
def testHolds (document : Json) (segments : List String) (options name : String)
    (operand : Json) : Except Error Bool :=
  match Operator.ofName? name with
  | some .eq => .ok (equalsAt document segments operand)
  | some .ne => .ok (!equalsAt document segments operand)
  | some .gt => .ok (comparesAt document segments Ordering.isGT operand)
  | some .gte => .ok (comparesAt document segments Ordering.isGE operand)
  | some .lt => .ok (comparesAt document segments Ordering.isLT operand)
  | some .lte => .ok (comparesAt document segments Ordering.isLE operand)
  | some .isIn => oneOfAt document segments name operand
  | some .notIn => (oneOfAt document segments name operand).map (!·)
  | some .regex => matchesAt document segments options operand
  | some .options => .ok true
  | some .isPresent => .ok (presentAt document segments operand)
  | some .elemMatch =>
    if (itemsAt document segments).any Json.isObject then .error (.ofFault (.notADocument "filter"))
    else .ok false
  | none => .error (.ofFault (.unsupportedOperator name))

/-- Whether a key holds whose value is neither a list of filters nor made of
operators: it is the expected value at a path. -/
def valueHolds (document : Json) (key : String) (expected : Json) : Except Error Bool :=
  match Key.of key with
  | .connective _ => .error (.ofFault (.noClauses key))
  | .path segments => .ok (equalsAt document segments expected)
  | .unsupported => .error (.ofFault (.unsupportedOperator key))

mutual

/-- **Whether a document satisfies a filter.** -/
def holds (document : Json) : Json → Except Error Bool
  | .obj members => membersHold document members
  | _ => .error (.ofFault (.notADocument "filter"))
termination_by structural condition => condition

/-- Whether all keys of a filter hold, tried in order up to the first that does
not. -/
def membersHold (document : Json) : List (String × Json) → Except Error Bool
  | [] => .ok true
  | (key, condition) :: rest => do
    if ← memberHolds document key condition then membersHold document rest else .ok false
termination_by structural members => members

/-- Whether one key of a filter holds. -/
def memberHolds (document : Json) (key : String) : Json → Except Error Bool
  | .arr clauses =>
    match Key.of key with
    | .connective how =>
      if clauses.isEmpty then .error (.ofFault (.noClauses key))
      else
        match how with
        | .and => allHold document clauses
        | .or => anyHolds document clauses
        | .nor => (anyHolds document clauses).map (!·)
    | _ => valueHolds document key (.arr clauses)
  | .obj members =>
    match Key.of key with
    | .path segments =>
      if areOperators members then
        operatorsHold document segments (patternOptions members) members
      else valueHolds document key (.obj members)
    | _ => valueHolds document key (.obj members)
  | expected => valueHolds document key expected
termination_by structural condition => condition

/-- Whether all filters hold, tried in order up to the first that does not. -/
def allHold (document : Json) : List Json → Except Error Bool
  | [] => .ok true
  | clause :: clauses => do
    if ← holds document clause then allHold document clauses else .ok false
termination_by structural clauses => clauses

/-- Whether some filter holds, tried in order up to the first that does. -/
def anyHolds (document : Json) : List Json → Except Error Bool
  | [] => .ok false
  | clause :: clauses => do
    if ← holds document clause then .ok true else anyHolds document clauses
termination_by structural clauses => clauses

/-- Whether all operators hold at a path, tried in order up to the first that
does not. -/
def operatorsHold (document : Json) (segments : List String) (options : String) :
    List (String × Json) → Except Error Bool
  | [] => .ok true
  | (name, operand) :: rest => do
    if ← operatorHolds document segments options name operand then
      operatorsHold document segments options rest
    else .ok false
termination_by structural operators => operators

/-- Whether one operator holds at a path. Of the items of an array, operators
test the item itself, and a filter tests an item that is a document. -/
def operatorHolds (document : Json) (segments : List String) (options name : String) :
    Json → Except Error Bool
  | .obj members =>
    match Operator.ofName? name with
    | some .elemMatch =>
      (itemsAt document segments).anyM fun item =>
        if areOperators members then
          operatorsHold (.obj [(itemKey, item)]) [itemKey] (patternOptions members) members
        else if item.isObject then membersHold item members
        else .ok false
    | _ => testHolds document segments options name (.obj members)
  | operand => testHolds document segments options name operand
termination_by structural operand => operand

end

end Filter

end ScopedDocs

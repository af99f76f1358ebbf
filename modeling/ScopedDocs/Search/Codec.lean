import ScopedDocs.Search.Basic
/-!
# Searches — their written form

How searches are written as JSON and read back. Every field is written, an
absent bound as `null`; on reading, all but a field's name may be missing. The
declared scope of a search is not part of its written form: a search that is
read declares nobody.
-/


namespace ScopedDocs

open Json (obj arr str null)

open Json.Decode

/-- A value that may be absent, as JSON. -/
def Json.ofOption {α : Type} (write : α → Json) : Option α → Json
  | some a => write a
  | none => .null

/-- The operator a JSON value writes. -/
def SearchOperator.ofJson? (value : Json) : Option SearchOperator := (name? value).bind ofName?

/-- The clause a JSON value writes. -/
def Clause.ofJson? (value : Json) : Option Clause := (name? value).bind ofName?

namespace ValueTest

/-- The written form of a test. -/
def toJson (t : ValueTest) : Json :=
  obj [("field", str t.field), ("operator", str t.operator.name), ("values", arr t.values)]

/-- The test a JSON value writes. -/
def ofJson? (value : Json) : Option ValueTest :=
  match fields? ["field", "operator", "values"] value with
  | some [field, operator, values] => do
    let field ← required? Json.string? field
    let operator ← orElse? SearchOperator.ofJson? .isIn operator
    let values ← orElse? (list? any?) [] values
    some ⟨field, operator, values⟩
  | _ => none

end ValueTest

namespace DateRange

/-- The written form of a range. -/
def toJson (r : DateRange) : Json :=
  obj [("field", str r.field), ("min", Json.ofOption (fun t => str t.text) r.min),
    ("max", Json.ofOption (fun t => str t.text) r.max)]

/-- The range a JSON value writes. -/
def ofJson? (value : Json) : Option DateRange :=
  match fields? ["field", "min", "max"] value with
  | some [field, min, max] => do
    let field ← required? Json.string? field
    let min ← orElse? (optional? instant?) none min
    let max ← orElse? (optional? instant?) none max
    some ⟨field, min, max⟩
  | _ => none

end DateRange

namespace SpanRange

/-- The written form of a range. -/
def toJson (r : SpanRange) : Json :=
  obj [("field", str r.field), ("min", Json.ofOption Span.toJson r.min),
    ("max", Json.ofOption Span.toJson r.max)]

/-- The range a JSON value writes. -/
def ofJson? (value : Json) : Option SpanRange :=
  match fields? ["field", "min", "max"] value with
  | some [field, min, max] => do
    let field ← required? Json.string? field
    let min ← orElse? (optional? span?) none min
    let max ← orElse? (optional? span?) none max
    some ⟨field, min, max⟩
  | _ => none

end SpanRange

mutual

/-- The written form of an aggregation. -/
def Aggregation.toJson : Aggregation → Json
  | .combine clause groups => obj [("params", arr (groupsToJson groups)), ("type", str clause.name)]

/-- The written form of a group. -/
def TestGroup.toJson : TestGroup → Json
  | .tests values dates spans nested =>
    obj [("values", arr (values.map ValueTest.toJson)), ("date", arr (dates.map DateRange.toJson)),
      ("time", arr (spans.map SpanRange.toJson)), ("aggregate", arr (aggregationsToJson nested))]

/-- The written forms of groups. -/
def groupsToJson : List TestGroup → List Json
  | [] => []
  | group :: groups => group.toJson :: groupsToJson groups

/-- The written forms of aggregations. -/
def aggregationsToJson : List Aggregation → List Json
  | [] => []
  | aggregation :: aggregations => aggregation.toJson :: aggregationsToJson aggregations

end

namespace TestGroup

/-- The tests of a group without its nested aggregations, read from the fields
of the tests. -/
def ofFields? (values dates spans : Option Json) (nested : List Aggregation) :
    Option TestGroup := do
  let values ← orElse? (list? ValueTest.ofJson?) [] values
  let dates ← orElse? (list? DateRange.ofJson?) [] dates
  let spans ← orElse? (list? SpanRange.ofJson?) [] spans
  some (.tests values dates spans nested)

end TestGroup

mutual

/-- The aggregation a JSON value writes. -/
def Aggregation.ofJson? : Json → Option Aggregation
  | .obj members => do
    let groups ← groupsMember? members
    let clause ← orElse? Clause.ofJson? .all (members.lookup "type")
    some (.combine clause groups)
  | .arr [] => some (.combine .all [])
  | .arr [groups] => (groups? groups).map (.combine .all)
  | .arr [groups, clause] => do
    let groups ← groups? groups
    let clause ← Clause.ofJson? clause
    some (.combine clause groups)
  | _ => none

/-- The groups among the members of an aggregation. -/
def groupsMember? : List (String × Json) → Option (List TestGroup)
  | [] => some []
  | (key, value) :: members => if key = "params" then groups? value else groupsMember? members

/-- The groups a JSON value writes. -/
def groups? : Json → Option (List TestGroup)
  | .arr items => groupItems? items
  | _ => none

/-- The groups that items write. -/
def groupItems? : List Json → Option (List TestGroup)
  | [] => some []
  | item :: items => do
    let group ← TestGroup.ofJson? item
    let groups ← groupItems? items
    some (group :: groups)

/-- The group a JSON value writes. -/
def TestGroup.ofJson? : Json → Option TestGroup
  | .obj members => do
    let nested ← nestedMember? members
    TestGroup.ofFields? (members.lookup "values") (members.lookup "date") (members.lookup "time") nested
  | .arr [] => some (.tests [] [] [] [])
  | .arr [values] => TestGroup.ofFields? values none none []
  | .arr [values, dates] => TestGroup.ofFields? values dates none []
  | .arr [values, dates, spans] => TestGroup.ofFields? values dates spans []
  | .arr [values, dates, spans, nested] => do
    let nested ← aggregations? nested
    TestGroup.ofFields? values dates spans nested
  | _ => none

/-- The nested aggregations among the members of a group. -/
def nestedMember? : List (String × Json) → Option (List Aggregation)
  | [] => some []
  | (key, value) :: members => if key = "aggregate" then aggregations? value else nestedMember? members

/-- The aggregations a JSON value writes. -/
def aggregations? : Json → Option (List Aggregation)
  | .arr items => aggregationItems? items
  | _ => none

/-- The aggregations that items write. -/
def aggregationItems? : List Json → Option (List Aggregation)
  | [] => some []
  | item :: items => do
    let aggregation ← Aggregation.ofJson? item
    let aggregations ← aggregationItems? items
    some (aggregation :: aggregations)

end

namespace SortKey

/-- The written form of a sort field. -/
def toJson (k : SortKey) : Json := obj [("field", str k.field), ("direction", k.direction.toJson)]

/-- The sort field a JSON value writes. -/
def ofJson? (value : Json) : Option SortKey :=
  match fields? ["field", "direction"] value with
  | some [field, direction] => do
    let field ← required? Json.string? field
    let direction ← orElse? Direction.ofJson? .ascending direction
    some ⟨field, direction⟩
  | _ => none

end SortKey

namespace ResultOptions

/-- The written form of the options. -/
def toJson (o : ResultOptions) : Json :=
  obj [("skip", .ofWord o.skip), ("limit", .ofWord o.limit), ("pick", .ofStrings o.picked),
    ("omit", .ofStrings o.omitted)]

/-- The options a JSON value writes. -/
def ofJson? (value : Json) : Option ResultOptions :=
  match fields? ["skip", "limit", "pick", "omit"] value with
  | some [skip, limit, picked, omitted] => do
    let skip ← orElse? word? 0 skip
    let limit ← orElse? word? 0 limit
    let picked ← orElse? (list? Json.string?) [] picked
    let omitted ← orElse? (list? Json.string?) [] omitted
    some ⟨skip, limit, picked, omitted⟩
  | _ => none

end ResultOptions

namespace Search

/-- The written form of a search. -/
def toJson (s : Search) : Json :=
  obj [("search_params", arr (aggregationsToJson s.aggregations)),
    ("result_options", s.options.toJson), ("sort_options", arr (s.sort.map SortKey.toJson))]

/-- **Reading.** The search a JSON value writes. It declares nobody. -/
def ofJson? (value : Json) : Option Search :=
  match fields? ["search_params", "result_options", "sort_options"] value with
  | some [aggregations, options, sort] => do
    let aggregations ← orElse? aggregations? [] aggregations
    let options ← orElse? ResultOptions.ofJson? {} options
    let sort ← orElse? (list? SortKey.ofJson?) [] sort
    some { aggregations, options, sort }
  | _ => none

end Search

end ScopedDocs

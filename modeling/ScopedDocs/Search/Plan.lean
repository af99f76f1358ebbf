import ScopedDocs.Config.Basic
import ScopedDocs.Pipeline
import ScopedDocs.Schema.Basic
import ScopedDocs.Search.Predicate
/-!
# Searches — their plan

A search becomes a pipeline by a schema and a configuration (`Search.plan`): a
filter, then a projection and a sort order where the search asks for them, then
the page. Every field is checked against the schema, down to the last nested
aggregation, and the first fault counts: of the filter, of the projection, of
the sort order, of the page. A plan holds no terms of tenancy yet.
-/


namespace ScopedDocs

/-- The term of a filter that tests one field. -/
def fieldTerm (r : Resolved) (condition : Json) : Json := .obj [(r.path, condition)]

/-- The term of a test against values. -/
def ValueTest.term (s : Schema) (t : ValueTest) : Except Error Json := do
  let r ← s.resolveQueryable t.field
  let condition ← t.condition
  .ok (fieldTerm r (if r.elementMatch then .obj [("$elemMatch", condition)] else condition))

/-- The term of a range of dates, unless it has no bounds. -/
def DateRange.term (s : Schema) (t : DateRange) : Except Error (Option Json) := do
  let r ← s.resolveQueryable t.field
  .ok (t.condition?.map (fieldTerm r))

/-- The term of a range of spans, unless it has no bounds. -/
def SpanRange.term (s : Schema) (t : SpanRange) : Except Error (Option Json) := do
  let r ← s.resolveQueryable t.field
  .ok (t.condition?.map (fieldTerm r))

mutual

/-- The term of an aggregation at a depth, unless nothing in it asks for
anything. -/
def Aggregation.term (c : Config) (s : Schema) (depth : Nat) : Aggregation → Except Error (Option Json)
  | .combine clause groups =>
    if c.maxDepth.toNat < depth then
      match c.depthOverflow with
      | .reject => .error (.search (.tooDeep c.maxDepth.toNat))
      | .drop => .ok none
    else do
      let terms ← groupTerms c s depth groups
      .ok (if terms.isEmpty then none else some (.obj [(clause.connective, .arr terms)]))

/-- The terms of groups at a depth, in order. -/
def groupTerms (c : Config) (s : Schema) (depth : Nat) : List TestGroup → Except Error (List Json)
  | [] => .ok []
  | group :: groups => do
    let first ← group.terms c s depth
    let rest ← groupTerms c s depth groups
    .ok (first ++ rest)

/-- The terms of a group at a depth: of values, of dates, of spans, and of
nested aggregations, which are one level deeper. -/
def TestGroup.terms (c : Config) (s : Schema) (depth : Nat) : TestGroup → Except Error (List Json)
  | .tests values dates spans nested => do
    let values ← values.mapM (ValueTest.term s)
    let dates ← dates.mapM (DateRange.term s)
    let spans ← spans.mapM (SpanRange.term s)
    let nested ← aggregationTerms c s (depth + 1) nested
    .ok (values ++ dates.filterMap id ++ spans.filterMap id ++ nested)

/-- The terms of aggregations at a depth, in order. -/
def aggregationTerms (c : Config) (s : Schema) (depth : Nat) :
    List Aggregation → Except Error (List Json)
  | [] => .ok []
  | aggregation :: aggregations => do
    let first ← aggregation.term c s depth
    let rest ← aggregationTerms c s depth aggregations
    .ok (first.toList ++ rest)

end

/-- **The filter of aggregations**, all of which have to hold. -/
def filterOf (c : Config) (s : Schema) (aggregations : List Aggregation) : Except Error Json := do
  match ← aggregationTerms c s 1 aggregations with
  | [] => .ok (.obj [])
  | [term] => .ok term
  | terms => .ok (.obj [("$and", .arr terms)])

namespace ResultOptions

/-- The projection onto paths, each with a flag. A path keeps its first place. -/
def flagged (flag : Int) (paths : List Resolved) : Json :=
  .obj (Members.ofList (paths.map fun r => (r.path, .ofInt flag)))

/-- **The projection** of a search, if it asks for one. Nothing denied is
picked, but anything may be left out. -/
def projection (o : ResultOptions) (s : Schema) : Except Error (Option Json) :=
  if o.picked.isEmpty && o.omitted.isEmpty then .ok none
  else if o.omitted.isEmpty then do
    let paths ← o.picked.mapM s.resolveUnrestricted
    .ok (some (flagged 1 paths))
  else if o.picked.isEmpty then do
    let paths ← o.omitted.mapM s.resolve
    .ok (some (flagged 0 paths))
  else .error (.schema .pickAndOmit)

end ResultOptions

/-- Adds a sort key unless its path is there already. -/
def addSortKey (keys : Members Json) (path : String) (direction : Direction) : Members Json :=
  match keys.lookup path with
  | some _ => keys
  | none => keys ++ [(path, direction.toJson)]

/-- **The sort order** of a search, if it asks for one. Of two directions for
one path the first counts. -/
def sortOf (s : Schema) (keys : List SortKey) : Except Error (Option Json) :=
  if keys.isEmpty then .ok none
  else do
    let resolved ← keys.mapM fun key =>
      (s.resolveUnrestricted key.field).map fun r => (r.path, key.direction)
    .ok (some (.obj (resolved.foldl (fun m (path, direction) => addSortKey m path direction) [])))

namespace Search

/-- **The plan** of a search. -/
def plan (c : Config) (s : Schema) (search : Search) : Except Error Pipeline := do
  let condition ← filterOf c s search.aggregations
  let projection ← search.options.projection s
  let sort ← sortOf s search.sort
  let limit ← c.effectiveLimit search.options.limit
  .ok (.filter condition :: (projection.map Stage.project).toList ++ (sort.map Stage.sort).toList ++
    [.skip search.options.skip.toNat, .limit limit.toNat])

/-- Whether a search has a plan. -/
def validate (c : Config) (s : Schema) (search : Search) : Except Error Unit := do
  let _ ← search.plan c s
  .ok ()

end Search

end ScopedDocs

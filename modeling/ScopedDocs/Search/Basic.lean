import ScopedDocs.Audience
import ScopedDocs.Request
import ScopedDocs.Search.Operator
/-!
# Searches — what to look for

A search is a tree of tests on logical fields, with a page, a projection, a
sort order and the scope it declares. The tree alternates between aggregations,
which combine groups by a clause, and groups (`TestGroup`), which hold tests of
three kinds and further aggregations.
-/


namespace ScopedDocs

/-- A test of a field against values. -/
structure ValueTest where
  /-- The logical name of the field, possibly dotted, possibly a wildcard. -/
  field : String
  /-- The comparison. -/
  operator : SearchOperator := .isIn
  /-- The values. An operator that takes one value takes the first. -/
  values : List Json := []
  deriving Inhabited

namespace ValueTest

/-- The test that a field equals a value. -/
def eq (field : String) (value : Json) : ValueTest := ⟨field, .equals, [value]⟩

/-- The test that a field equals one of several values. -/
def anyOf (field : String) (values : List Json) : ValueTest := ⟨field, .isIn, values⟩

end ValueTest

/-- A test that a field lies between two instants, both included. -/
structure DateRange where
  /-- The logical name of the field. -/
  field : String
  /-- The earliest instant, if there is one. -/
  min : Option Instant := none
  /-- The latest instant, if there is one. -/
  max : Option Instant := none
  deriving DecidableEq, Inhabited

/-- A test that a field lies between two lengths of time, both included. -/
structure SpanRange where
  /-- The logical name of the field. -/
  field : String
  /-- The least span, if there is one. -/
  min : Option Span := none
  /-- The greatest span, if there is one. -/
  max : Option Span := none
  deriving DecidableEq, Inhabited

mutual

/-- A combination of groups of tests. -/
inductive Aggregation where
  /-- The groups, combined by a clause. -/
  | combine (clause : Clause) (groups : List TestGroup)

/-- A group of tests. -/
inductive TestGroup where
  /-- Tests of each kind, and nested aggregations. -/
  | tests (values : List ValueTest) (dates : List DateRange) (spans : List SpanRange)
    (nested : List Aggregation)

end

namespace Aggregation

/-- How the groups are combined. -/
def clause : Aggregation → Clause
  | combine clause _ => clause

/-- The groups. -/
def groups : Aggregation → List TestGroup
  | combine _ groups => groups

/-- The groups, all of which have to hold. -/
def allOf (groups : List TestGroup) : Aggregation := combine .all groups

/-- The groups, one of which has to hold. -/
def anyOf (groups : List TestGroup) : Aggregation := combine .any groups

end Aggregation

namespace TestGroup

/-- A group of tests against values. -/
def ofValues (values : List ValueTest) : TestGroup := tests values [] [] []

/-- A group of tests against dates. -/
def ofDates (dates : List DateRange) : TestGroup := tests [] dates [] []

/-- A group of nested aggregations. -/
def ofNested (nested : List Aggregation) : TestGroup := tests [] [] [] nested

/-- Whether the group holds nothing. -/
def isEmpty : TestGroup → Bool
  | tests values dates spans nested =>
    values.isEmpty && dates.isEmpty && spans.isEmpty && nested.isEmpty

end TestGroup

/-- A field to sort by. -/
structure SortKey where
  /-- The logical name of the field. -/
  field : String
  /-- The direction. -/
  direction : Direction := .ascending
  deriving DecidableEq, Inhabited

/-- The page and the projection of a search. -/
structure ResultOptions where
  /-- How many records to leave out at the start. -/
  skip : UInt64 := 0
  /-- How many records to return; zero asks for the default. -/
  limit : UInt64 := 0
  /-- The fields to return; none asks for all. -/
  picked : List String := []
  /-- The fields to leave out. -/
  omitted : List String := []
  deriving DecidableEq, Inhabited

/-- The scope a search declares. -/
structure Visibility where
  /-- Whom it claims to run for. -/
  source : Owner := Owner.nobody
  /-- The scope it is meant for. -/
  audience : Audience := .user
  deriving DecidableEq, Inhabited

/-- A search. -/
structure Search where
  /-- The aggregations, all of which have to hold. -/
  aggregations : List Aggregation := []
  /-- The page and the projection. -/
  options : ResultOptions := {}
  /-- The sort order, the most important field first. -/
  sort : List SortKey := []
  /-- The declared scope. -/
  visibility : Visibility := {}
  deriving Inhabited

namespace Search

/-- The logical name of the primary key. -/
def idField : String := "ID"

/-- A search for what aggregations describe, declared for the caller. -/
def byAggregations (r : Request) (aggregations : List Aggregation) (options : ResultOptions)
    (audience : Audience) : Search :=
  { aggregations, options, visibility := ⟨r.source, audience⟩ }

/-- A search for everything in scope. -/
def everything (r : Request) (audience : Audience) : Search := byAggregations r [] {} audience

/-- A search for one record by its primary key. -/
def byId (r : Request) (id : Uuid) (audience : Audience) : Search :=
  byAggregations r [.allOf [.ofValues [.eq idField (.str id.text)]]] { limit := 1 } audience

/-- A search by tests against values, all of which have to hold. -/
def byValues (r : Request) (values : List ValueTest) (options : ResultOptions)
    (audience : Audience) : Search :=
  byAggregations r [.allOf [.ofValues values]] options audience

/-- A search by ranges of dates, all of which have to hold. -/
def byDates (r : Request) (dates : List DateRange) (options : ResultOptions)
    (audience : Audience) : Search :=
  byAggregations r [.allOf [.ofDates dates]] options audience

/-- Adds a field to the end of the sort order. -/
def sortedBy (s : Search) (key : SortKey) : Search := { s with sort := s.sort ++ [key] }

/-- Sets how many records to leave out. -/
def skipping (s : Search) (n : UInt64) : Search := { s with options.skip := n }

/-- Sets the page size. -/
def limitedTo (s : Search) (n : UInt64) : Search := { s with options.limit := n }

/-- Sets the fields to return. -/
def picking (s : Search) (fields : List String) : Search := { s with options.picked := fields }

/-- Sets the fields to leave out. -/
def omitting (s : Search) (fields : List String) : Search := { s with options.omitted := fields }

/-- Adds an aggregation to those that have to hold. -/
def requiring (s : Search) (aggregation : Aggregation) : Search :=
  { s with aggregations := s.aggregations ++ [aggregation] }

/-- Nests all aggregations in one, as alternatives. -/
def nested (s : Search) : Search :=
  { s with aggregations := [.anyOf [.ofNested s.aggregations]] }

end Search

end ScopedDocs

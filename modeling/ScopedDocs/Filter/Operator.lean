import ScopedDocs.Dotted
/-!
# Filters — their operators

The words of filters that start with a dollar sign: connectives, which combine
filters, and conditions, which test the values at a path.
-/


namespace ScopedDocs

namespace Filter

/-- How a list of filters is combined. -/
inductive Connective where
  /-- Every filter holds. -/
  | and
  /-- Some filter holds. -/
  | or
  /-- No filter holds. -/
  | nor
  deriving DecidableEq

/-- The connective of a name, if there is one. -/
def Connective.ofName? (s : String) : Option Connective :=
  if s = "$and" then some .and
  else if s = "$or" then some .or
  else if s = "$nor" then some .nor
  else none

/-- How the values at a path are tested. -/
inductive Operator where
  /-- Some value equals the operand. -/
  | eq
  /-- No value equals the operand. -/
  | ne
  /-- Some value lies above the operand. -/
  | gt
  /-- Some value lies at or above the operand. -/
  | gte
  /-- Some value lies below the operand. -/
  | lt
  /-- Some value lies at or below the operand. -/
  | lte
  /-- Some value equals an item of the operand. -/
  | isIn
  /-- No value equals an item of the operand. -/
  | notIn
  /-- Some string matches the pattern. -/
  | regex
  /-- The options of a pattern; no test by itself. -/
  | options
  /-- There is a value, or there is none. -/
  | isPresent
  /-- Some item of an array satisfies the operand. -/
  | elemMatch
  deriving DecidableEq

/-- The operator of a name, if there is one. -/
def Operator.ofName? (s : String) : Option Operator :=
  if s = "$eq" then some .eq
  else if s = "$ne" then some .ne
  else if s = "$gt" then some .gt
  else if s = "$gte" then some .gte
  else if s = "$lt" then some .lt
  else if s = "$lte" then some .lte
  else if s = "$in" then some .isIn
  else if s = "$nin" then some .notIn
  else if s = "$regex" then some .regex
  else if s = "$options" then some .options
  else if s = "$exists" then some .isPresent
  else if s = "$elemMatch" then some .elemMatch
  else none

/-- Whether a key of a filter is a word of filters and no path. -/
def isWord (key : String) : Bool := key.toList.head? == some '$'

/-- What a key of a filter says about its value. -/
inductive Key where
  /-- The value lists filters to combine. -/
  | connective (how : Connective)
  /-- The value is a condition on what the path reaches. -/
  | path (segments : List String)
  /-- Nothing: no connective has this name. -/
  | unsupported

/-- What a key says. -/
def Key.of (key : String) : Key :=
  match Connective.ofName? key with
  | some how => .connective how
  | none => if isWord key then .unsupported else .path (Dotted.segments key)

end Filter

end ScopedDocs

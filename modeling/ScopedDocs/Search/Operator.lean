import ScopedDocs.Error.Basic
/-!
# Searches — operators, clauses and directions

The closed alternatives of a search and their written names.
-/


namespace ScopedDocs

/-- How a field is compared with the values of a test. -/
inductive SearchOperator where
  /-- The field equals the value. -/
  | equals
  /-- The field differs from the value. -/
  | notEquals
  /-- The field lies above the value. -/
  | greater
  /-- The field lies below the value. -/
  | less
  /-- The field lies at or above the value. -/
  | greaterOrEqual
  /-- The field lies at or below the value. -/
  | lessOrEqual
  /-- The text of the field contains the value, whatever the case. -/
  | contains
  /-- The text of the field starts with the value, whatever the case. -/
  | startsWith
  /-- The text of the field ends with the value, whatever the case. -/
  | endsWith
  /-- The field equals one of the values. -/
  | isIn
  /-- The field equals none of the values. -/
  | notIn
  deriving DecidableEq, Repr, Inhabited

namespace SearchOperator

/-- All operators. -/
def all : List SearchOperator :=
  [equals, notEquals, greater, less, greaterOrEqual, lessOrEqual, contains, startsWith, endsWith,
    isIn, notIn]

/-- The written name of an operator. -/
def name : SearchOperator → String
  | equals => "eq"
  | notEquals => "ne"
  | greater => "gt"
  | less => "lt"
  | greaterOrEqual => "gte"
  | lessOrEqual => "lte"
  | contains => "contains"
  | startsWith => "startswith"
  | endsWith => "endswith"
  | isIn => "in"
  | notIn => "nin"

/-- The operator of a written name, if there is one. -/
def ofName? (s : String) : Option SearchOperator := all.find? fun o => o.name == s

/-- The operator of a written name; there has to be one. -/
def ofName (s : String) : Except Error SearchOperator :=
  match ofName? s with
  | some o => .ok o
  | none => .error (.search (.unsupportedOperator s))

/-- Reading undoes writing. -/
@[simp] theorem ofName?_name (o : SearchOperator) : ofName? o.name = some o := by
  cases o <;> decide +kernel

end SearchOperator

/-- How the parts of an aggregation are combined. -/
inductive Clause where
  /-- All parts hold. -/
  | all
  /-- At least one part holds. -/
  | any
  deriving DecidableEq, Repr, Inhabited

namespace Clause

/-- The written name of a clause. -/
def name : Clause → String
  | all => "and"
  | any => "or"

/-- The connective of filters that a clause becomes. -/
def connective : Clause → String
  | all => "$and"
  | any => "$or"

/-- The clause of a written name, if there is one. -/
def ofName? (s : String) : Option Clause :=
  if s = "and" then some all else if s = "or" then some any else none

/-- Reading undoes writing. -/
@[simp] theorem ofName?_name (c : Clause) : ofName? c.name = some c := by
  cases c <;> simp [ofName?, name]

end Clause

/-- A direction of sorting. -/
inductive Direction where
  /-- The least first. -/
  | ascending
  /-- The greatest first. -/
  | descending
  deriving DecidableEq, Repr, Inhabited

namespace Direction

/-- The number that stands for a direction. -/
def toInt : Direction → Int
  | ascending => 1
  | descending => -1

/-- The direction a number stands for, if it stands for one. -/
def ofInt? (n : Int) : Option Direction :=
  if n = 1 then some ascending else if n = -1 then some descending else none

/-- Reading undoes writing. -/
@[simp] theorem ofInt?_toInt (d : Direction) : ofInt? d.toInt = some d := by
  cases d <;> simp [ofInt?, toInt]

/-- The written form of a direction. -/
def toJson (d : Direction) : Json := .ofInt d.toInt

/-- The direction a JSON value writes. -/
def ofJson? (value : Json) : Option Direction := (Json.Decode.int? value).bind ofInt?

end Direction

end ScopedDocs

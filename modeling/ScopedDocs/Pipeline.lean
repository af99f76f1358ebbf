import ScopedDocs.Json.Basic
/-!
# Pipelines — the stages of a query

A pipeline is a list of stages that documents pass through in order. A stage is
written as a document with one key, its operator (`Stage.toJson`), and read back
from it (`Stage.ofJson?`).
-/


namespace ScopedDocs

/-- A stage of a pipeline. -/
inductive Stage where
  /-- Keeps the documents that satisfy a filter. -/
  | filter (condition : Json)
  /-- Keeps or drops fields. -/
  | project (fields : Json)
  /-- Sorts by fields. -/
  | sort (keys : Json)
  /-- Leaves out so many documents at the start. -/
  | skip (count : Nat)
  /-- Keeps at most so many documents. -/
  | limit (count : Nat)
  deriving Inhabited

namespace Stage

/-- The operator of a stage. -/
def operator : Stage → String
  | filter _ => "$match"
  | project _ => "$project"
  | sort _ => "$sort"
  | skip _ => "$skip"
  | limit _ => "$limit"

/-- The operand of a stage. -/
def operand : Stage → Json
  | filter condition => condition
  | project fields => fields
  | sort keys => keys
  | skip count => .ofNat count
  | limit count => .ofNat count

/-- The document of a stage. -/
def toJson (s : Stage) : Json := .obj [(s.operator, s.operand)]

/-- The stage of an operator and its operand, if there is one. -/
def of? (operator : String) (operand : Json) : Option Stage :=
  if operator = "$match" then some (filter operand)
  else if operator = "$project" then some (project operand)
  else if operator = "$sort" then some (sort operand)
  else if operator = "$skip" then operand.nat?.map skip
  else if operator = "$limit" then operand.nat?.map limit
  else none

/-- The stage a document writes, if it writes one. -/
def ofJson? : Json → Option Stage
  | .obj [(operator, operand)] => of? operator operand
  | _ => none

/-- Reading undoes writing. -/
@[simp] theorem ofJson?_toJson (s : Stage) : ofJson? s.toJson = some s := by
  cases s <;> simp [toJson, ofJson?, of?, operator, operand, Json.ofNat, Json.ofInt, Json.nat?,
    Number.toNat?]

end Stage

/-- The stages of a query, in order. -/
abbrev Pipeline := List Stage

namespace Pipeline

/-- The first filter. -/
def filter? (p : Pipeline) : Option Json :=
  p.findSome? fun
    | .filter condition => some condition
    | _ => none

/-- The number of documents left out by the first stage that leaves some out. -/
def skipCount (p : Pipeline) : Nat :=
  (p.findSome? fun
    | .skip count => some count
    | _ => none).getD 0

/-- The number of documents kept by the first stage that limits it. -/
def limitCount? (p : Pipeline) : Option Nat :=
  p.findSome? fun
    | .limit count => some count
    | _ => none

/-- Replaces the condition of the first filter, if there is one. -/
def replaceFilter? (condition : Json) : Pipeline → Option Pipeline
  | [] => none
  | .filter _ :: rest => some (.filter condition :: rest)
  | stage :: rest => (replaceFilter? condition rest).map (stage :: ·)

/-- Sets the condition of the first filter; a pipeline without one gets one at
its start. -/
def withFilter (p : Pipeline) (condition : Json) : Pipeline :=
  (replaceFilter? condition p).getD (.filter condition :: p)

/-- The documents of the stages. -/
def toJson (p : Pipeline) : List Json := p.map Stage.toJson

end Pipeline

end ScopedDocs

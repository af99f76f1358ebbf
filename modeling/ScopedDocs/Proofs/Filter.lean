import ScopedDocs.Filter.Basic
import ScopedDocs.Proofs.Outcome
/-!
# Filters — what composed ones test

The connectives of filters read as those of truth values wherever every clause
can be tried (`Filter.holds_and`, `Filter.holds_or`). A filter is total
(`Filter.Total`) if it can be tried on every document, and confined
(`Filter.Confined`) to a test if outside that test it fails without an error.
-/


namespace ScopedDocs

namespace Filter

variable {document condition : Json} {clauses : List Json}

/-- Whether a document satisfies a filter that can be tried on it. -/
def satisfies (document condition : Json) : Bool :=
  match holds document condition with
  | .ok b => b
  | .error _ => false

/-- A filter that can be tried on every document. -/
def Total (condition : Json) : Prop :=
  ∀ document, holds document condition = .ok (satisfies document condition)

/-- A filter that no document outside a test satisfies, and that can be tried on
all of these. -/
def Confined (condition : Json) (test : Json → Bool) : Prop :=
  ∀ document, test document = false → holds document condition = .ok false

/-- A filter that can be tried answers whether it is satisfied. -/
theorem satisfies_of_holds {b : Bool} (h : holds document condition = .ok b) :
    satisfies document condition = b := by
  rw [satisfies, h]

/-- A document satisfies a filter just when the filter can be tried and holds. -/
theorem satisfies_iff :
    satisfies document condition = true ↔ holds document condition = .ok true := by
  unfold satisfies
  cases h : holds document condition <;> simp

/-- A filter with an answer for every document is total. -/
theorem total_of_holds {test : Json → Bool} (h : ∀ d, holds d condition = .ok (test d)) :
    Total condition := fun d => by rw [satisfies_of_holds (h d), h d]

/-! ## One key -/

/-- A filter of one key holds as its key does. -/
theorem holds_single (document : Json) (key : String) (value : Json) :
    holds document (.obj [(key, value)]) = memberHolds document key value := by
  rw [holds, membersHold]
  cases memberHolds document key value with
  | error e => rfl
  | ok b => cases b <;> rfl

/-- A text at a path is an equality test. -/
theorem holds_text {key : String} {segments : List String} (h : Key.of key = .path segments)
    (document : Json) (text : String) :
    holds document (.obj [(key, .str text)]) = .ok (equalsAt document segments (.str text)) := by
  rw [holds_single, memberHolds, valueHolds, h] <;> simp

/-! ## One operator -/

section

variable {segments : List String} {options name : String}

/-- An operator that takes no filter tests its operand. -/
theorem operatorHolds_test (h : Operator.ofName? name ≠ some .elemMatch) (operand : Json) :
    operatorHolds document segments options name operand =
      testHolds document segments options name operand := by
  cases operand with
  | obj members =>
    rw [operatorHolds]
    split
    · next heq => exact absurd heq h
    · rfl
  | _ => rfl

/-- One operator by itself. -/
theorem operatorsHold_single (operand : Json) :
    operatorsHold document segments options [(name, operand)] =
      operatorHolds document segments options name operand := by
  rw [operatorsHold, operatorsHold]
  cases operatorHolds document segments options name operand with
  | error e => rfl
  | ok b => cases b <;> rfl

/-- **A filter of one operator** at a path tests what the path reaches. -/
theorem holds_operator {key : String} (hkey : Key.of key = .path segments)
    (hword : isWord name = true) (hname : Operator.ofName? name ≠ some .elemMatch)
    (operand : Json) :
    holds document (.obj [(key, .obj [(name, operand)])]) =
      testHolds document segments (patternOptions [(name, operand)]) name operand := by
  have hoperators : areOperators [(name, operand)] = true := by simp [areOperators, hword]
  rw [holds_single, memberHolds, hkey]
  simp only [hoperators, ↓reduceIte, operatorsHold_single, operatorHolds_test hname]

end

/-! ## Lists of clauses -/

/-- Clauses that can be tried all hold if they are all satisfied. -/
theorem allHold_of_total (h : ∀ c ∈ clauses, holds document c = .ok (satisfies document c)) :
    allHold document clauses = .ok (clauses.all (satisfies document)) := by
  induction clauses with
  | nil => rfl
  | cons c rest ih =>
    rw [allHold, h c (by simp), ih fun e he => h e (by simp [he]), List.all_cons]
    cases satisfies document c <;> rfl

/-- One of some clauses that can be tried holds if one is satisfied. -/
theorem anyHolds_of_total (h : ∀ c ∈ clauses, holds document c = .ok (satisfies document c)) :
    anyHolds document clauses = .ok (clauses.any (satisfies document)) := by
  induction clauses with
  | nil => rfl
  | cons c rest ih =>
    rw [anyHolds, h c (by simp), ih fun e he => h e (by simp [he]), List.any_cons]
    cases satisfies document c <;> rfl

/-- **Clauses behind others** are tried only where those hold. -/
theorem allHold_append (first rest : List Json) :
    allHold document (first ++ rest) =
      (allHold document first >>= fun b => if b then allHold document rest else .ok false) := by
  induction first with
  | nil => rfl
  | cons c first ih =>
    simp only [List.cons_append, allHold, ih]
    cases holds document c with
    | error e => rfl
    | ok b => cases b <;> rfl

/-- A conjunction holds as its clauses do. -/
theorem holds_and (document : Json) (h : clauses ≠ []) :
    holds document (.obj [("$and", .arr clauses)]) = allHold document clauses := by
  have hkey : Key.of "$and" = .connective .and := rfl
  have hne : clauses.isEmpty = false := by simpa using h
  rw [holds_single, memberHolds, hkey]
  simp [hne]

/-- An alternative holds as some clause does. -/
theorem holds_or (document : Json) (h : clauses ≠ []) :
    holds document (.obj [("$or", .arr clauses)]) = anyHolds document clauses := by
  have hkey : Key.of "$or" = .connective .or := rfl
  have hne : clauses.isEmpty = false := by simpa using h
  rw [holds_single, memberHolds, hkey]
  simp [hne]

/-- A conjunction of total filters is total, and satisfied where all are. -/
theorem holds_and_of_total (hne : clauses ≠ []) (h : ∀ c ∈ clauses, Total c) (document : Json) :
    holds document (.obj [("$and", .arr clauses)]) = .ok (clauses.all (satisfies document)) := by
  rw [holds_and document hne, allHold_of_total fun c hc => h c hc document]

/-- An alternative of total filters is total, and satisfied where one is. -/
theorem holds_or_of_total (hne : clauses ≠ []) (h : ∀ c ∈ clauses, Total c) (document : Json) :
    holds document (.obj [("$or", .arr clauses)]) = .ok (clauses.any (satisfies document)) := by
  rw [holds_or document hne, anyHolds_of_total fun c hc => h c hc document]

end Filter

end ScopedDocs

import ScopedDocs.Error.Basic
import ScopedDocs.Json.Path
/-!
# Updates — changing a document in place

An update is a document whose keys say what to do (`$set`, `$unset`) with the
fields of their values. `Update.apply` does it in order, or not at all.
-/


namespace ScopedDocs

namespace Update

/-- Sets fields, in order. -/
def setAll (document : Json) : Members Json → Except Error Json
  | [] => .ok document
  | (path, value) :: rest =>
    match Json.setAt? value (Dotted.segments path) document with
    | some document => setAll document rest
    | none => .error (.ofFault .blockedPath)

/-- One step of an update. -/
def step (document : Json) (operator : String) (fields : Members Json) : Except Error Json :=
  if operator = "$set" then setAll document fields
  else if operator = "$unset" then .ok (document.removeAll fields.keys)
  else .error (.ofFault (.unsupportedOperator operator))

/-- The steps of an update, in order. -/
def steps (document : Json) : Members Json → Except Error Json
  | [] => .ok document
  | (operator, .obj fields) :: rest => do
    let document ← step document operator fields
    steps document rest
  | (operator, _) :: _ => .error (.ofFault (.notADocument operator))

/-- **Applying an update** to a document. -/
def apply (update document : Json) : Except Error Json :=
  match update with
  | .obj operators => steps document operators
  | _ => .error (.ofFault (.notADocument "update"))

end Update

end ScopedDocs

import ScopedDocs.Filter.Basic
import ScopedDocs.Json.Text
import ScopedDocs.Pipeline
import ScopedDocs.Projection
import ScopedDocs.Sorting.Basic
/-!
# The store — rows of a pipeline

What the stages of a pipeline make of a list of documents. `Rows.run` takes
stages as they are written and refuses those no pipeline has; a stage is refused
only when its turn comes. By an order, sorting keeps equal documents as they came;
where documents compare by none, it may end the program (`Rows.sortBy`).
-/


namespace ScopedDocs

namespace Rows

/-- The documents that satisfy a filter. -/
def select (condition : Json) (documents : List Json) : Except Error (List Json) :=
  documents.filterM fun document => Filter.holds document condition

/-- The order of two documents by one sort key. Any direction but minus one is
ascending. -/
def compareBy (path : String) (direction a b : Json) : Ordering :=
  let order := Json.sortOrder (a.first? path) (b.first? path)
  match direction with
  | .num (.int n) => if n = -1 then order.swap else order
  | _ => order

/-- The order of two documents: by the first sort key that tells them apart. -/
def compareAll (keys : Members Json) (a b : Json) : Ordering :=
  match keys with
  | [] => .eq
  | (path, direction) :: rest => (compareBy path direction a b).then (compareAll rest a b)

/-- **Sorting values.** Their places are sorted, which is all there is to see of them but
for how they compare. It is none where sorting gives up, as it may by what is no order. -/
def sortWith {α : Type} (precedes : α → α → Bool) (values : List α) : Option (List α) :=
  (Sorting.sorted? (fun i j => precedes (values.get i) (values.get j))
    (List.finRange values.length)).map (List.map values.get)

/-- Sorts documents by keys. -/
def sortBy (keys : Members Json) (documents : List Json) : Except Error (List Json) :=
  match sortWith (fun a b => compareAll keys a b == .lt) documents with
  | some rows => .ok rows
  | none => .error .noOrder

/-- A stage no pipeline has. -/
def unsupported {α : Type} (stage : Json) : Except Error α :=
  .error (.ofFault (.unsupportedStage stage.text))

/-- What a stage makes of documents. A projection and a sort order have to be
documents. -/
def applyStage (documents : List Json) (stage : Stage) : Except Error (List Json) :=
  match stage with
  | .filter condition => select condition documents
  | .project (.obj fields) => .ok (documents.map (Projection.row fields))
  | .sort (.obj keys) => sortBy keys documents
  | .skip count => .ok (documents.drop count)
  | .limit count => .ok (documents.take count)
  | stage => unsupported stage.toJson

/-- **What a pipeline makes of documents**, stage by stage. -/
def run (documents : List Json) (stages : List Json) : Except Error (List Json) :=
  stages.foldlM (fun rows stage =>
    match Stage.ofJson? stage with
    | some stage => applyStage rows stage
    | none => unsupported stage) documents

end Rows

end ScopedDocs

import ScopedDocs.Json.Path
import ScopedDocs.Schema.Basic
/-!
# Projections — the shape of rows

A projection lists paths with flags. If some flag other than that of the primary
key is set, the row holds the flagged paths, and the primary key unless its flag
says otherwise; if none is, the row is the document without all listed paths.
-/


namespace ScopedDocs

namespace Projection

/-- Whether a flag is set. -/
def isSet : Json → Bool
  | .bool b => b
  | .num n => !n.toDouble.isZero
  | _ => true

/-- The paths to pick, the primary key apart. -/
def picked (fields : Members Json) : List String :=
  Members.keys (fields.filter fun (path, flag) => path != Schema.idPath && isSet flag)

/-- Whether a row that picks paths keeps the primary key. -/
def keepsId (fields : Members Json) : Bool :=
  (fields.lookup Schema.idPath).all isSet

/-- Copies paths of a document into a row, in order. -/
def copyAll (document row : Json) (paths : List String) : Json :=
  paths.foldl (fun row path => Json.copyAt (Dotted.segments path) document row) row

/-- **The row of a document.** -/
def row (fields : Members Json) (document : Json) : Json :=
  if (picked fields).isEmpty then document.removeAll fields.keys
  else
    copyAll document (.obj []) ((if keepsId fields then [Schema.idPath] else []) ++ picked fields)

end Projection

end ScopedDocs

import ScopedDocs.Schema.Basic
import ScopedDocs.Text.Quoted
/-!
# Schemas — one for each entity type

The schemas of all entity types, by their names. An entity type is registered
once.
-/


namespace ScopedDocs

/-- The schemas of entity types, sorted. -/
structure Registry where
  /-- The schemas by entity type. -/
  schemas : Members Schema := []

namespace Registry

/-- Registers a schema under its entity type. -/
def register (r : Registry) (s : Schema) : Except Error Registry :=
  match r.schemas.lookup s.entityType with
  | some _ => .error (.schema (.alreadyRegistered s.entityType))
  | none => .ok ⟨r.schemas.putSorted s.entityType s⟩

/-- The schema of an entity type, if it is registered. -/
def get? (r : Registry) (entityType : String) : Option Schema := r.schemas.lookup entityType

/-- The schema of an entity type, which has to be registered. -/
def require (r : Registry) (entityType : String) : Except Error Schema :=
  match r.get? entityType with
  | some s => .ok s
  | none => .error (.schema (.notRegistered entityType))

/-- The number of schemas. -/
def size (r : Registry) : Nat := r.schemas.length

/-- The registered entity types, sorted. -/
def entityTypes (r : Registry) : List String := r.schemas.keys

/-- The registry in words. -/
def describe (r : Registry) : String :=
  "SchemaRegistry \x7b entity_types: " ++ quotedTexts r.entityTypes ++ " \x7d"

end Registry

end ScopedDocs

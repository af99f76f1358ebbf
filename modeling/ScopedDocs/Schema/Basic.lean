import ScopedDocs.Schema.Field
import ScopedDocs.Schema.Index
import ScopedDocs.Text.Blank
/-!
# Schemas — what callers may name, and where it is stored

A schema maps the logical names that callers use to storage paths
(`Schema.resolve`) and says which of them callers may search by
(`Schema.checkQueryable`). A name resolves by its own mapping, by the mapping of
a wildcard above it, or down the tree of declared fields, in this order.
-/


namespace ScopedDocs

/-- Where a logical field is stored. -/
structure Resolved where
  /-- The storage path. -/
  path : String
  /-- Whether a test has to hold for an element of the value, not for the value
  itself. -/
  elementMatch : Bool
  deriving DecidableEq

/-- The access schema of an entity type. -/
structure Schema where
  /-- The entity type. -/
  entityType : String
  /-- The collection its records are stored in. -/
  collection : String
  /-- The fields that are allowed or denied, sorted. -/
  access : Members Bool
  /-- The fields that are mapped to storage paths, sorted. -/
  mapping : Members String
  /-- The declared fields, sorted. -/
  fields : Members Field
  /-- The indexes of the collection. -/
  indexes : List Index := []
  /-- The storage path of the idempotency key, if there is one. -/
  idempotencyPath : Option String := none

namespace Schema

/-- The storage path of the primary key. -/
def idPath : String := "_id"

/-- The storage path down the tree of declared fields, and the field at its
end. -/
def walk (s : Schema) (logical : String) : Except Error (String × Option Field) :=
  let found := match Dotted.segments logical with
    | first :: rest => (s.fields.lookup first).bind fun f => f.descend? rest
    | [] => none
  match found with
  | some (names, last) => .ok (Dotted.join names, last)
  | none => .error (.schema (.unknownField logical))

/-- The storage path by the mapping of the nearest wildcard above a name. What
follows the wildcard's stem is kept as it is. -/
def viaWildcard? (s : Schema) (logical : String) : Option String :=
  (Dotted.ancestors (Dotted.segments logical)).findSome? fun (above, below) =>
    (s.mapping.lookup (Dotted.wildcard (Dotted.join above))).map fun base =>
      base ++ "." ++ Dotted.join below

/-- **Resolution.** Where a logical field is stored. A wildcard resolves to the
path of its stem, and asks for element tests where that path is nested or holds
an array. -/
def resolve (s : Schema) (logical : String) : Except Error Resolved :=
  if logical.isEmpty || logical == Dotted.wildcardEnding || trimmed logical != logical then
    .error (.schema .emptyField)
  else
    match Dotted.stem? logical with
    | some stem =>
      match (s.mapping.lookup logical).orElse fun _ => s.mapping.lookup stem with
      | some path => .ok ⟨path, Dotted.isNested path⟩
      | none => do
        let (path, last) ← s.walk stem
        .ok ⟨path, Dotted.isNested path || last.any Field.isArray⟩
    | none =>
      match (s.mapping.lookup logical).orElse fun _ => s.viaWildcard? logical with
      | some path => .ok ⟨path, false⟩
      | none => do
        let (path, _) ← s.walk logical
        .ok ⟨path, false⟩

/-- **What callers may search by.** A plain name has to be allowed. A wildcard
passes if neither it nor its stem is denied and it, its stem, or a name below
the stem is allowed. -/
def checkQueryable (s : Schema) (logical : String) : Except Error Unit :=
  if logical.isEmpty then .error (.schema .emptyField)
  else
    match Dotted.stem? logical with
    | some stem =>
      let denied := [stem, logical].any fun key => s.access.lookup key == some false
      let allowed := s.access.any fun (entry, allowed) =>
        allowed && (entry == stem || entry == logical || Dotted.isBelow stem entry)
      if denied || !allowed then .error (.schema (.wildcardDenied stem)) else .ok ()
    | none =>
      if s.access.lookup logical = some true then .ok ()
      else .error (.schema (.notQueryable logical))

/-- Where a field is stored that callers may search by. -/
def resolveQueryable (s : Schema) (logical : String) : Except Error Resolved := do
  s.checkQueryable logical
  s.resolve logical

/-- Whether a name, one above it or one below it is denied. -/
def touchesDenied (s : Schema) (logical : String) : Bool :=
  let base := Dotted.stem logical
  s.access.any fun (entry, allowed) =>
    let entry := Dotted.stem entry
    !allowed && (entry == base || Dotted.isBelow base entry || Dotted.isBelow entry base)

/-- Where a field is stored that callers sort by or pick. It need not be
allowed, but nothing denied may be in its way. -/
def resolveUnrestricted (s : Schema) (logical : String) : Except Error Resolved :=
  if s.touchesDenied logical then .error (.schema (.notQueryable logical)) else s.resolve logical

/-- The allowed names, sorted. -/
def allowed (s : Schema) : List String := (s.access.filter (·.2)).map (·.1)

/-- The denied names, sorted. -/
def denied (s : Schema) : List String := (s.access.filter (!·.2)).map (·.1)

/-- The schema as a document, for those who ask what it holds. -/
def describe (s : Schema) : Json :=
  .obj [("entity_type", .str s.entityType), ("collection", .str s.collection),
    ("queryable", .ofStrings s.allowed), ("denied", .ofStrings s.denied),
    ("mapped", .obj (s.mapping.map fun (logical, path) => (logical, .str path))),
    ("indexes", .arr (s.indexes.map Index.toJson))]

end Schema

end ScopedDocs

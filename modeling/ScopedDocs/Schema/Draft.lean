import ScopedDocs.Schema.Basic
import ScopedDocs.Search.Basic
/-!
# Schemas — declaring one

A draft collects declarations in any order, and `Draft.build` checks them and
makes the schema. Whatever it accepts is sound: storage paths are well formed,
none of them is where owners are stored, and every field that is allowed or
indexed resolves.
-/


namespace ScopedDocs

namespace Schema

/-- An index over logical fields. -/
structure IndexDraft where
  /-- Its name. -/
  name : String
  /-- The fields, in order. -/
  keys : List (String × Direction)
  /-- Whether two documents may not agree on all keys. -/
  unique : Bool
  /-- Whether documents without any of the keys are left out. -/
  sparse : Bool

/-- The declarations of a schema. -/
structure Draft where
  /-- The entity type. -/
  entityType : String
  /-- The collection its records are stored in. -/
  collection : String
  /-- The fields allowed or denied so far, sorted. -/
  access : Members Bool
  /-- The mappings so far, sorted. -/
  mapping : Members String
  /-- The fields declared so far. -/
  fields : List Field := []
  /-- The indexes declared so far. -/
  indexes : List IndexDraft := []
  /-- The field of the idempotency key, if one is declared. -/
  idempotencyKey : Option String := none

namespace Draft

/-- The draft of an entity type. The primary key is there from the start. -/
def start (entityType collection : String) : Draft :=
  { entityType, collection, access := [(Search.idField, true)],
    mapping := [(Search.idField, idPath)] }

/-- Allows or denies fields. What is declared last counts. -/
def grant (d : Draft) (allowed : Bool) (names : List String) : Draft :=
  { d with access := names.foldl (fun m name => m.putSorted name allowed) d.access }

/-- Allows fields to be searched by. -/
def queryable (d : Draft) (names : List String) : Draft := d.grant true names

/-- Denies fields. -/
def deny (d : Draft) (names : List String) : Draft := d.grant false names

/-- Maps a logical name, or all names below a stem, to a storage path. -/
def map (d : Draft) (logical storage : String) : Draft :=
  { d with mapping := d.mapping.putSorted logical storage }

/-- Declares a field of the entity. -/
def field (d : Draft) (f : Field) : Draft := { d with fields := d.fields ++ [f] }

/-- Declares an index. -/
def index (d : Draft) (name : String) (keys : List (String × Direction)) : Draft :=
  { d with indexes := d.indexes ++ [⟨name, keys, false, false⟩] }

/-- Declares an index that refuses documents agreeing on all fields. -/
def uniqueIndex (d : Draft) (name : String) (fields : List String) : Draft :=
  { d with indexes := d.indexes ++ [⟨name, fields.map (·, .ascending), true, true⟩] }

/-- Declares the field of the idempotency key, with a unique index. -/
def idempotent (d : Draft) (field : String) : Draft :=
  { d.uniqueIndex "idempotency_key_unique" [field] with idempotencyKey := some field }

/-- Whether a storage path is where owners are stored, or below it. -/
def isOwnerPath (path : String) : Bool := path == Owner.path || Dotted.isBelow Owner.path path

/-- Whether anything is stored where owners are. -/
def claimsOwnership (d : Draft) : Bool :=
  (d.fields.any fun f => f.storage == Owner.path) || d.mapping.any fun (_, path) => isOwnerPath path

/-- The index of a draft. -/
def buildIndex (s : Schema) (i : IndexDraft) : Except Error Index :=
  if i.keys.isEmpty then .error (.schema (.invalidMapping i.name .noIndexKeys))
  else do
    let keys ← i.keys.mapM fun (field, direction) =>
      (s.resolve field).map fun r => (⟨r.path, direction⟩ : IndexKey)
    .ok ⟨i.name, keys, i.unique, i.sparse⟩

/-- **The schema of a draft.** The first fault counts: of mappings, of fields,
of ownership, of allowed fields, of indexes, of the idempotency key. -/
def build (d : Draft) : Except Error Schema := do
  d.mapping.forM fun (logical, storage) => Field.checkPath logical storage
  d.fields.forM Field.check
  if d.claimsOwnership then
    .error (.schema (.invalidMapping Owner.path .ownership))
  let s : Schema :=
    { entityType := d.entityType, collection := d.collection, access := d.access,
      mapping := d.mapping, fields := Field.index d.fields }
  s.allowed.forM fun name => do
    let _ ← s.resolve name
  let indexes ← d.indexes.mapM (buildIndex s)
  match d.idempotencyKey with
  | none => .ok { s with indexes }
  | some field => do
    let r ← s.resolve field
    .ok { s with indexes, idempotencyPath := some r.path }

end Draft

end Schema

end ScopedDocs

import ScopedDocs.Owner
/-!
# Records — what repositories store

A repository stores values of any type that can be written and read back and
that carry an identifier and an owner (`Entity`). The common fields of records
(`RecordBase`) and records with any further fields (`Record`) are such types.
-/


namespace ScopedDocs

/-- A type of stored values. -/
structure Entity (α : Type) where
  /-- The stored form of a value. -/
  toJson : α → Json
  /-- The value a stored form holds, if it holds one. -/
  ofJson? : Json → Option α
  /-- The primary key. -/
  id : α → Uuid
  /-- The value under another owner. -/
  withOwner : Owner → α → α
  /-- The key by which a second submission is known, if the value has one. -/
  idempotencyKey : α → Option String := fun _ => none
  /-- The value as changed at an instant. -/
  touch : Instant → α → α := fun _ a => a

/-- The fields all records have. -/
structure RecordBase where
  /-- The primary key. -/
  id : Uuid
  /-- The owner. -/
  owner : Owner
  /-- When the record was made. -/
  createdAt : Instant
  /-- When the record was last changed. -/
  updatedAt : Instant
  deriving DecidableEq, Inhabited

namespace RecordBase

/-- The keys of the fields, in order. -/
def keys : List String := ["_id", Owner.path, "created_at", "updated_at"]

/-- The fields of a new record. -/
def new (id : Uuid) (now : Instant) (owner : Owner) : RecordBase := ⟨id, owner, now, now⟩

/-- The stored form, field by field. -/
def members (b : RecordBase) : Members Json :=
  [("_id", .str b.id.text), (Owner.path, b.owner.toJson), ("created_at", .str b.createdAt.text),
    ("updated_at", .str b.updatedAt.text)]

/-- The stored form. -/
def toJson (b : RecordBase) : Json := .obj b.members

/-- The fields of a stored form, if all are there. -/
def ofJson? (value : Json) : Option RecordBase :=
  open Json.Decode in
  match fields? keys value with
  | some [id, owner, createdAt, updatedAt] => do
    let id ← required? uuid? id
    let owner ← required? Owner.ofJson? owner
    let createdAt ← required? instant? createdAt
    let updatedAt ← required? instant? updatedAt
    some ⟨id, owner, createdAt, updatedAt⟩
  | _ => none

end RecordBase

/-- A record with any further fields. -/
structure Record where
  /-- The fields all records have. -/
  base : RecordBase
  /-- The further fields, in order. -/
  extra : Members Json
  deriving Inhabited

namespace Record

/-- The stored form: the common fields, and then the others. -/
def toJson (r : Record) : Json := .obj (r.base.members ++ r.extra)

/-- The record of a stored form, which has to be an object. -/
def ofJson? : Json → Option Record
  | .obj members =>
    (RecordBase.ofJson? (.obj members)).map fun base =>
      ⟨base, members.filter fun (key, _) => !RecordBase.keys.contains key⟩
  | _ => none

/-- The record under another owner. -/
def withOwner (owner : Owner) (r : Record) : Record := { r with base.owner := owner }

/-- The idempotency key: the further field of this name, if it is a string. -/
def idempotencyKey (r : Record) : Option String :=
  (r.extra.lookup "idempotency_key").bind Json.string?

/-- The record as changed at an instant. -/
def touch (now : Instant) (r : Record) : Record := { r with base.updatedAt := now }

/-- Records as stored values, with idempotency keys and times of change. -/
def entity : Entity Record :=
  { toJson, ofJson?, id := (·.base.id), withOwner, idempotencyKey, touch }

/-- Records as stored values, without idempotency keys and times of change. -/
def plainEntity : Entity Record := { toJson, ofJson?, id := (·.base.id), withOwner }

end Record

end ScopedDocs

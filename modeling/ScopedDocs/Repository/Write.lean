import ScopedDocs.Repository.Basic
/-!
# Repositories — writing

Every write takes the owner of a record from the request, never from the record,
and a changed record keeps the owner it is stored under. A record with an
idempotency key is stored once: the second time the stored one is the answer
(`Repository.createIdempotent`).
-/


namespace ScopedDocs

/-- What became of a record with an idempotency key. -/
inductive IdempotentResult (α : Type) where
  /-- The record is stored now. -/
  | created (record : α)
  /-- A record with this key was there before; this is it. -/
  | alreadyExists (record : α)

namespace IdempotentResult

/-- Whether the record is stored now. -/
def isCreated {α : Type} : IdempotentResult α → Bool
  | created _ => true
  | alreadyExists _ => false

/-- The stored record. -/
def record {α : Type} : IdempotentResult α → α
  | created record => record
  | alreadyExists record => record

end IdempotentResult

namespace Repository

variable {α : Type}

/-- **Storing** a record under the caller's ownership. -/
def create (repo : Repository α) (r : Request) (record : α) : StoreM α := do
  let owner ← Store.answer r.owner
  let record := repo.entity.withOwner owner record
  repo.call r (Store.insertOne repo.collection (repo.entity.toJson record))
  pure record

/-- Stores records in order, up to the first that is refused. -/
def createMany (repo : Repository α) (r : Request) (records : List α) : StoreM (List α) := do
  if records.isEmpty then pure []
  else do
    let owner ← Store.answer r.owner
    let records := records.map (repo.entity.withOwner owner)
    repo.call r (Store.insertMany repo.collection (records.map repo.entity.toJson))
    pure records

/-- Stores records, all of them or none. -/
def createManyAtomic (repo : Repository α) (r : Request) (records : List α) : StoreM (List α) := do
  if records.isEmpty then Store.answer (.error (.transaction .emptyBatch))
  else do
    let owner ← Store.answer r.owner
    let records := records.map (repo.entity.withOwner owner)
    repo.call r (Store.transaction
      (records.map fun record => .insert repo.collection (repo.entity.toJson record)))
    pure records

/-- The filter of a tenant's record by its idempotency key. -/
def keyFilter (path key : String) (owner : Owner) : Json :=
  .obj (Members.put (Owner.levelPath .tenant) (.str owner.tenant.text) [(path, .str key)])

/-- The record of the caller's tenant that has an idempotency key. A key that is
taken by another tenant stays that tenant's. -/
def existing (repo : Repository α) (r : Request) (path key : String) : StoreM α := do
  let owner ← Store.answer r.owner
  match ← repo.findFirst r (keyFilter path key owner) with
  | some document => Store.answer (repo.decode document)
  | none =>
    Store.answer (.error (.record (.alreadyExists repo.schema.entityType "idempotency_key")))

/-- **Storing a record once.** If the store refuses it for a taken key, the
record with its idempotency key is the answer. A record without a key is stored
plainly. -/
def createIdempotent (repo : Repository α) (r : Request) (record : α) :
    StoreM (IdempotentResult α) := do
  match repo.entity.idempotencyKey record with
  | none => .created <$> repo.create r record
  | some key =>
    match repo.schema.idempotencyPath with
    | none =>
      Store.answer (.error (.schema
        (.invalidMapping "idempotency_key" (.noIdempotencyKey repo.schema.entityType))))
    | some path =>
      tryCatch (.created <$> repo.create r record) fun e =>
        if e.isDuplicateKey then .alreadyExists <$> repo.existing r path key
        else Store.answer (.error e)

/-- The owner of a stored document. -/
def storedOwner (repo : Repository α) (document : Json) : Except Error Owner :=
  match document.get? Owner.path with
  | none => .error (.record (.ownerless repo.schema.entityType))
  | some value =>
    match Owner.ofJson? value with
    | some owner => .ok owner
    | none => .error (.store (.undecodable "not an owner"))

/-- **Replacing a record** the caller may change. It keeps its stored owner. -/
def update (repo : Repository α) (now : Instant) (r : Request) (record : α) : StoreM α := do
  let id := repo.entity.id record
  let condition ← Store.answer (repo.ownedFilter r id)
  match ← repo.findFirst r condition with
  | none => Store.answer (repo.notFound id)
  | some stored => do
    let owner ← Store.answer (repo.storedOwner stored)
    let record := repo.entity.touch now (repo.entity.withOwner owner record)
    let written ←
      repo.call r (Store.replaceOne repo.collection condition (repo.entity.toJson record))
    if written.matched = 0 then Store.answer (repo.notFound id) else pure record

/-- **Deleting a record** the caller may change. -/
def delete (repo : Repository α) (r : Request) (id : Uuid) : StoreM Unit := do
  let condition ← Store.answer (repo.ownedFilter r id)
  let deleted ← repo.call r (Store.deleteOne repo.collection condition)
  if deleted = 0 then Store.answer (repo.notFound id) else pure ()

/-- Makes the indexes the schema declares. -/
def ensureIndexes (repo : Repository α) : StoreM Unit :=
  repo.schema.indexes.forM (Store.createIndex repo.collection)

end Repository

end ScopedDocs

import ScopedDocs.Config.Codec
import ScopedDocs.Guard
import ScopedDocs.Record
import ScopedDocs.Search.Plan
import ScopedDocs.Store.Write
/-!
# Repositories — records in scope

A repository stores the records of one entity type in a collection. A request
that has ended touches nothing (`Repository.call`), and changes reach only
records the caller sees (`Repository.ownedFilter`).
-/


namespace ScopedDocs

/-- A repository of the records of one entity type. -/
structure Repository (α : Type) where
  /-- The schema of the entity type. -/
  schema : Schema
  /-- The limits and defaults. -/
  config : Config
  /-- How records are stored. -/
  entity : Entity α

namespace Repository

variable {α : Type}

/-- A repository with a configuration that makes sense. -/
def new (schema : Schema) (config : Config) (entity : Entity α) : Except Error (Repository α) := do
  config.validate
  .ok ⟨schema, config, entity⟩

/-- The collection of the records. -/
def collection (repo : Repository α) : String := repo.schema.collection

/-- **A call of the store** for a request, which has to be running. The
configuration may shorten its time. -/
def call {β : Type} (repo : Repository α) (r : Request) (action : StoreM β) : StoreM β := do
  let r := match repo.config.queryTimeout with
    | some span => r.withTimeout span.length
    | none => r
  Store.answer r.check
  action

/-- A reading call of the store. -/
def query {β : Type} (repo : Repository α) (r : Request) (read : Store → Except Error β) :
    StoreM β :=
  repo.call r (ExceptT.mk fun s => (read s, s))

/-- The record of a stored document. -/
def decode (repo : Repository α) (document : Json) : Except Error α :=
  match repo.entity.ofJson? document with
  | some record => .ok record
  | none => .error (.store (.undecodable ("not a record of " ++ repo.schema.entityType)))

/-- The filter of one record by its primary key. -/
def idFilter (id : Uuid) : Json := .obj [(Schema.idPath, .str id.text)]

/-- **The filter of a record the caller may change.** -/
def ownedFilter (repo : Repository α) (r : Request) (id : Uuid) : Except Error Json :=
  (Guard.ownershipFilter r repo.config.defaultAudience).map fun ownership =>
    .obj [("$and", .arr [idFilter id, ownership])]

/-- A record that is not there, or not the caller's to see. -/
def notFound {β : Type} (repo : Repository α) (id : Uuid) : Except Error β :=
  .error (.record (.notFound repo.schema.entityType id.text))

/-- The first document that satisfies a filter. -/
def findFirst (repo : Repository α) (r : Request) (condition : Json) : StoreM (Option Json) := do
  let documents ← repo.query r fun s => s.find repo.collection condition { limit := some 1 }
  pure documents.head?

/-! ## In words -/

/-- The repository in words. -/
def describe (repo : Repository α) : String :=
  "DocumentRepository \x7b entity_type: " ++ quotedText repo.schema.entityType ++
    ", collection: " ++ quotedText repo.collection ++ ", config: " ++ repo.config.describe ++ " \x7d"

end Repository

end ScopedDocs

import ScopedDocs.Repository.Basic
/-!
# Repositories — reading

Every search is planned by the schema and enforced by the guard before the store
sees it (`Repository.explain`). Only a record asked for by its primary key is
answered whoever owns it (`Repository.getById`).
-/


namespace ScopedDocs

namespace Repository

variable {α : Type}

/-- **The pipeline of a search**, within the scope it declares. -/
def explain (repo : Repository α) (r : Request) (search : Search) : Except Error Pipeline := do
  let plan ← search.plan repo.config repo.schema
  Guard.enforcePipeline plan search.visibility r

/-- The records a search finds. -/
def search (repo : Repository α) (r : Request) (search : Search) : StoreM (List α) := do
  let pipeline ← Store.answer (repo.explain r search)
  let documents ← repo.query r fun s => s.aggregate repo.collection pipeline.toJson
  Store.answer (documents.mapM repo.decode)

/-- The number of records a search matches, whatever its page. -/
def count (repo : Repository α) (r : Request) (search : Search) : StoreM Nat := do
  let condition ← Store.answer (filterOf repo.config repo.schema search.aggregations)
  let enforced ← Store.answer (Guard.enforce condition search.visibility r)
  repo.query r fun s => s.count repo.collection enforced

/-- The record of a primary key, whoever owns it. -/
def getById (repo : Repository α) (r : Request) (id : Uuid) : StoreM (Option α) := do
  match ← repo.findFirst r (idFilter id) with
  | some document => some <$> Store.answer (repo.decode document)
  | none => pure none

/-- A search for what aggregations describe, at the default audience and with
the default page size where none is asked for. It has to have a plan. -/
def compile (repo : Repository α) (r : Request) (aggregations : List Aggregation)
    (options : ResultOptions) : Except Error Search := do
  let limit := if options.limit = 0 then repo.config.defaultPageSize else options.limit
  let search :=
    Search.byAggregations r aggregations { options with limit } repo.config.defaultAudience
  search.validate repo.config repo.schema
  .ok search

end Repository

end ScopedDocs

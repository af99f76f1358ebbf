import ScopedDocs.Store.Collection
import ScopedDocs.Store.Rows
import ScopedDocs.Text.Quoted
/-!
# The store — documents in memory

A store is a set of named collections. A collection that is not there is empty,
and reading never makes one.
-/


namespace ScopedDocs

/-- A store of documents. -/
structure Store where
  /-- The collections, sorted by name. -/
  collections : Members Collection := []
  deriving Inhabited

/-- What to look for, and which part of it. -/
structure FindOptions where
  /-- The sort order. -/
  sort : Option Json := none
  /-- How many documents to leave out. -/
  skip : Nat := 0
  /-- How many documents to return at most. -/
  limit : Option Nat := none
  /-- The projection. -/
  projection : Option Json := none

namespace Store

/-- The name of the store. -/
def name : String := "memory"

/-- A collection; one that is not there is empty. -/
def collection (s : Store) (name : String) : Collection := (s.collections.lookup name).getD {}

/-- The documents of a collection. -/
def documents (s : Store) (name : String) : List Json := (s.collection name).documents

/-- The indexes of a collection. -/
def indexes (s : Store) (name : String) : List Index := (s.collection name).indexes

/-- The number of documents of a collection. -/
def size (s : Store) (name : String) : Nat := (s.documents name).length

/-- Puts a collection in place. -/
def put (s : Store) (name : String) (c : Collection) : Store :=
  ⟨s.collections.putSorted name c⟩

/-- The store in words. -/
def describe (s : Store) : String :=
  "MemoryStore \x7b collections: " ++ quotedTexts s.collections.keys ++ ", .. \x7d"

/-! ## Reading -/

/-- What a pipeline makes of a collection. -/
def aggregate (s : Store) (name : String) (stages : List Json) : Except Error (List Json) :=
  Rows.run (s.documents name) stages

/-- The pipeline of a search by filter. -/
def FindOptions.stages (o : FindOptions) (condition : Json) : List Json :=
  [Json.obj [("$match", condition)]] ++
    (o.sort.map fun keys => Json.obj [("$sort", keys)]).toList ++
    (if 0 < o.skip then [Json.obj [("$skip", .ofNat o.skip)]] else []) ++
    (o.limit.map fun count => Json.obj [("$limit", .ofNat count)]).toList ++
    (o.projection.map fun fields => Json.obj [("$project", fields)]).toList

/-- The documents of a collection that satisfy a filter. -/
def find (s : Store) (name : String) (condition : Json) (o : FindOptions) :
    Except Error (List Json) :=
  s.aggregate name (FindOptions.stages o condition)

/-- The number of documents of a collection that satisfy a filter. The filter is
not looked at where there is no collection. -/
def count (s : Store) (name : String) (condition : Json) : Except Error Nat :=
  (s.collection name).count condition

end Store

end ScopedDocs

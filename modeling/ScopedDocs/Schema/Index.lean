import ScopedDocs.Search.Operator
/-!
# Schemas — indexes

An index of a collection: the storage paths it covers and whether it refuses
documents that agree on all of them.
-/


namespace ScopedDocs

/-- A key of an index. -/
structure IndexKey where
  /-- The storage path. -/
  path : String
  /-- The order of the key. -/
  direction : Direction
  deriving DecidableEq

/-- An index of a collection. -/
structure Index where
  /-- Its name. -/
  name : String
  /-- Its keys, in order. -/
  keys : List IndexKey
  /-- Whether two documents may not agree on all keys. -/
  unique : Bool
  /-- Whether documents without any of the keys are left out. -/
  sparse : Bool
  deriving DecidableEq

namespace Index

/-- The storage paths of the keys. -/
def paths (i : Index) : List String := i.keys.map (·.path)

/-- The written form of an index. -/
def toJson (i : Index) : Json :=
  .obj [("name", .str i.name),
    ("keys", .arr (i.keys.map fun k =>
      .obj [("path", .str k.path), ("direction", k.direction.toJson)])),
    ("unique", .bool i.unique), ("sparse", .bool i.sparse)]

end Index

end ScopedDocs

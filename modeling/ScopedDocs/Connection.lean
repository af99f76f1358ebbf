import ScopedDocs.Config.Settings
/-!
# Connections — where a database server is

The address of a database server and the name of the database on it.
-/


namespace ScopedDocs

/-- Where the database of a store is. -/
structure Connection where
  /-- The connection string of the server. -/
  uri : String := "mongodb://localhost:27017"
  /-- The name of the database. -/
  database : String := "arena"
  deriving DecidableEq, Inhabited

namespace Connection

/-- The setting of the connection string. -/
def uriSetting : String := "ARENA_MONGODB_URI"

/-- The setting of the database's name. -/
def databaseSetting : String := "ARENA_MONGODB_DATABASE"

/-- The schemes of connection strings. -/
def schemes : List String := ["mongodb://", "mongodb+srv://"]

/-- The characters no name of a database holds. -/
def forbidden : List Char := ['/', '.', ' ', '$']

/-- **Whether a connection makes sense.** The first fault counts. -/
def validate (c : Connection) : Except Error Unit :=
  if !schemes.any fun scheme => scheme.toList.isPrefixOf c.uri.toList then
    Config.invalid uriSetting .badConnectionString
  else if c.database.isEmpty || c.database.toList.any forbidden.contains then
    Config.invalid databaseSetting .badDatabaseName
  else .ok ()

/-- **Reading from settings.** A setting that is not set keeps its default, and
the result has to make sense. -/
def ofSettings (settings : Settings) : Except Error Connection := do
  let base : Connection := {}
  let c : Connection :=
    ⟨(settings uriSetting).getD base.uri, (settings databaseSetting).getD base.database⟩
  c.validate
  .ok c

/-- The written form of a connection. -/
def toJson (c : Connection) : Json := .obj [("uri", .str c.uri), ("database", .str c.database)]

/-- **Reading.** The connection a JSON value writes; both fields may be
missing. -/
def ofJson? (value : Json) : Option Connection :=
  open Json.Decode in
  match fields? ["uri", "database"] value with
  | some [uri, database] => do
    let base : Connection := {}
    let uri ← orElse? Json.string? base.uri uri
    let database ← orElse? Json.string? base.database database
    some ⟨uri, database⟩
  | _ => none

end Connection

end ScopedDocs

import ScopedDocs.Store.Basic
/-!
# The store — writing

Operations on a store answer or refuse, and either way leave a store behind
(`StoreM`). A single write that is refused may have made its collection; a
transaction that is refused leaves nothing (`Store.transaction`).
-/


namespace ScopedDocs

/-- An operation on a store: an answer or an error, and the store afterwards. -/
abbrev StoreM := ExceptT Error (StateM Store)

/-- A write of a transaction. -/
inductive Write where
  /-- Inserts a document. -/
  | insert (collection : String) (document : Json)
  /-- Replaces the first document that satisfies a filter. -/
  | replace (collection : String) (condition document : Json)
  /-- Updates the first document that satisfies a filter. -/
  | update (collection : String) (condition change : Json)
  /-- Deletes all documents that satisfy a filter. -/
  | delete (collection : String) (condition : Json)

/-- The collection a write goes to. -/
def Write.collection : Write → String
  | insert collection _ => collection
  | replace collection _ _ => collection
  | update collection _ _ => collection
  | delete collection _ => collection

namespace Store

/-- An answer, with the store as it is. -/
def answer {α : Type} (result : Except Error α) : StoreM α := ExceptT.mk (pure result)

/-- A write to a collection, which is made if it is not there, even if the write
is refused. -/
def writing {α : Type} (name : String) (write : Collection → Except Error α × Collection) :
    StoreM α :=
  ExceptT.mk fun s =>
    let (result, c) := write (s.collection name)
    (result, s.put name c)

/-- A write to a collection, which answers `absent` where there is none. -/
def writingIfPresent {α : Type} (name : String) (absent : α)
    (write : Collection → Except Error α × Collection) : StoreM α :=
  ExceptT.mk fun s =>
    match s.collections.lookup name with
    | none => (.ok absent, s)
    | some c =>
      let (result, c) := write c
      (result, s.put name c)

/-- A change of a collection that is refused as a whole or done as a whole. -/
def changing {α : Type} (change : Collection → Except Error (α × Collection)) (c : Collection) :
    Except Error α × Collection :=
  match change c with
  | .ok (a, c) => (.ok a, c)
  | .error e => (.error e, c)

/-- A change of a collection without an answer. -/
def changed (change : Collection → Except Error Collection) :
    Collection → Except Error Unit × Collection :=
  changing fun c => (change c).map fun c => ((), c)

/-- Inserts a document. -/
def insertOne (name : String) (document : Json) : StoreM Unit :=
  writing name (changed (Collection.insert name document))

/-- Inserts documents in order, up to the first that is refused. -/
def insertMany (name : String) (documents : List Json) : StoreM Unit :=
  writing name (Collection.insertAll name documents)

/-- Updates the first document that satisfies a filter. -/
def updateOne (name : String) (condition change : Json) : StoreM WriteCount :=
  writingIfPresent name {} (changing (Collection.update name condition change))

/-- Replaces the first document that satisfies a filter. -/
def replaceOne (name : String) (condition replacement : Json) : StoreM WriteCount :=
  writingIfPresent name {} (changing (Collection.replace name condition replacement))

/-- Deletes the first document that satisfies a filter. -/
def deleteOne (name : String) (condition : Json) : StoreM Nat :=
  writingIfPresent name 0 (Collection.delete condition false)

/-- Deletes the documents that satisfy a filter. -/
def deleteMany (name : String) (condition : Json) : StoreM Nat :=
  writingIfPresent name 0 (Collection.delete condition true)

/-- Makes an index. -/
def createIndex (name : String) (i : Index) : StoreM Unit :=
  writing name (changed (Collection.addIndex name i))

/-- One write of a transaction. It makes its collection, unless it deletes. -/
def applyWrite : Write → StoreM Unit
  | .insert name document => insertOne name document
  | .replace name condition document =>
    writing name (changed fun c => (c.replace name condition document).map (·.2))
  | .update name condition change =>
    writing name (changed fun c => (c.update name condition change).map (·.2))
  | .delete name condition => do
    let _ ← deleteMany name condition

/-- **A transaction**: all of the writes, in order, or none of them. -/
def transaction (writes : List Write) : StoreM Unit :=
  if writes.isEmpty then answer (.error (.transaction .emptyBatch))
  else
    ExceptT.mk fun s =>
      match (writes.forM applyWrite).run.run s with
      | (.ok (), after) => (.ok (), after)
      | (.error e, _) => (.error e, s)

end Store

end ScopedDocs

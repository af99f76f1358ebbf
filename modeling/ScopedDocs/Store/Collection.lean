import ScopedDocs.Filter.Basic
import ScopedDocs.Schema.Basic
import ScopedDocs.Update
/-!
# The store — collections

A collection is a list of documents, in the order they came, and its indexes.
Every write keeps the primary keys and the keys of the unique indexes apart
(`Collection.checkUnique`).
-/


namespace ScopedDocs

/-- A collection of documents. -/
structure Collection where
  /-- The documents, in the order they came. -/
  documents : List Json := []
  /-- The indexes, in the order they were made. -/
  indexes : List Index := []
  deriving Inhabited

/-- How many documents a write met, and how many it changed. -/
structure WriteCount where
  /-- The documents that satisfied the filter. -/
  matched : Nat := 0
  /-- The documents that are different now. -/
  modified : Nat := 0
  deriving DecidableEq, Inhabited

/-- **The key of a document in an index**: for each path the first value it
reaches, `null` where there is none. A sparse index has no key for a document
without any of them. -/
def Index.keyOf? (i : Index) (document : Json) : Option (List Json) :=
  let found := i.paths.map document.first?
  if i.sparse && found.all Option.isNone then none else some (found.map (·.getD .null))

/-- Whether two keys of an index are the same. -/
def Index.sameKey (a b : List Json) : Bool := Json.sameItems a b

namespace Collection

/-- A taken key. -/
def duplicate {α : Type} (name : String) : Except Error α :=
  .error (.store (.duplicateKey name))

/-- Whether a document has the primary key of another one. -/
def sharesId (a b : Json) : Bool :=
  match a.get? Schema.idPath, b.get? Schema.idPath with
  | some x, some y => x.same y
  | _, _ => false

/-- Whether two documents have the same key in an index. -/
def sharesKey (i : Index) (a b : Json) : Bool :=
  match i.keyOf? a, i.keyOf? b with
  | some x, some y => Index.sameKey x y
  | _, _ => false

/-- Whether a document may stand beside others: none of them has its primary
key or its key in a unique index. -/
def fits (indexes : List Index) (document : Json) (others : List Json) : Bool :=
  others.all fun other =>
    !sharesId other document && (indexes.filter (·.unique)).all fun i => !sharesKey i other document

/-- Refuses a document that does not fit beside others. -/
def checkUnique (name : String) (indexes : List Index) (document : Json) (others : List Json) :
    Except Error Unit :=
  if fits indexes document others then .ok () else duplicate name

/-- **Inserting** a document at the end. -/
def insert (name : String) (document : Json) (c : Collection) : Except Error Collection := do
  if !document.isObject then .error (.ofFault .insertNotADocument)
  checkUnique name c.indexes document c.documents
  .ok { c with documents := c.documents ++ [document] }

/-- Inserts documents in order, up to the first that is refused. Those before it
stay. -/
def insertAll (name : String) : List Json → Collection → Except Error Unit × Collection
  | [], c => (.ok (), c)
  | document :: rest, c =>
    match c.insert name document with
    | .ok c => insertAll name rest c
    | .error e => (.error e, c)

/-- The documents around the first one that satisfies a filter. -/
def split? (condition : Json) : List Json → Except Error (Option (List Json × Json × List Json))
  | [] => .ok none
  | document :: rest => do
    if ← Filter.holds document condition then .ok (some ([], document, rest))
    else
      let found ← split? condition rest
      .ok (found.map fun (before, d, after) => (document :: before, d, after))

/-- Puts a document in the place of another one, if it fits there. -/
def putBetween (name : String) (c : Collection) (before : List Json) (old new : Json)
    (after : List Json) : Except Error (WriteCount × Collection) := do
  checkUnique name c.indexes new (before ++ after)
  .ok (⟨1, if old.same new then 0 else 1⟩, { c with documents := before ++ new :: after })

/-- A replacement with the primary key of the document it replaces. -/
def keepId (old replacement : Json) : Json :=
  match replacement, old.get? Schema.idPath with
  | .obj members, some id => .obj (Members.put Schema.idPath id members)
  | replacement, _ => replacement

/-- **Replacing** the first document that satisfies a filter. It keeps its
primary key. -/
def replace (name : String) (condition replacement : Json) (c : Collection) :
    Except Error (WriteCount × Collection) := do
  match ← split? condition c.documents with
  | none => .ok ({}, c)
  | some (before, old, after) => putBetween name c before old (keepId old replacement) after

/-- Whether two documents agree on the primary key, or both have none. -/
def agreeOnId (a b : Json) : Bool :=
  match a.get? Schema.idPath, b.get? Schema.idPath with
  | some x, some y => x.same y
  | none, none => true
  | _, _ => false

/-- **Updating** the first document that satisfies a filter. An update cannot
change the primary key. -/
def update (name : String) (condition change : Json) (c : Collection) :
    Except Error (WriteCount × Collection) := do
  match ← split? condition c.documents with
  | none => .ok ({}, c)
  | some (before, old, after) => do
    let new ← Update.apply change old
    if agreeOnId new old then putBetween name c before old new after
    else .error (.ofFault .primaryKeyChanged)

/-- The documents that stay when those satisfying a filter go, all of them or
only the first, and how many go. -/
def remaining (condition : Json) (many : Bool) : List Json → Except Error (Nat × List Json)
  | [] => .ok (0, [])
  | document :: rest => do
    if ← Filter.holds document condition then
      if many then do
        let (gone, kept) ← remaining condition many rest
        .ok (gone + 1, kept)
      else .ok (1, rest)
    else do
      let (gone, kept) ← remaining condition many rest
      .ok (gone, document :: kept)

/-- **Deleting** the documents that satisfy a filter, all of them or only the
first. The documents are taken out before the filter is tried on them: if it
cannot be tried on one, none comes back. -/
def delete (condition : Json) (many : Bool) (c : Collection) : Except Error Nat × Collection :=
  match remaining condition many c.documents with
  | .ok (gone, kept) => (.ok gone, { c with documents := kept })
  | .error e => (.error e, { c with documents := [] })

/-- The number of documents that satisfy a filter. -/
def count (condition : Json) (c : Collection) : Except Error Nat :=
  c.documents.foldlM (fun n document => do
    if ← Filter.holds document condition then .ok (n + 1) else .ok n) 0

/-- Whether no two documents share a key in an index. -/
def distinctKeys (i : Index) : List Json → Bool
  | [] => true
  | document :: rest => rest.all (fun other => !sharesKey i document other) && distinctKeys i rest

/-- **Making an index.** One of the same name stays as it is. A unique one needs
distinct keys. -/
def addIndex (name : String) (i : Index) (c : Collection) : Except Error Collection :=
  if c.indexes.any fun other => other.name == i.name then .ok c
  else if i.unique && !distinctKeys i c.documents then duplicate name
  else .ok { c with indexes := c.indexes ++ [i] }

end Collection

end ScopedDocs

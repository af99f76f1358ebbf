import ScopedDocs.Proofs.Change
/-!
# Histories — stores that operations have written

A store is written by calls of repositories, of any callers and in any order, from
one without documents (`Written`). All it holds are records (`Written.records`), and
so the next call changes nothing but what its caller may change
(`Written.changes_only_own`).
-/


namespace ScopedDocs

/-- An operation of a repository that writes. -/
inductive Operation (α : Type) where
  | create (record : α)
  | createMany (records : List α)
  | createManyAtomic (records : List α)
  | createIdempotent (record : α)
  | update (now : Instant) (record : α)
  | delete (id : Uuid)

/-- The store an operation leaves, whether it is refused or not. -/
def Operation.after {α : Type} (repo : Repository α) (r : Request) (s : Store) :
    Operation α → Store
  | create record => (repo.create r record).after s
  | createMany records => (repo.createMany r records).after s
  | createManyAtomic records => (repo.createManyAtomic r records).after s
  | createIdempotent record => (repo.createIdempotent r record).after s
  | update now record => (repo.update now r record).after s
  | delete id => (repo.delete r id).after s

/-- **One operation changes what its caller may change**, if the collection holds
records. -/
theorem Operation.changes {α : Type} {repo : Repository α} {r : Request} {s : Store}
    (hlawful : repo.entity.Lawful)
    (hrecords : ∀ d ∈ s.documents repo.collection, ∃ o, d.IsRecordOf o) (op : Operation α) :
    repo.Changes r s (op.after repo r s) := by
  cases op with
  | create record => exact Repository.changes_create hlawful record s
  | createMany records => exact Repository.changes_createMany hlawful records s
  | createManyAtomic records => exact Repository.changes_createManyAtomic hlawful records s
  | createIdempotent record => exact Repository.changes_createIdempotent hlawful record s
  | update now record => exact Repository.changes_update hlawful hrecords now record
  | delete id => exact Repository.changes_delete id s

/-- A call of a repository, of any type of records, by any caller. -/
structure Call where
  {Value : Type}
  repo : Repository Value
  /-- Its records are stored with their primary key and their owner. -/
  lawful : repo.entity.Lawful
  request : Request
  operation : Operation Value

/-- The store a call leaves. -/
def Call.after (c : Call) (s : Store) : Store := c.operation.after c.repo c.request s

/-- **A store that operations have written**, one after the other, and that indexes
may have been made in. -/
inductive Written : Store → Prop where
  /-- A store without documents. -/
  | start {s : Store} (h : ∀ name, s.documents name = []) : Written s
  /-- A call is made, and done or refused. -/
  | call {s : Store} (h : Written s) (c : Call) : Written (c.after s)
  /-- An index is made. -/
  | index {s : Store} (h : Written s) (name : String) (i : Index) :
    Written ((Store.createIndex name i).after s)

namespace Written

variable {s : Store}

/-- **All that is written are records.** -/
theorem records (h : Written s) (name : String) : ∀ d ∈ s.documents name, ∃ o, d.IsRecordOf o := by
  induction h generalizing name with
  | start h => simp [h name]
  | @call s _ c ih =>
    obtain ⟨hchange, hothers⟩ :=
      c.operation.changes (r := c.request) c.lawful (ih c.repo.collection)
    -- the invariant is of every collection, since a later call may be of another one
    by_cases hname : name = c.repo.collection
    · rw [hname]
      exact hchange.records (ih c.repo.collection)
    · rw [Store.documents, Call.after, hothers name hname]
      exact ih name
  | index _ other i ih =>
    rw [Store.documents_createIndex]
    exact ih name

/-- **No call changes what is not the caller's.** In a store that operations have
written, a call leaves every other collection and, in its own, every document
outside the scope of its caller as they are; a document that stays keeps its primary
key and its owner; and what it adds is stored under the ownership of its caller. -/
theorem changes_only_own (h : Written s) (c : Call) : c.repo.Changes c.request s (c.after s) :=
  c.operation.changes c.lawful (h.records c.repo.collection)

/-- Another member of the group stores a note, whatever owner it comes with. -/
def sharing : Call where
  repo := Repository.notes
  lawful := Record.lawful_entity
  request := { Guard.memberRequest with caller.user := some ⟨4⟩ }
  operation := .create (Repository.note ⟨7⟩ Owner.nobody)

/-- A member of the group replaces it. -/
def replacing : Call where
  repo := Repository.notes
  lawful := Record.lawful_entity
  request := Guard.memberRequest
  operation := .update default (Repository.note ⟨7⟩ Owner.nobody)

/-- The note keeps the owner it was first stored under. -/
theorem changes_only_own_shared :
    Written (sharing.after {}) ∧
      Repository.notes.Changes Guard.memberRequest (sharing.after {})
        (replacing.after (sharing.after {})) ∧
      (replacing.after (sharing.after {})).documents "notes" =
        [(Repository.note ⟨7⟩ Guard.sharedOwner).toJson] := by
  have hwritten : Written (sharing.after {}) := .call (.start fun _ => rfl) sharing
  exact ⟨hwritten, hwritten.changes_only_own replacing, rfl⟩

end Written

end ScopedDocs

import ScopedDocs.Proofs.Ownership
import ScopedDocs.Proofs.Writes
/-!
# Deletion — taking out one record

Deleting a record is refused and changes nothing (`Repository.delete_refused`,
`Repository.deletion_none`), or it takes out the first document with its identifier
that the caller may change (`Repository.deletion_found`). Which of the two it is, and
which document, is what `Collection.split?` finds with the filter of the record.
-/


namespace ScopedDocs

variable {α : Type}

/-- A deletion seen at its collection: the answer, and the documents before and
after. -/
structure Deletion where
  answer : Except Error Unit
  before : List Json
  after : List Json

namespace Repository

variable {repo : Repository α} {r : Request} {id : Uuid} {condition : Json} {s : Store}

/-- What deleting a record does to its collection. -/
def deletion (repo : Repository α) (r : Request) (id : Uuid) (s : Store) : Deletion :=
  ⟨(repo.delete r id).result s, s.documents repo.collection,
    ((repo.delete r id).after s).documents repo.collection⟩

/-- The answer to a deletion that reaches the store. -/
theorem result_delete (hfilter : repo.ownedFilter r id = .ok condition)
    (hlet : repo.admission r = .ok ()) :
    (repo.delete r id).result s =
      (((s.collection repo.collection).delete condition false).1 >>= fun gone =>
        if gone = 0 then repo.notFound id else .ok ()) := by
  simp only [Repository.delete, StoreM.result_bind, StoreM.result_answer, StoreM.after_answer,
    hfilter, ok_bind, result_call, hlet, Store.result_deleteOne]
  refine congrArg _ (funext fun gone => ?_)
  split <;> rfl

theorem collection_delete (hfilter : repo.ownedFilter r id = .ok condition)
    (hlet : repo.admission r = .ok ()) (other : String) :
    ((repo.delete r id).after s).collection other =
      if other = repo.collection then ((s.collection repo.collection).delete condition false).2
      else s.collection other := by
  rw [← Store.collection_deleteOne]
  simp only [Repository.delete, StoreM.after_bind, StoreM.result_answer, StoreM.after_answer,
    hfilter, after_call, hlet]
  -- the answer depends on the count, and the store does not
  split
  · split <;> rfl
  · rfl

/-- A deletion that does not reach the store leaves it as it is. -/
theorem delete_refused {e : Error}
    (h : (repo.ownedFilter r id >>= fun _ => repo.admission r) = .error e) :
    (repo.delete r id).result s = .error e ∧ (repo.delete r id).after s = s := by
  simp only [Repository.delete, StoreM.result_bind, StoreM.after_bind, StoreM.result_answer,
    StoreM.after_answer, result_call, after_call]
  cases hfilter : repo.ownedFilter r id with
  | error e' =>
    rw [hfilter] at h
    exact ⟨h, rfl⟩
  | ok condition =>
    rw [hfilter, ok_bind] at h
    rw [h]
    exact ⟨rfl, rfl⟩

/-- A deletion that finds no document is refused. -/
theorem deletion_none (hfilter : repo.ownedFilter r id = .ok condition)
    (hlet : repo.admission r = .ok ())
    (h : Collection.split? condition (s.documents repo.collection) = .ok none) :
    repo.deletion r id s =
      ⟨repo.notFound id, s.documents repo.collection, s.documents repo.collection⟩ := by
  have hdelete := Collection.delete_none (c := s.collection repo.collection) h
  rw [deletion, result_delete hfilter hlet, Store.documents, Store.documents,
    collection_delete hfilter hlet, if_pos rfl, hdelete]
  rfl

/-- **A deletion that finds a document** takes it out. -/
theorem deletion_found {before after : List Json} {found : Json}
    (hfilter : repo.ownedFilter r id = .ok condition) (hlet : repo.admission r = .ok ())
    (h : Collection.split? condition (s.documents repo.collection) =
      .ok (some (before, found, after))) :
    repo.deletion r id s = ⟨.ok (), before ++ found :: after, before ++ after⟩ ∧
      repo.mayChange r found = true := by
  have hdelete := Collection.delete_found (c := s.collection repo.collection) h
  obtain ⟨hdocuments, -, hfound⟩ := Collection.split?_eq_some h
  rw [holds_ownedFilter hfilter, Except.ok.injEq, Bool.and_eq_true] at hfound
  refine ⟨?_, hfound.2⟩
  rw [deletion, result_delete hfilter hlet, hdocuments, Store.documents,
    collection_delete hfilter hlet, if_pos rfl, hdelete]
  rfl

/-- A repository of notes. -/
def notes : Repository Record :=
  ⟨{ entityType := "note", collection := "notes", access := [], mapping := [], fields := [] }, {},
    Record.entity⟩

/-- A note with an identifier and an owner. -/
def note (id : Uuid) (owner : Owner) : Record := ⟨⟨id, owner, default, default⟩, []⟩

/-- A store of notes. -/
def notesOf (records : List Record) : Store := ⟨[("notes", ⟨records.map Record.toJson, []⟩)]⟩

/-- A member takes out what the group shares. -/
example : notes.deletion Guard.memberRequest ⟨7⟩ (notesOf [note ⟨7⟩ Guard.sharedOwner]) =
    ⟨.ok (), [(note ⟨7⟩ Guard.sharedOwner).toJson], []⟩ := rfl

end Repository

end ScopedDocs

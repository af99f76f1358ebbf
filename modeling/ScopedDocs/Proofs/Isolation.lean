import ScopedDocs.Proofs.Deletion
import ScopedDocs.Proofs.Plan
/-!
# Isolation — what lies outside a scope has no influence

Two stores that hold the same documents in scope (`Store.AgreeWithin`) are not told
apart by a search, a count or a deletion. A pipeline that starts with a confined
filter runs on the documents in scope alone (`Rows.run_confined`), and every plan
that has passed the guard starts with one (`Repository.explain_ok`).
-/


namespace ScopedDocs

variable {α : Type}

/-- Two stores that hold the same documents of a collection within a scope, in the
same order. They may differ in everything else. -/
def Store.AgreeWithin (name : String) (sees : Json → Bool) (s t : Store) : Prop :=
  (s.documents name).filter sees = (t.documents name).filter sees

/-- **What two deletions have in common**: both are refused, with the same error,
or both take out the same document in scope. It stands between documents that
agree within the scope, too. -/
inductive Deletion.Alike (sees : Json → Bool) : Deletion → Deletion → Prop where
  /-- Both are refused and change nothing. -/
  | refused (e : Error) (documents documents' : List Json) :
    Alike sees ⟨.error e, documents, documents⟩ ⟨.error e, documents', documents'⟩
  /-- Both take out one document. -/
  | done {front front' back back' : List Json} (document : Json) (seen : sees document = true)
    (hfront : front.filter sees = front'.filter sees)
    (hback : back.filter sees = back'.filter sees) :
    Alike sees ⟨.ok (), front ++ document :: back, front ++ back⟩
      ⟨.ok (), front' ++ document :: back', front' ++ back'⟩

/-! ## Searching and counting -/

namespace Rows

variable {condition : Json} {test : Json → Bool}

/-- **A pipeline with a confined filter at its start** runs on the documents the
filter is confined to. -/
theorem run_confined (h : Filter.Confined condition test) (documents : List Json)
    (rest : Pipeline) :
    run (documents.filter test) (Pipeline.toJson (.filter condition :: rest)) =
      run documents (Pipeline.toJson (.filter condition :: rest)) := by
  simp only [run_cons, applyStage, select_confined h]

end Rows

namespace Repository

variable {repo : Repository α} {r : Request} {search : Search} {s t : Store}

/-- **A plan that has passed the guard** starts with a filter that is confined to
the scope. -/
theorem explain_ok {p : Pipeline} (h : repo.explain r search = .ok p) :
    ∃ enforced rest, p = .filter enforced :: rest ∧
      Filter.Confined enforced (Guard.inScope search.visibility r) := by
  obtain ⟨_, enforced, _, _, _, -, henforced, -, -, -, rfl⟩ := explain_iff.mp h
  exact ⟨enforced, _, rfl, Guard.confined_enforce henforced⟩

/-- A search answers as its pipeline does. -/
theorem result_search (repo : Repository α) (r : Request) (search : Search) (s : Store) :
    (repo.search r search).result s =
      (repo.explain r search >>= fun p => repo.admission r >>= fun _ =>
        Rows.run (s.documents repo.collection) p.toJson >>= List.mapM repo.decode) := by
  simp only [Repository.search, StoreM.result_bind, StoreM.result_answer, StoreM.after_answer,
    result_query, Store.aggregate]
  cases repo.explain r search with
  | error e => rfl
  | ok p => cases repo.admission r <;> rfl

/-- A search is not influenced from outside its scope. -/
theorem search_agrees (h : s.AgreeWithin repo.collection (Guard.inScope search.visibility r) t) :
    (repo.search r search).result s = (repo.search r search).result t := by
  rw [result_search, result_search]
  cases hexplain : repo.explain r search with
  | error e => rfl
  | ok p =>
    obtain ⟨enforced, rest, rfl, hconfined⟩ := explain_ok hexplain
    simp only [ok_bind]
    rw [← Rows.run_confined hconfined (s.documents _), ← Rows.run_confined hconfined (t.documents _),
      h]

/-- Counting is not influenced either. -/
theorem count_agrees (h : s.AgreeWithin repo.collection (Guard.inScope search.visibility r) t) :
    (repo.count r search).result s = (repo.count r search).result t := by
  simp only [count, StoreM.result_bind, StoreM.result_answer, StoreM.after_answer, result_query,
    Store.count]
  cases filterOf repo.config repo.schema search.aggregations with
  | error e => rfl
  | ok condition =>
    simp only [ok_bind]
    cases henforce : Guard.enforce condition search.visibility r with
    | error e => rfl
    | ok enforced =>
      -- the caller's filter may be anything here: it stands behind the terms
      have hconfined := Guard.confined_enforce henforce
      rw [ok_bind, ok_bind, Collection.count_confined hconfined,
        Collection.count_confined hconfined]
      exact congrArg (fun rows => repo.admission r >>= fun _ =>
        (Rows.select enforced rows).map List.length) h

/-! ## Deleting -/

/-- **A deletion is not influenced from outside** the documents the caller may
change. -/
theorem deletion_agrees (h : s.AgreeWithin repo.collection (repo.mayChange r) t) (id : Uuid) :
    Deletion.Alike (repo.mayChange r) (repo.deletion r id s) (repo.deletion r id t) := by
  cases hgate : repo.ownedFilter r id >>= fun _ => repo.admission r with
  | error e =>
    have hs := delete_refused (s := s) hgate
    have ht := delete_refused (s := t) hgate
    rw [deletion, deletion, hs.1, hs.2, ht.1, ht.2]
    exact .refused e _ _
  | ok =>
    obtain ⟨condition, hfilter, hlet⟩ := bind_eq_ok.mp hgate
    have htotal := total_ownedFilter hfilter
    obtain ⟨found, hs⟩ := Collection.split?_of_total htotal (s.documents repo.collection)
    obtain ⟨found', ht⟩ := Collection.split?_of_total htotal (t.documents repo.collection)
    -- both splits show the one of the documents in scope, which the stores share
    have hsame := Collection.split?_confined (confined_ownedFilter hfilter)
      (s.documents repo.collection)
    rw [h, Collection.split?_confined (confined_ownedFilter hfilter), hs, ht] at hsame
    rcases found with _ | ⟨before, d, after⟩ <;> rcases found' with _ | ⟨before', d', after'⟩ <;>
      simp only [Except.map, Option.map_none, Option.map_some, Except.ok.injEq, reduceCtorEq,
        Option.some.injEq, Prod.mk.injEq] at hsame
    · rw [deletion_none hfilter hlet hs, deletion_none hfilter hlet ht]
      exact .refused _ _ _
    · obtain ⟨hbefore, rfl, hafter⟩ := hsame
      obtain ⟨hdone, hmay⟩ := deletion_found hfilter hlet hs
      rw [hdone, (deletion_found hfilter hlet ht).1]
      exact .done d' hmay hbefore.symm hafter.symm

/-! ## The whole -/

/-- **Isolation.** A caller who searches, counts or deletes learns nothing of the
documents outside the scope: whatever these are, the answers are the same, down to
the error, and the same document is taken out. -/
theorem answers_agree (repo : Repository α) (r : Request) (s t : Store) :
    (∀ search : Search,
      s.AgreeWithin repo.collection (Guard.inScope search.visibility r) t →
      (repo.search r search).result s = (repo.search r search).result t ∧
        (repo.count r search).result s = (repo.count r search).result t) ∧
    ∀ id : Uuid, s.AgreeWithin repo.collection (repo.mayChange r) t →
      Deletion.Alike (repo.mayChange r) (repo.deletion r id s) (repo.deletion r id t) :=
  ⟨fun _ h => ⟨search_agrees h, count_agrees h⟩, fun id h => deletion_agrees h id⟩

/-- The notes of a group. -/
def groupStore : Store := notesOf [note ⟨7⟩ Guard.sharedOwner]

/-- The same notes behind what another tenant owns. -/
def mixedStore : Store :=
  ⟨[("notes", ⟨[.obj [(Owner.path, Owner.nobody.toJson)],
    (note ⟨7⟩ Guard.sharedOwner).toJson], []⟩)]⟩

/-- A member looks for everything in scope. -/
def memberSearch : Search := Search.everything Guard.memberRequest .user

/-- A member of the group does not tell the two apart. -/
theorem answers_agree_mixed :
    groupStore.AgreeWithin "notes" (Guard.inScope memberSearch.visibility Guard.memberRequest)
        mixedStore ∧
      groupStore.AgreeWithin "notes" (notes.mayChange Guard.memberRequest) mixedStore ∧
      (notes.count Guard.memberRequest memberSearch).result mixedStore = .ok 1 ∧
      Deletion.Alike (notes.mayChange Guard.memberRequest)
        (notes.deletion Guard.memberRequest ⟨7⟩ groupStore)
        (notes.deletion Guard.memberRequest ⟨7⟩ mixedStore) := by
  have hagree := answers_agree notes Guard.memberRequest groupStore mixedStore
  have hone : (notes.count Guard.memberRequest memberSearch).result groupStore = .ok 1 := rfl
  refine ⟨rfl, rfl, ?_, hagree.2 ⟨7⟩ rfl⟩
  rw [← (hagree.1 memberSearch rfl).2, hone]

end Repository

end ScopedDocs

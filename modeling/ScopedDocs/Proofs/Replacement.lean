import ScopedDocs.Proofs.Change
/-!
# Replacement — putting a record in the place of its stored document

Updating a record is refused and changes nothing (`Repository.update_refused`,
`Repository.update_none`), or it puts the record in the place of the first document with its
identifier that the caller may change, unless the record would share a key with another one
(`Repository.update_found`). Which of the two it is, and which document, is what
`Collection.split?` finds with the filter of the record: the same filter as of a deletion.
-/


namespace ScopedDocs

/-- What is put in the place of a document fits there, or is refused as a duplicate. -/
theorem Collection.putBetween_cases (name : String) (c : Collection) (before : List Json)
    (old new : Json) (after : List Json) :
    (∃ count, putBetween name c before old new after =
      .ok (⟨1, count⟩, { c with documents := before ++ new :: after })) ∨
    putBetween name c before old new after = duplicate name := by
  unfold putBetween checkUnique
  split
  · exact .inl ⟨_, rfl⟩
  · exact .inr rfl

namespace Store

variable {name : String} {condition replacement old : Json} {before after : List Json} {s : Store}

/-- **A replacement that finds a document** takes its place, or shares a key with another
document and changes nothing. -/
theorem replaceOne_found
    (h : Collection.split? condition (s.documents name) = .ok (some (before, old, after))) :
    ((∃ count, (replaceOne name condition replacement).result s = .ok ⟨1, count⟩) ∧
      ∀ other, ((replaceOne name condition replacement).after s).collection other =
        if other = name then
          { s.collection name with
            documents := before ++ Collection.keepId old replacement :: after }
        else s.collection other) ∨
    ((replaceOne name condition replacement).result s = Collection.duplicate name ∧
      ∀ other, ((replaceOne name condition replacement).after s).collection other =
        s.collection other) := by
  have hempty : changing (Collection.replace name condition replacement) {} = (.ok {}, {}) := rfl
  have hreplace : (s.collection name).replace name condition replacement =
      Collection.putBetween name (s.collection name) before old
        (Collection.keepId old replacement) after := by
    rw [Collection.replace, show Collection.split? condition (s.collection name).documents = _ from h]
    rfl
  rw [replaceOne, result_writingIfPresent hempty]
  simp only [collection_writingIfPresent hempty, changing, hreplace]
  rcases Collection.putBetween_cases name (s.collection name) before old
    (Collection.keepId old replacement) after with ⟨count, hput⟩ | hput <;> rw [hput]
  · exact .inl ⟨⟨count, rfl⟩, fun _ => rfl⟩
  · refine .inr ⟨rfl, fun other => ?_⟩
    -- a refused replacement puts the collection back as it was
    split
    · next heq => rw [heq]; rfl
    · rfl

end Store

namespace Repository

variable {α : Type} {repo : Repository α} {r : Request} {now : Instant} {record : α}
  {condition : Json} {s : Store}

/-- An update that does not reach the store leaves it as it is. -/
theorem update_refused {e : Error}
    (h : (repo.ownedFilter r (repo.entity.id record) >>= fun _ => repo.admission r) = .error e) :
    (repo.update now r record).result s = .error e ∧ (repo.update now r record).after s = s := by
  simp only [update, StoreM.result_bind, StoreM.after_bind, StoreM.result_answer,
    StoreM.after_answer]
  cases hfilter : repo.ownedFilter r (repo.entity.id record) with
  | error e' =>
    rw [hfilter, error_bind] at h
    rw [Except.error.inj h]
    exact ⟨rfl, rfl⟩
  | ok condition =>
    rw [hfilter, ok_bind] at h
    have hfind : (repo.findFirst r condition).result s = .error e := by
      rw [findFirst, StoreM.result_bind, result_query, h]
      rfl
    simp only [ok_bind, hfind, error_bind, after_findFirst, and_self]

/-- An update that finds no document is refused. -/
theorem update_none (hfilter : repo.ownedFilter r (repo.entity.id record) = .ok condition)
    (hlet : repo.admission r = .ok ())
    (h : Collection.split? condition (s.documents repo.collection) = .ok none) :
    (repo.update now r record).result s = repo.notFound (repo.entity.id record) ∧
      (repo.update now r record).after s = s := by
  have hfind := result_findFirst (r := r) (total_ownedFilter hfilter) h
  rw [hlet] at hfind
  simp only [update, StoreM.result_bind, StoreM.after_bind, StoreM.result_answer,
    StoreM.after_answer, hfilter, ok_bind, after_findFirst, hfind, Except.map, Option.map_none,
    and_self]

variable (now) in
/-- An update that finds a document is the replacement of what its filter finds. -/
theorem update_replaces {found : List Json × Json × List Json} {o : Owner}
    (hfilter : repo.ownedFilter r (repo.entity.id record) = .ok condition)
    (hlet : repo.admission r = .ok ())
    (h : Collection.split? condition (s.documents repo.collection) = .ok (some found))
    (howner : repo.storedOwner found.2.1 = .ok o) :
    (repo.update now r record).result s =
        ((Store.replaceOne repo.collection condition (repo.entity.toJson
          (repo.entity.touch now (repo.entity.withOwner o record)))).result s >>= fun written =>
            if written.matched = 0 then repo.notFound (repo.entity.id record)
            else .ok (repo.entity.touch now (repo.entity.withOwner o record))) ∧
      (repo.update now r record).after s =
        (Store.replaceOne repo.collection condition (repo.entity.toJson
          (repo.entity.touch now (repo.entity.withOwner o record)))).after s := by
  have hfind := result_findFirst (r := r) (total_ownedFilter hfilter) h
  rw [hlet] at hfind
  constructor
  · simp only [update, StoreM.result_bind, StoreM.result_answer, StoreM.after_answer, hfilter,
      ok_bind, after_findFirst, hfind, Except.map, Option.map_some, howner, result_call, hlet]
    refine congrArg _ (funext fun written => ?_)
    split <;> rfl
  · rw [update, StoreM.after_bind, StoreM.result_answer, StoreM.after_answer, hfilter]
    dsimp only
    rw [StoreM.after_bind, after_findFirst, hfind]
    simp only [Except.map, Option.map_some]
    rw [StoreM.after_bind, StoreM.result_answer, StoreM.after_answer, howner]
    dsimp only
    rw [StoreM.after_bind_of_keeps fun written u => by split <;> rfl, after_call, hlet]

variable (now) in
/-- **An update that finds a document** puts the record in its place, under the owner that
is stored, unless the record would share a key with another document. -/
theorem update_found {before after : List Json} {old : Json} {o : Owner}
    (hfilter : repo.ownedFilter r (repo.entity.id record) = .ok condition)
    (hlet : repo.admission r = .ok ())
    (h : Collection.split? condition (s.documents repo.collection) =
      .ok (some (before, old, after)))
    (howner : repo.storedOwner old = .ok o) :
    ((repo.update now r record).result s =
        .ok (repo.entity.touch now (repo.entity.withOwner o record)) ∧
      ∀ other, ((repo.update now r record).after s).collection other =
        if other = repo.collection then
          { s.collection repo.collection with
            documents := before ++ Collection.keepId old (repo.entity.toJson
              (repo.entity.touch now (repo.entity.withOwner o record))) :: after }
        else s.collection other) ∨
    ((repo.update now r record).result s = Collection.duplicate repo.collection ∧
      ∀ other, ((repo.update now r record).after s).collection other = s.collection other) := by
  obtain ⟨hresult, hafter⟩ := update_replaces now hfilter hlet h howner
  rw [hresult]
  simp only [hafter]
  rcases Store.replaceOne_found h with ⟨⟨count, hdone⟩, hstore⟩ | ⟨hrefused, hstore⟩
  · rw [hdone]
    exact .inl ⟨rfl, hstore⟩
  · rw [hrefused]
    exact .inr ⟨rfl, hstore⟩

end Repository

end ScopedDocs

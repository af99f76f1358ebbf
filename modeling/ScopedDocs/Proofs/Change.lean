import ScopedDocs.Proofs.Deletion
import ScopedDocs.Repository.Write
/-!
# Changes — what an operation does to the stored records

An operation of a repository adds records under the caller's ownership, or it
replaces or takes out one document the caller may change (`Change`). There is one
lemma for each operation; that a replacement keeps its primary key and its owner
needs that the documents were records before (`Json.IsRecordOf`), and every change
keeps that so (`Change.records`).
-/


namespace ScopedDocs

variable {α β : Type}

/-- A document of a record under an owner. -/
structure Json.IsRecordOf (o : Owner) (document : Json) : Prop where
  /-- It has a primary key. -/
  id : ∃ u : Uuid, document.get? Schema.idPath = some (.str u.text)
  /-- It is stored under the owner. -/
  owner : document.get? Owner.path = some o.toJson

/-- **What is asked of a type of records**: a value is stored with its primary key
and its owner, and changing it at an instant leaves the owner. -/
structure Entity.Lawful (e : Entity α) : Prop where
  /-- The primary key is stored. -/
  id : ∀ a, (e.toJson a).get? Schema.idPath = some (.str (e.id a).text)
  /-- The owner is stored. -/
  owner : ∀ o a, (e.toJson (e.withOwner o a)).get? Owner.path = some o.toJson
  /-- The time of change is none of the owner's. -/
  touch : ∀ now a, (e.toJson (e.touch now a)).get? Owner.path = (e.toJson a).get? Owner.path

namespace Record

/-- A record is stored with its primary key. -/
theorem get?_id (r : Record) : r.toJson.get? Schema.idPath = some (.str r.base.id.text) := rfl

/-- A record is stored under its owner. -/
theorem get?_owner (r : Record) : r.toJson.get? Owner.path = some r.base.owner.toJson := rfl

/-- **Records with any further fields** are stored as asked. -/
theorem lawful_entity : entity.Lawful where
  id := get?_id
  owner o r := get?_owner (r.withOwner o)
  touch now r := (get?_owner (r.touch now)).trans (get?_owner r).symm

/-- And so are those without times of change. -/
theorem lawful_plainEntity : plainEntity.Lawful where
  id := get?_id
  owner o r := get?_owner (r.withOwner o)
  touch _ _ := rfl

end Record

/-- **What a caller's operation may do to the documents of a collection.** Every
document that is not named here stays as it is, in its place. -/
inductive Change (sees : Json → Bool) (owner : Except Error Owner) :
    List Json → List Json → Prop where
  /-- Records are added, under the caller's ownership. -/
  | added (documents new : List Json) (h : ∀ d ∈ new, ∃ o, owner = .ok o ∧ d.IsRecordOf o) :
    Change sees owner documents (documents ++ new)
  /-- A document in scope is replaced, and keeps its primary key and its owner. -/
  | replaced (before after : List Json) (old new : Json) (seen : sees old = true)
    (hid : new.get? Schema.idPath = old.get? Schema.idPath)
    (howner : new.get? Owner.path = old.get? Owner.path) :
    Change sees owner (before ++ old :: after) (before ++ new :: after)
  /-- A document in scope is taken out. -/
  | removed (before after : List Json) (old : Json) (seen : sees old = true) :
    Change sees owner (before ++ old :: after) (before ++ after)

namespace Change

variable {sees : Json → Bool} {owner : Except Error Owner} {documents documents' : List Json}

theorem refl (sees : Json → Bool) (owner : Except Error Owner) (documents : List Json) :
    Change sees owner documents documents := by
  have h : Change sees owner documents (documents ++ []) := added documents [] (by simp)
  rwa [List.append_nil] at h

/-- **Records stay records** under every change. -/
theorem records (h : Change sees owner documents documents')
    (hrecords : ∀ d ∈ documents, ∃ o, d.IsRecordOf o) : ∀ d ∈ documents', ∃ o, d.IsRecordOf o := by
  intro d hd
  cases h with
  | added _ new hnew =>
    rcases List.mem_append.mp hd with hd | hd
    · exact hrecords d hd
    · obtain ⟨o, -, ho⟩ := hnew d hd
      exact ⟨o, ho⟩
  | replaced before after old new _ hid howner =>
    rcases List.mem_append.mp hd with hd | hd
    · exact hrecords d (by simp [hd])
    · rcases List.mem_cons.mp hd with rfl | hd
      · obtain ⟨o, ho⟩ := hrecords old (by simp)
        exact ⟨o, hid ▸ ho.id, howner ▸ ho.owner⟩
      · exact hrecords d (by simp [hd])
  | removed before after old _ =>
    rcases List.mem_append.mp hd with hd | hd <;> exact hrecords d (by simp [hd])

end Change

namespace Repository

variable {repo : Repository α} {r : Request} {s t : Store}

/-- **What a caller's operation may do to a store**: a change of the collection of
the records, and nothing else. -/
def Changes (repo : Repository α) (r : Request) (s t : Store) : Prop :=
  Change (repo.mayChange r) r.owner (s.documents repo.collection) (t.documents repo.collection) ∧
    ∀ other, other ≠ repo.collection → t.collection other = s.collection other

theorem Changes.refl (repo : Repository α) (r : Request) (s : Store) : repo.Changes r s s :=
  ⟨Change.refl _ _ _, fun _ _ => rfl⟩

/-! ## Adding -/

/-- A record is stored under the owner it is given. -/
theorem isRecordOf_owned (hlawful : repo.entity.Lawful) (o : Owner) (record : α) :
    (repo.entity.toJson (repo.entity.withOwner o record)).IsRecordOf o :=
  ⟨⟨_, hlawful.id _⟩, hlawful.owner o record⟩

/-- Appending records under the caller's ownership is adding. -/
theorem changes_of_appends {o : Owner} (hlawful : repo.entity.Lawful) (howner : r.owner = .ok o)
    (records : List α)
    (h : Store.Appends repo.collection
      ((records.map (repo.entity.withOwner o)).map repo.entity.toJson) s t) :
    repo.Changes r s t := by
  obtain ⟨front, hfront, ht⟩ := h
  refine ⟨?_, fun other hother => by rw [ht, if_neg hother]⟩
  rw [Store.documents, Store.documents, ht, if_pos rfl]
  refine .added _ front fun d hd => ⟨o, howner, ?_⟩
  obtain ⟨_, hrecord, rfl⟩ := List.mem_map.mp (hfront.subset hd)
  obtain ⟨record, -, rfl⟩ := List.mem_map.mp hrecord
  exact isRecordOf_owned hlawful o record

/-- A write under the caller's ownership is not made, or made under the caller's owner. -/
theorem after_owned {γ : Type} (action : Owner → StoreM β) (answer : Owner → γ) (s : Store) :
    (Store.answer r.owner >>= fun o => repo.call r (action o) >>= fun _ => pure (answer o)).after s =
        s ∨
      ∃ o, r.owner = .ok o ∧
        (Store.answer r.owner >>= fun o =>
          repo.call r (action o) >>= fun _ => pure (answer o)).after s = (action o).after s := by
  rw [StoreM.after_bind, StoreM.result_answer]
  cases r.owner with
  | error e => exact .inl rfl
  | ok o =>
    dsimp only
    rw [StoreM.after_bind_of_keeps fun _ _ => rfl, after_call]
    cases repo.admission r with
    | error e => exact .inl rfl
    | ok _ => exact .inr ⟨o, rfl, rfl⟩

variable (repo r) in
/-- **Storing a record** inserts its stored form, under the caller's ownership. -/
theorem after_create (record : α) (s : Store) :
    (repo.create r record).after s = s ∨
      ∃ o, r.owner = .ok o ∧ (repo.create r record).after s =
        (Store.insertOne repo.collection
          (repo.entity.toJson (repo.entity.withOwner o record))).after s :=
  after_owned _ _ s

variable (repo r) in
/-- **Storing records in order** inserts their stored forms in order. -/
theorem after_createMany (records : List α) (s : Store) :
    (repo.createMany r records).after s = s ∨
      ∃ o, r.owner = .ok o ∧ (repo.createMany r records).after s =
        (Store.insertMany repo.collection
          ((records.map (repo.entity.withOwner o)).map repo.entity.toJson)).after s := by
  unfold createMany
  split
  · exact .inl rfl
  · exact after_owned _ _ s

variable (repo r) in
/-- **Storing records together** inserts their stored forms in a transaction. -/
theorem after_createManyAtomic (records : List α) (s : Store) :
    (repo.createManyAtomic r records).after s = s ∨
      ∃ o, r.owner = .ok o ∧ (repo.createManyAtomic r records).after s =
        (Store.transaction (((records.map (repo.entity.withOwner o)).map repo.entity.toJson).map
          (Write.insert repo.collection))).after s := by
  unfold createManyAtomic
  split
  · exact .inl rfl
  · simp only [List.map_map]
    exact after_owned _ _ s

/-- Storing a record adds it. -/
theorem changes_create (hlawful : repo.entity.Lawful) (record : α) (s : Store) :
    repo.Changes r s ((repo.create r record).after s) := by
  rcases after_create repo r record s with h | ⟨o, howner, h⟩ <;> rw [h]
  · exact .refl repo r s
  · exact changes_of_appends hlawful howner [record] (Store.appends_insertOne _ _ s)

/-- Storing records in order adds as many as are accepted. -/
theorem changes_createMany (hlawful : repo.entity.Lawful) (records : List α) (s : Store) :
    repo.Changes r s ((repo.createMany r records).after s) := by
  rcases after_createMany repo r records s with h | ⟨o, howner, h⟩ <;> rw [h]
  · exact .refl repo r s
  · exact changes_of_appends hlawful howner records (Store.appends_insertMany _ _ s)

/-- Storing records together adds them. -/
theorem changes_createManyAtomic (hlawful : repo.entity.Lawful) (records : List α) (s : Store) :
    repo.Changes r s ((repo.createManyAtomic r records).after s) := by
  rcases after_createManyAtomic repo r records s with h | ⟨o, howner, h⟩ <;> rw [h]
  · exact .refl repo r s
  · exact changes_of_appends hlawful howner records (Store.appends_transaction _ _ s)

/-- Looking for the record of a taken key leaves the store as it is. -/
theorem after_existing (path key : String) (s : Store) :
    (repo.existing r path key).after s = s := by
  rw [existing, StoreM.after_bind, StoreM.result_answer]
  cases r.owner with
  | error e => rfl
  | ok o =>
    dsimp only
    rw [StoreM.after_bind_of_keeps fun found u => ?_, after_findFirst]
    · rfl
    · cases found <;> rfl

variable (repo r) in
/-- **Storing a record once** stores it, or leaves the store as it is. -/
theorem after_createIdempotent (record : α) (s : Store) :
    (repo.createIdempotent r record).after s = s ∨
      (repo.createIdempotent r record).after s = (repo.create r record).after s := by
  unfold createIdempotent
  split
  · rw [StoreM.after_map]
    exact .inr rfl
  · split
    · exact .inl rfl
    · rw [StoreM.after_tryCatch, StoreM.after_map]
      refine .inr ?_
      split
      · rfl
      · split
        · rw [StoreM.after_map, after_existing]
        · rfl

/-- Storing a record once adds it, or finds it there. -/
theorem changes_createIdempotent (hlawful : repo.entity.Lawful) (record : α) (s : Store) :
    repo.Changes r s ((repo.createIdempotent r record).after s) := by
  rcases after_createIdempotent repo r record s with h | h <;> rw [h]
  · exact .refl repo r s
  · exact changes_create hlawful record s

/-! ## Replacing and taking out -/

/-- **Looking for the first document** finds what a split finds. -/
theorem result_findFirst {condition : Json} {found : Option (List Json × Json × List Json)}
    (htotal : Filter.Total condition)
    (h : Collection.split? condition (s.documents repo.collection) = .ok found) :
    (repo.findFirst r condition).result s =
      (repo.admission r).map fun _ => found.map fun parts => parts.2.1 := by
  -- looking for one document is a filter and then a limit
  have hfind : s.find repo.collection condition { limit := some 1 } =
      .ok (((s.documents repo.collection).filter (Filter.satisfies · condition)).take 1) := by
    change Rows.run _ (Pipeline.toJson [.filter condition, .limit 1]) = _
    rw [Rows.run_cons, Rows.applyStage, Rows.select_of_total htotal, ok_bind, Rows.run_cons]
    rfl
  rw [findFirst, StoreM.result_bind, result_query, hfind]
  cases repo.admission r with
  | error e => rfl
  | ok _ =>
    change Except.ok (List.head? (List.take 1 _)) = _
    rw [List.head?_take, if_neg (by simp), Collection.head?_filter_of_split? h]
    rfl

/-- The owner of a record is read back as it is stored. -/
theorem storedOwner_of_isRecordOf {o : Owner} {document : Json} (h : document.IsRecordOf o) :
    repo.storedOwner document = .ok o := by
  simp only [storedOwner, h.owner, Owner.ofJson?_toJson]

theorem storedOwner_ok {o o' : Owner} {document : Json} (h : document.IsRecordOf o)
    (hread : repo.storedOwner document = .ok o') : o' = o :=
  Except.ok.inj (hread.symm.trans (storedOwner_of_isRecordOf h))

variable (repo r) in
/-- **Replacing a record** replaces what the filter of the record finds, under the owner of
the first document that it finds. -/
theorem after_update (now : Instant) (record : α) (s : Store) :
    (repo.update now r record).after s = s ∨
      ∃ condition stored o, repo.ownedFilter r (repo.entity.id record) = .ok condition ∧
        (repo.findFirst r condition).result s = .ok (some stored) ∧
        repo.storedOwner stored = .ok o ∧
        (repo.update now r record).after s =
          (Store.replaceOne repo.collection condition (repo.entity.toJson
            (repo.entity.touch now (repo.entity.withOwner o record)))).after s := by
  rw [update, StoreM.after_bind, StoreM.result_answer, StoreM.after_answer]
  cases hfilter : repo.ownedFilter r (repo.entity.id record) with
  | error e => exact .inl rfl
  | ok condition =>
    dsimp only
    rw [StoreM.after_bind, after_findFirst]
    rcases hfound : (repo.findFirst r condition).result s with e | _ | stored
    · exact .inl rfl
    · exact .inl rfl
    · dsimp only
      rw [StoreM.after_bind, StoreM.result_answer, StoreM.after_answer]
      cases howner : repo.storedOwner stored with
      | error e => exact .inl rfl
      | ok o =>
        dsimp only
        rw [StoreM.after_bind_of_keeps fun written u => by split <;> rfl, after_call]
        cases repo.admission r with
        | error e => exact .inl rfl
        | ok _ => exact .inr ⟨condition, stored, o, rfl, hfound, howner, rfl⟩

/-- So it changes nothing, or it puts the record, under the owner that was read, in the
place of the document whose owner that is, one with the record's primary key that the caller
may change. -/
theorem update_cases (now : Instant) (record : α) (s : Store) :
    (∀ other, ((repo.update now r record).after s).collection other = s.collection other) ∨
    ∃ before old after o, s.documents repo.collection = before ++ old :: after ∧
      Filter.satisfies old (idFilter (repo.entity.id record)) = true ∧
      repo.mayChange r old = true ∧ repo.storedOwner old = .ok o ∧
      ∀ other, ((repo.update now r record).after s).collection other =
        if other = repo.collection then
          { s.collection repo.collection with
            documents := before ++ Collection.keepId old (repo.entity.toJson
              (repo.entity.touch now (repo.entity.withOwner o record))) :: after }
        else s.collection other := by
  rcases after_update repo r now record s with
    hsame | ⟨condition, stored, o, hfilter, hfound, howner, hafter⟩
  · exact .inl fun _ => by rw [hsame]
  · rcases Store.replaceOne_cases repo.collection condition (repo.entity.toJson
      (repo.entity.touch now (repo.entity.withOwner o record))) s with
      hsame | ⟨before, old, after, hsplit, hreplaced⟩
    · exact .inl fun other => by rw [hafter, hsame]
    · -- looking for the document has changed nothing, so the same one is found again
      obtain rfl : old = stored := by
        rw [result_findFirst (total_ownedFilter hfilter) hsplit, map_eq_ok] at hfound
        obtain ⟨-, -, hfound⟩ := hfound
        exact Option.some.inj hfound
      obtain ⟨hdocuments, -, hholds⟩ := Collection.split?_eq_some hsplit
      rw [holds_ownedFilter hfilter, Except.ok.injEq, Bool.and_eq_true] at hholds
      exact .inr ⟨before, old, after, o, hdocuments, hholds.1, hholds.2, howner,
        fun other => by rw [hafter, hreplaced]⟩

/-- So it changes no primary key and no owner. -/
theorem changes_update (hlawful : repo.entity.Lawful)
    (hrecords : ∀ d ∈ s.documents repo.collection, ∃ o, d.IsRecordOf o) (now : Instant)
    (record : α) : repo.Changes r s ((repo.update now r record).after s) := by
  rcases update_cases (r := r) now record s with
    hsame | ⟨before, old, after, o, hdocuments, -, hmay, howner, hreplaced⟩
  · refine ⟨?_, fun other _ => hsame other⟩
    rw [Store.documents, Store.documents, hsame]
    exact .refl _ _ _
  · obtain ⟨stored, hold⟩ := hrecords old (by simp [hdocuments])
    obtain rfl := storedOwner_ok hold howner
    obtain ⟨u, hid⟩ := hold.id
    refine ⟨?_, fun other hother => by rw [hreplaced, if_neg hother]⟩
    rw [hdocuments, Store.documents, hreplaced, if_pos rfl]
    refine .replaced before after old _ hmay ?_ ?_
    · rw [Collection.get?_keepId hid (Json.isObject_of_get? (hlawful.id _)), hid]
    · rw [Collection.get?_keepId_of_ne _ _ (by decide), hlawful.touch, hlawful.owner, hold.owner]

variable (repo r) in
/-- **Taking out a record** takes out what the filter of the record finds. -/
theorem after_delete (id : Uuid) (s : Store) :
    (repo.delete r id).after s = s ∨
      ∃ condition, (repo.delete r id).after s =
        (Store.deleteOne repo.collection condition).after s := by
  rw [delete, StoreM.after_bind, StoreM.result_answer, StoreM.after_answer]
  cases repo.ownedFilter r id with
  | error e => exact .inl rfl
  | ok condition =>
    dsimp only
    rw [StoreM.after_bind_of_keeps fun deleted u => by split <;> rfl, after_call]
    cases repo.admission r with
    | error e => exact .inl rfl
    | ok _ => exact .inr ⟨condition, rfl⟩

/-- What is taken out is a document the caller may change. -/
theorem changes_delete (id : Uuid) (s : Store) :
    repo.Changes r s ((repo.delete r id).after s) := by
  cases hgate : repo.ownedFilter r id >>= fun _ => repo.admission r with
  | error e =>
    rw [(delete_refused hgate).2]
    exact .refl repo r s
  | ok =>
    obtain ⟨condition, hfilter, hlet⟩ := bind_eq_ok.mp hgate
    refine ⟨?_, fun other hother => by rw [collection_delete hfilter hlet, if_neg hother]⟩
    obtain ⟨found, hsplit⟩ := Collection.split?_of_total (total_ownedFilter hfilter)
      (s.documents repo.collection)
    rcases found with _ | ⟨before, old, after⟩
    · have hafter := congrArg Deletion.after (deletion_none hfilter hlet hsplit)
      rw [show ((repo.delete r id).after s).documents _ = _ from hafter]
      exact .refl _ _ _
    · obtain ⟨hdone, hmay⟩ := deletion_found hfilter hlet hsplit
      have hafter := congrArg Deletion.after hdone
      rw [show ((repo.delete r id).after s).documents _ = _ from hafter,
        (Collection.split?_eq_some hsplit).1]
      exact .removed before after old hmay

end Repository

end ScopedDocs

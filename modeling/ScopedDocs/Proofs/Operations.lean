import ScopedDocs.Proofs.History
import ScopedDocs.Proofs.Reached
/-!
# Operations — what they ask of the store

An operation of a repository makes at most one write to the collection of its records
(`Operation.writes`), whether it is refused or not: an insertion, a replacement or a
deletion of records. So it leads from a store that is reached to one that is
(`Store.Writes.reached`), and it leaves all indexes as they are (`Store.Writes.indexes`).
-/


namespace ScopedDocs

variable {α β : Type}

/-! ## Writes of documents -/

namespace Store

/-- **At most one write of documents** to a collection, of well-formed ones. -/
inductive Writes (name : String) (s : Store) : Store → Prop where
  /-- Nothing is written. -/
  | nothing : Writes name s s
  /-- A document is inserted. -/
  | insertOne (document : Json) (h : document.isWellFormed = true) :
    Writes name s ((Store.insertOne name document).after s)
  /-- Documents are inserted in order. -/
  | insertMany (documents : List Json) (h : ∀ d ∈ documents, d.isWellFormed = true) :
    Writes name s ((Store.insertMany name documents).after s)
  /-- Documents are inserted, all or none of them. -/
  | inserts (documents : List Json) (h : ∀ d ∈ documents, d.isWellFormed = true) :
    Writes name s ((Store.transaction (documents.map (Write.insert name))).after s)
  /-- A document is replaced. -/
  | replaceOne (condition replacement : Json) (h : replacement.isWellFormed = true) :
    Writes name s ((Store.replaceOne name condition replacement).after s)
  /-- A document is taken out. -/
  | deleteOne (condition : Json) : Writes name s ((Store.deleteOne name condition).after s)

variable {name : String} {s t : Store}

/-- The writes are among those that stores are reached by. -/
theorem Writes.reached (h : Writes name s t) (hs : Reached s) : Reached t := by
  cases h with
  | nothing => exact hs
  | insertOne document h => exact .single hs name (.insertOne document) h
  | insertMany documents h => exact .insertMany hs name documents h
  | inserts documents h =>
    refine .transaction hs _ fun w hw => ?_
    obtain ⟨d, hd, rfl⟩ := List.mem_map.mp hw
    exact h d hd
  | replaceOne condition replacement h =>
    have hsingle := hs.single name (.replaceOne condition replacement) h
    rwa [SingleWrite.run, StoreM.after_map] at hsingle
  | deleteOne condition =>
    have hsingle := hs.single name (.deleteOne condition) trivial
    rwa [SingleWrite.run, StoreM.after_map] at hsingle

/-- A store in which one collection has changed, but not its indexes, has all the indexes it
had. -/
theorem indexes_of_write {c : Collection}
    (hwrite : ∀ other, t.collection other = if other = name then c else s.collection other)
    (hc : c.indexes = s.indexes name) (other : String) : t.indexes other = s.indexes other := by
  rw [Store.indexes, hwrite]
  split
  · next heq => rw [heq, hc]
  · rfl

theorem Appends.indexes {documents : List Json} (h : Appends name documents s t) (other : String) :
    t.indexes other = s.indexes other := by
  obtain ⟨front, -, ht⟩ := h
  exact indexes_of_write ht rfl other

/-- **Writes of documents leave all indexes.** -/
theorem Writes.indexes (h : Writes name s t) (other : String) :
    t.indexes other = s.indexes other := by
  cases h with
  | nothing => rfl
  | insertOne document => exact (appends_insertOne name document s).indexes other
  | insertMany documents => exact (appends_insertMany name documents s).indexes other
  | inserts documents => exact (appends_transaction name documents s).indexes other
  | replaceOne condition replacement =>
    rcases replaceOne_cases name condition replacement s with hsame | ⟨_, _, _, -, hreplaced⟩
    · exact congrArg Collection.indexes (hsame other)
    · exact indexes_of_write hreplaced rfl other
  | deleteOne condition =>
    refine indexes_of_write (fun other => collection_deleteOne name other condition s) ?_ other
    rw [Collection.delete]
    split <;> rfl

end Store

/-! ## Operations -/

/-- A record whose stored form is well formed, whoever owns it and whenever it is changed.
Records that were read are such (`Record.writesWell_of_read`). -/
def Entity.WritesWell (e : Entity α) (record : α) : Prop :=
  ∀ owner, (e.toJson (e.withOwner owner record)).isWellFormed = true ∧
    ∀ now, (e.toJson (e.touch now (e.withOwner owner record))).isWellFormed = true

/-- The stored form of an owner is well formed. -/
theorem Owner.isWellFormed_toJson (o : Owner) : o.toJson.isWellFormed = true := by
  obtain ⟨tenant, _ | client, _ | group, _ | user⟩ := o <;> rfl

namespace Record

/-- The common fields have keys of their own, and well-formed values. -/
theorem isWellFormed_base (b : RecordBase) : b.toJson.isWellFormed = true := by
  refine Json.isWellFormed_obj.mpr ⟨?_, ?_⟩
  · change RecordBase.keys.Nodup
    decide
  · simp [RecordBase.members, Owner.isWellFormed_toJson, Json.isWellFormed]

/-- A record is well formed as its further fields are, if they are none of the common ones. -/
theorem isWellFormed_toJson {r : Record} (hextra : (Json.obj r.extra).isWellFormed = true)
    (hkeys : ∀ key ∈ r.extra.keys, key ∉ RecordBase.keys) : r.toJson.isWellFormed = true := by
  obtain ⟨hbase, hvalues⟩ := Json.isWellFormed_obj.mp (isWellFormed_base r.base)
  obtain ⟨hfurther, hothers⟩ := Json.isWellFormed_obj.mp hextra
  refine Json.isWellFormed_obj.mpr ⟨?_, fun m hm => ?_⟩
  · rw [Members.keys, List.map_append]
    refine List.nodup_append.mpr ⟨hbase, hfurther, fun key hkey other hother heq => ?_⟩
    exact hkeys other hother (heq ▸ hkey)
  · rcases List.mem_append.mp hm with hm | hm
    · exact hvalues m hm
    · exact hothers m hm

/-- **Records are written well**, if they are well formed. -/
theorem writesWell {r : Record} (hextra : (Json.obj r.extra).isWellFormed = true)
    (hkeys : ∀ key ∈ r.extra.keys, key ∉ RecordBase.keys) : entity.WritesWell r :=
  fun _ => ⟨isWellFormed_toJson hextra hkeys, fun _ => isWellFormed_toJson hextra hkeys⟩

/-- A record that was read from a well-formed document is written well. -/
theorem writesWell_of_read {document : Json} {r : Record} (h : document.isWellFormed = true)
    (hread : ofJson? document = some r) : entity.WritesWell r := by
  cases document with
  | obj members =>
    obtain ⟨base, -, rfl⟩ := Option.map_eq_some_iff.mp hread
    obtain ⟨hkeys, hvalues⟩ := Json.isWellFormed_obj.mp h
    refine writesWell (Json.isWellFormed_obj.mpr ⟨?_, fun m hm => ?_⟩) fun key hkey => ?_
    · exact hkeys.sublist (List.filter_sublist.map Prod.fst)
    · exact hvalues m (List.mem_filter.mp hm).1
    · obtain ⟨m, hm, rfl⟩ := List.mem_map.mp hkey
      simpa using (List.mem_filter.mp hm).2
  | _ => exact absurd hread (by simp [ofJson?])

end Record

/-- The records that an operation stores. -/
def Operation.records : Operation α → List α
  | create record => [record]
  | createMany records => records
  | createManyAtomic records => records
  | createIdempotent record => [record]
  | update _ record => [record]
  | delete _ => []

namespace Repository

variable {repo : Repository α} {r : Request} {s : Store} {record : α}

/-- The stored forms of records under an owner are well formed. -/
theorem wellFormed_owned {records : List α} (h : ∀ record ∈ records, repo.entity.WritesWell record)
    (owner : Owner) :
    ∀ d ∈ (records.map (repo.entity.withOwner owner)).map repo.entity.toJson,
      d.isWellFormed = true := by
  intro d hd
  obtain ⟨_, hrecord, rfl⟩ := List.mem_map.mp hd
  obtain ⟨record, hmem, rfl⟩ := List.mem_map.mp hrecord
  exact (h record hmem owner).1

theorem writes_create (h : repo.entity.WritesWell record) :
    Store.Writes repo.collection s ((repo.create r record).after s) := by
  rcases after_create repo r record s with hafter | ⟨owner, -, hafter⟩ <;>
    rw [hafter]
  · exact .nothing
  · exact .insertOne _ (h owner).1

end Repository

/-- **An operation makes at most one write** of documents, to the collection of its
repository. -/
theorem Operation.writes {repo : Repository α} {op : Operation α} (r : Request) (s : Store)
    (h : ∀ record ∈ op.records, repo.entity.WritesWell record) :
    Store.Writes repo.collection s (op.after repo r s) := by
  cases op with
  | create record => exact Repository.writes_create (h record List.mem_cons_self)
  | createMany records =>
    rcases Repository.after_createMany repo r records s with
      hafter | ⟨owner, -, hafter⟩ <;> rw [after, hafter]
    · exact .nothing
    · exact .insertMany _ (Repository.wellFormed_owned h owner)
  | createManyAtomic records =>
    rcases Repository.after_createManyAtomic repo r records s with
      hafter | ⟨owner, -, hafter⟩ <;> rw [after, hafter]
    · exact .nothing
    · exact .inserts _ (Repository.wellFormed_owned h owner)
  | createIdempotent record =>
    rcases Repository.after_createIdempotent repo r record s with
      hafter | hafter <;> rw [after, hafter]
    · exact .nothing
    · exact Repository.writes_create (h record List.mem_cons_self)
  | update now record =>
    rcases Repository.after_update repo r now record s with
      hafter | ⟨condition, stored, owner, -, -, -, hafter⟩ <;> rw [after, hafter]
    · exact .nothing
    · exact .replaceOne _ _ ((h record List.mem_cons_self owner).2 now)
  | delete id =>
    rcases Repository.after_delete repo r id s with
      hafter | ⟨condition, hafter⟩ <;> rw [after, hafter]
    · exact .nothing
    · exact .deleteOne condition

end ScopedDocs

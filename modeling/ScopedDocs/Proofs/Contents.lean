import ScopedDocs.Proofs.History
import ScopedDocs.Proofs.Replacement
import ScopedDocs.Proofs.Uniqueness
/-!
# Contents — what the collections of written stores hold

What holds of a collection and is kept by every accepted insertion, replacement and deletion
is kept by an operation of a repository, done or refused (`Operation.keeps`). Two such
properties are carried through the stores that operations have written: their documents have
primary keys of their own (`Written.keyed`), and they can be read as records of one type, if
everything can that is stored beside them (`WrittenFor.legible`).
-/


namespace ScopedDocs

variable {α β : Type}

/-! ## What an operation keeps -/

/-- The values an operation stores under an owner. -/
def Operation.stored (e : Entity α) (owner : Owner) : Operation α → List α
  | create record => [e.withOwner owner record]
  | createMany records => records.map (e.withOwner owner)
  | createManyAtomic records => records.map (e.withOwner owner)
  | createIdempotent record => [e.withOwner owner record]
  | update now record => [e.touch now (e.withOwner owner record)]
  | delete _ => []

section

variable {P : Collection → Prop} {name : String} {documents : List Json} {s : Store}

/-- What accepted insertions keep, inserting in order keeps, as far as it comes. -/
theorem Collection.insertAll_keeps
    (hinsert : ∀ d ∈ documents, ∀ c c', P c → Collection.insert name d c = .ok c' → P c')
    {c : Collection} (h : P c) : P (insertAll name documents c).2 := by
  induction documents generalizing c with
  | nil => exact h
  | cons d rest ih =>
    obtain ⟨hd, hrest⟩ := List.forall_mem_cons.mp hinsert
    rw [insertAll]
    cases hc : c.insert name d with
    | error e => exact h
    | ok c' => exact ih hrest (hd c c' h hc)

namespace Store

theorem insertOne_keeps {document : Json}
    (hinsert : ∀ c c', P c → Collection.insert name document c = .ok c' → P c')
    (h : P (s.collection name)) : P (((insertOne name document).after s).collection name) := by
  rw [insertOne, collection_writing, if_pos rfl, changed_eq]
  cases hc : (s.collection name).insert name document with
  | error e => exact h
  | ok c' => exact hinsert _ c' h hc

theorem insertMany_keeps
    (hinsert : ∀ d ∈ documents, ∀ c c', P c → Collection.insert name d c = .ok c' → P c')
    (h : P (s.collection name)) : P (((insertMany name documents).after s).collection name) := by
  rw [insertMany, collection_writing, if_pos rfl]
  exact Collection.insertAll_keeps hinsert h

theorem inserts_keep
    (hinsert : ∀ d ∈ documents, ∀ c c', P c → Collection.insert name d c = .ok c' → P c')
    (h : P (s.collection name)) :
    P (((transaction (documents.map (Write.insert name))).after s).collection name) := by
  rcases after_transaction (documents.map (Write.insert name)) s with heq | heq <;> rw [heq]
  · exact h
  · refine StoreM.after_forM (P := fun t => P (t.collection name)) (fun w hw t ht => ?_) h
    obtain ⟨d, hd, rfl⟩ := List.mem_map.mp hw
    exact insertOne_keeps (hinsert d hd) ht

end Store

end

namespace Repository

variable {repo : Repository α} {P : Collection → Prop}

/-- What is kept when a record is accepted under whatever owner is kept by its creation. -/
theorem create_keeps {record : α}
    (hinsert : ∀ owner c c', P c → Collection.insert repo.collection
      (repo.entity.toJson (repo.entity.withOwner owner record)) c = .ok c' → P c')
    (r : Request) {s : Store} (h : P (s.collection repo.collection)) :
    P (((repo.create r record).after s).collection repo.collection) := by
  rcases repo.after_create r record s with hafter | ⟨owner, -, hafter⟩ <;> rw [hafter]
  · exact h
  · exact Store.insertOne_keeps (hinsert owner) h

/-- What is kept when a document is taken out is kept by a deletion. -/
theorem delete_keeps
    (hdelete : ∀ (c : Collection) before old after, c.documents = before ++ old :: after → P c →
      P { c with documents := before ++ after })
    (r : Request) (id : Uuid) {s : Store} (h : P (s.collection repo.collection)) :
    P (((repo.delete r id).after s).collection repo.collection) := by
  cases hgate : repo.ownedFilter r id >>= fun _ => repo.admission r with
  | error e =>
    rw [(delete_refused hgate).2]
    exact h
  | ok =>
    obtain ⟨condition, hfilter, hlet⟩ := bind_eq_ok.mp hgate
    rw [collection_delete hfilter hlet, if_pos rfl]
    obtain ⟨found, hsplit⟩ := Collection.split?_of_total (total_ownedFilter hfilter)
      (s.documents repo.collection)
    rcases found with _ | ⟨before, old, after⟩
    · rw [Collection.delete_none (c := s.collection repo.collection) hsplit]
      exact h
    · rw [Collection.delete_found (c := s.collection repo.collection) hsplit]
      exact hdelete _ before old after (Collection.split?_eq_some hsplit).1 h

end Repository

/-- **What an operation keeps** of the collection of its repository: whatever is kept when
one of the values it stores is accepted, when one is put in the place of the document with
its primary key, and when a document is taken out. -/
theorem Operation.keeps {repo : Repository α} {op : Operation α} {P : Collection → Prop}
    (hinsert : ∀ owner, ∀ a ∈ op.stored repo.entity owner, ∀ c c', P c →
      Collection.insert repo.collection (repo.entity.toJson a) c = .ok c' → P c')
    (hreplace : ∀ now record owner, op = .update now record → ∀ (c : Collection) before old after,
      c.documents = before ++ old :: after →
      Filter.satisfies old (Repository.idFilter (repo.entity.id record)) = true → P c →
      P { c with documents := before ++ Collection.keepId old (repo.entity.toJson
        (repo.entity.touch now (repo.entity.withOwner owner record))) :: after })
    (hdelete : ∀ (c : Collection) before old after, c.documents = before ++ old :: after → P c →
      P { c with documents := before ++ after })
    (r : Request) {s : Store} (h : P (s.collection repo.collection)) :
    P ((op.after repo r s).collection repo.collection) := by
  -- the documents of a batch are the stored forms of its records under one owner
  have hbatch (records : List α) (owner : Owner) (hrecords : ∀ a ∈ records.map
      (repo.entity.withOwner owner), ∀ c c', P c →
      Collection.insert repo.collection (repo.entity.toJson a) c = .ok c' → P c') :
      ∀ d ∈ (records.map (repo.entity.withOwner owner)).map repo.entity.toJson, ∀ c c', P c →
        Collection.insert repo.collection d c = .ok c' → P c' :=
    List.forall_mem_map.mpr hrecords
  cases op with
  | create record =>
    exact Repository.create_keeps (fun owner => hinsert owner _ (List.mem_singleton_self _)) r h
  | createMany records =>
    rcases Repository.after_createMany repo r records s with hafter | ⟨owner, -, hafter⟩ <;>
      rw [after, hafter]
    · exact h
    · exact Store.insertMany_keeps (hbatch records owner (hinsert owner)) h
  | createManyAtomic records =>
    rcases Repository.after_createManyAtomic repo r records s with
      hafter | ⟨owner, -, hafter⟩ <;> rw [after, hafter]
    · exact h
    · exact Store.inserts_keep (hbatch records owner (hinsert owner)) h
  | createIdempotent record =>
    rcases Repository.after_createIdempotent repo r record s with hafter | hafter <;>
      rw [after, hafter]
    · exact h
    · exact Repository.create_keeps (fun owner => hinsert owner _ (List.mem_singleton_self _)) r h
  | update now record =>
    rcases Repository.update_cases (r := r) now record s with
      hsame | ⟨before, old, after, owner, hdocuments, hid, -, -, hreplaced⟩
    · rw [Operation.after, hsame]
      exact h
    · rw [Operation.after, hreplaced, if_pos rfl]
      exact hreplace now record owner rfl _ before old after hdocuments hid h
  | delete id => exact Repository.delete_keeps hdelete r id h

/-! ## Primary keys -/

/-- A document with a primary key. -/
def Json.HasId (document : Json) : Prop :=
  ∃ u : Uuid, document.get? Schema.idPath = some (.str u.text)

/-- **The filter of a primary key** is satisfied by the documents that have it. -/
theorem Repository.satisfies_idFilter {document : Json} (h : document.HasId) (u : Uuid) :
    Filter.satisfies document (idFilter u) = true ↔
      document.get? Schema.idPath = some (.str u.text) := by
  obtain ⟨v, hv⟩ := h
  have hpath := Json.children_of_get? hv (Json.isObject_of_get? hv)
  rw [Filter.satisfies_of_holds (holds_idFilter u document), Filter.equalsAt, Json.candidates,
    Json.reach, hpath, hv]
  simp [Json.reach, Json.withItems, Json.items?, Json.matchesValue_text, Uuid.text_inj]

/-- **Documents with primary keys of their own.** -/
structure Keyed (documents : List Json) : Prop where
  /-- Each has one. -/
  hasId : ∀ d ∈ documents, d.HasId
  /-- No two have the same. -/
  nodup : (documents.map (Json.get? Schema.idPath)).Nodup

namespace Keyed

variable {documents before after : List Json} {old new d : Json}

/-- An accepted document has a primary key of its own. -/
theorem insert {name : String} {c c' : Collection} (h : Keyed c.documents) (hd : d.HasId)
    (hinsert : c.insert name d = .ok c') : Keyed c'.documents := by
  have hfits := Collection.fits_iff.mp (Collection.fits_of_insert hinsert)
  obtain rfl := Collection.insert_ok hinsert
  refine ⟨?_, ?_⟩
  · rw [List.forall_mem_append, List.forall_mem_singleton]
    exact ⟨h.hasId, hd⟩
  · rw [List.map_append, List.map_singleton, List.nodup_append]
    refine ⟨h.nodup, List.pairwise_singleton _ _, ?_⟩
    rintro _ hid _ hid' heq
    obtain ⟨other, hother, rfl⟩ := List.mem_map.mp hid
    obtain rfl := List.mem_singleton.mp hid'
    -- two documents of one key would share it, and the store looks for just that
    obtain ⟨u, hu⟩ := hd
    have hshares : Collection.sharesId other d = true := by
      simp [Collection.sharesId, heq, hu, Json.same]
    exact absurd hshares (by simp [(hfits other hother).1])

/-- A document that takes the place of another one takes its primary key. -/
theorem replaced (h : Keyed (before ++ old :: after)) (hobj : new.isObject = true) :
    Keyed (before ++ Collection.keepId old new :: after) := by
  obtain ⟨u, hu⟩ := h.hasId old (by simp)
  have hnew := Collection.get?_keepId hu hobj
  refine ⟨fun d hd => ?_, ?_⟩
  · rcases List.mem_append.mp hd with hd | hd
    · exact h.hasId d (by simp [hd])
    · rcases List.mem_cons.mp hd with rfl | hd
      · exact ⟨u, hnew⟩
      · exact h.hasId d (by simp [hd])
  · have hnodup := h.nodup
    rw [List.map_append, List.map_cons, hu] at hnodup
    rwa [List.map_append, List.map_cons, hnew]

theorem removed (h : Keyed (before ++ old :: after)) : Keyed (before ++ after) := by
  have hsub : (before ++ after).Sublist (before ++ old :: after) :=
    (List.sublist_cons_self old after).append_left before
  exact ⟨fun d hd => h.hasId d (hsub.subset hd), h.nodup.sublist (hsub.map _)⟩

/-- A primary key that no document has finds none. -/
theorem filter_eq_nil {u : Uuid} (hids : ∀ d ∈ documents, d.HasId)
    (hnone : some (.str u.text) ∉ documents.map (Json.get? Schema.idPath)) :
    documents.filter (Filter.satisfies · (Repository.idFilter u)) = [] := by
  refine List.filter_eq_nil_iff.mpr fun d hd hsat => hnone ?_
  rw [← (Repository.satisfies_idFilter (hids d hd) u).mp hsat]
  exact List.mem_map_of_mem hd

/-- **Only one document has a primary key.** -/
theorem filter_eq (h : Keyed documents) (hd : d ∈ documents) {u : Uuid}
    (hid : d.get? Schema.idPath = some (.str u.text)) :
    documents.filter (Filter.satisfies · (Repository.idFilter u)) = [d] := by
  obtain ⟨before, after, rfl⟩ := List.append_of_mem hd
  have hnodup := h.nodup
  rw [List.map_append, List.map_cons, List.nodup_append, List.nodup_cons, hid] at hnodup
  obtain ⟨-, ⟨hafter, -⟩, hbefore⟩ := hnodup
  have hself : Filter.satisfies d (Repository.idFilter u) = true :=
    (Repository.satisfies_idFilter ⟨u, hid⟩ u).mpr hid
  have hfront := filter_eq_nil (fun e he => h.hasId e (by simp [he]))
    fun hmem => hbefore _ hmem _ List.mem_cons_self rfl
  have hback := filter_eq_nil (fun e he => h.hasId e (by simp [he])) hafter
  simp only [List.filter_append, List.filter_cons, hself, hfront, hback, ↓reduceIte,
    List.nil_append]

end Keyed

/-- **All that is written has a primary key of its own.** -/
theorem Written.keyed {s : Store} (h : Written s) (name : String) : Keyed (s.documents name) := by
  induction h generalizing name with
  | start hstart =>
    rw [hstart]
    exact ⟨by simp, .nil⟩
  | @call s hs c ih =>
    by_cases hname : name = c.repo.collection
    · subst hname
      have hid (a : c.Value) : (c.repo.entity.toJson a).HasId := ⟨_, c.lawful.id a⟩
      refine Operation.keeps (P := fun c => Keyed c.documents)
        (fun owner a _ k k' hk hinsert => hk.insert (hid a) hinsert)
        (fun now record owner _ k before old after hdocuments _ hk => ?_)
        (fun k before old after hdocuments hk => ?_) c.request (ih c.repo.collection)
      · obtain ⟨u, hu⟩ := hid (c.repo.entity.touch now (c.repo.entity.withOwner owner record))
        exact (hdocuments ▸ hk).replaced (Json.isObject_of_get? hu)
      · exact (hdocuments ▸ hk).removed
    · rw [Store.documents, (hs.changes_only_own c).2 name hname]
      exact ih name
  | index _ other i ih =>
    rw [Store.documents_createIndex]
    exact ih name

/-! ## Records that can be read -/

/-- **A type of records with primary keys that stay**: neither another owner nor a change at
an instant gives a value another one. -/
structure Entity.KeepsId (e : Entity α) : Prop where
  /-- Another owner leaves the primary key. -/
  withOwner : ∀ o a, e.id (e.withOwner o a) = e.id a
  /-- A time of change leaves it. -/
  touch : ∀ now a, e.id (e.touch now a) = e.id a

namespace Record

/-- Records with any further fields keep their primary keys. -/
theorem keepsId_entity : entity.KeepsId := ⟨fun _ _ => rfl, fun _ _ => rfl⟩

open Json.Decode in
/-- **A record is read as it was stored**, if its instants are and its further fields are none
of the common ones. -/
theorem ofJson?_toJson {r : Record}
    (hcreated : instant? (.str r.base.createdAt.text) = some r.base.createdAt)
    (hupdated : instant? (.str r.base.updatedAt.text) = some r.base.updatedAt)
    (hextra : ∀ m ∈ r.extra, m.1 ∉ RecordBase.keys) : ofJson? r.toJson = some r := by
  have hbase : RecordBase.ofJson? r.toJson = some r.base := by
    have hfields : fields? RecordBase.keys r.toJson =
        some [some (.str r.base.id.text), some r.base.owner.toJson,
          some (.str r.base.createdAt.text), some (.str r.base.updatedAt.text)] := rfl
    simp [RecordBase.ofJson?, hfields, required?, hcreated, hupdated]
  have hfurther : (r.base.members ++ r.extra).filter
      (fun m => !RecordBase.keys.contains m.1) = r.extra := by
    have hcommon : r.base.members.filter (fun m => !RecordBase.keys.contains m.1) = [] := rfl
    rw [List.filter_append, hcommon, List.nil_append]
    exact List.filter_eq_self.mpr fun m hm => by simpa using hextra m hm
  rw [toJson, ofJson?, show Json.obj (r.base.members ++ r.extra) = r.toJson from rfl, hbase,
    Option.map_some]
  exact congrArg (fun extra => some (Record.mk r.base extra)) hfurther

end Record

/-- What takes the place of the document with its primary key is stored as it is. -/
theorem Repository.keepId_toJson {repo : Repository α} (hlawful : repo.entity.Lawful)
    (hkeeps : repo.entity.KeepsId) {old : Json} {record : α} (hid : old.HasId)
    (h : Filter.satisfies old (idFilter (repo.entity.id record)) = true) (now : Instant)
    (owner : Owner) :
    Collection.keepId old
        (repo.entity.toJson (repo.entity.touch now (repo.entity.withOwner owner record))) =
      repo.entity.toJson (repo.entity.touch now (repo.entity.withOwner owner record)) := by
  have hnew := hlawful.id (repo.entity.touch now (repo.entity.withOwner owner record))
  rw [hkeeps.touch, hkeeps.withOwner] at hnew
  exact Collection.keepId_of_get? ((satisfies_idFilter hid _).mp h) hnew

/-- **A store whose records of one collection a type can read.** Operations have written it,
of any repositories; what they store in this collection is read by the type, whoever owns
it, and keeps its primary key. -/
inductive WrittenFor (reader : Entity α) (name : String) : Store → Prop where
  /-- A store without documents. -/
  | start {s : Store} (h : ∀ name, s.documents name = []) : WrittenFor reader name s
  /-- A call is made, and done or refused. -/
  | call {s : Store} (h : WrittenFor reader name s) (c : Call)
    (hreads : c.repo.collection = name → c.repo.entity.KeepsId ∧
      ∀ owner, ∀ a ∈ c.operation.stored c.repo.entity owner,
        ∃ b, reader.ofJson? (c.repo.entity.toJson a) = some b) : WrittenFor reader name (c.after s)
  /-- An index is made. -/
  | index {s : Store} (h : WrittenFor reader name s) (other : String) (i : Index) :
    WrittenFor reader name ((Store.createIndex other i).after s)

namespace WrittenFor

variable {reader : Entity α} {name : String} {s : Store}

/-- Operations have written it. -/
theorem written (h : WrittenFor reader name s) : Written s := by
  induction h with
  | start h => exact .start h
  | call _ c _ ih => exact ih.call c
  | index _ other i ih => exact ih.index other i

/-- An operation on values that are read as they were stored leaves such a store. -/
theorem operation {repo : Repository α} (h : WrittenFor repo.entity name s)
    (hlawful : repo.entity.Lawful) (hkeeps : repo.entity.KeepsId)
    (hreads : ∀ a, repo.entity.ofJson? (repo.entity.toJson a) = some a) (r : Request)
    (op : Operation α) : WrittenFor repo.entity name (op.after repo r s) :=
  h.call ⟨repo, hlawful, r, op⟩ fun _ => ⟨hkeeps, fun _ a _ => ⟨a, hreads a⟩⟩

/-- **Every document of the collection can be read.** -/
theorem legible (h : WrittenFor reader name s) :
    ∀ d ∈ s.documents name, ∃ a, reader.ofJson? d = some a := by
  induction h with
  | start h => simp [h name]
  | @call s hs c hreads ih =>
    by_cases hname : c.repo.collection = name
    · subst hname
      obtain ⟨hkeeps, hstored⟩ := hreads rfl
      have hid (a : c.Value) : (c.repo.entity.toJson a).HasId := ⟨_, c.lawful.id a⟩
      -- what is replaced has a primary key, which makes the new document the stored form
      have hall : ∀ d ∈ s.documents c.repo.collection, d.HasId ∧ ∃ a, reader.ofJson? d = some a :=
        fun d hd => ⟨(hs.written.keyed _).hasId d hd, ih d hd⟩
      refine fun d hd => (Operation.keeps (P := fun k => ∀ d ∈ k.documents, d.HasId ∧
        ∃ a, reader.ofJson? d = some a) ?_ ?_ ?_ c.request hall d hd).2
      · intro owner a ha k k' hk hinsert
        obtain rfl := Collection.insert_ok hinsert
        rw [List.forall_mem_append, List.forall_mem_singleton]
        exact ⟨hk, hid a, hstored owner a ha⟩
      · intro now record owner hop k before old after hdocuments hsat hk
        rw [hdocuments, List.forall_mem_append, List.forall_mem_cons] at hk
        rw [Repository.keepId_toJson c.lawful hkeeps hk.2.1.1 hsat, List.forall_mem_append,
          List.forall_mem_cons]
        refine ⟨hk.1, ⟨hid _, hstored owner _ ?_⟩, hk.2.2⟩
        rw [hop]
        exact List.mem_singleton_self _
      · intro k before old after hdocuments hk
        rw [hdocuments, List.forall_mem_append, List.forall_mem_cons] at hk
        rw [List.forall_mem_append]
        exact ⟨hk.1, hk.2.2⟩
    · rw [Store.documents, (hs.written.changes_only_own c).2 name (Ne.symm hname)]
      exact ih
  | index _ other i ih =>
    rw [Store.documents_createIndex]
    exact ih

end WrittenFor

end ScopedDocs

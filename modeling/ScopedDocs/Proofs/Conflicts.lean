import ScopedDocs.Proofs.Answers
import ScopedDocs.Proofs.Uniqueness
/-!
# Conflicts — records that are refused for a taken key

A record that is stored once is refused as there already if the store takes it for a
duplicate and the caller's tenant has no record with its key
(`Repository.result_createIdempotent`). In a store with the index of the keys in force,
this is so where a record of another tenant has the key, and also where the primary key is
taken, or the key in another unique index (`Repository.taken_iff`): which of these it was,
the refusal does not say.
-/


namespace ScopedDocs

/-! ## Documents that do not fit -/

namespace Collection

variable {name : String} {indexes : List Index} {document : Json}

/-- **Inserting a document** is refused for a taken key just if it does not fit. -/
theorem insert_document {c : Collection} (h : document.isObject = true) :
    c.insert name document =
      if fits c.indexes document c.documents then
        .ok { c with documents := c.documents ++ [document] }
      else duplicate name := by
  rw [insert, h]
  simp only [Bool.not_true, Bool.false_eq_true, ↓reduceIte, checkUnique]
  split <;> rfl

/-- What does not fit shares its primary key with another document, or its key in a unique
index. -/
theorem fits_eq_false_iff {others : List Json} :
    fits indexes document others = false ↔ ∃ other ∈ others,
      sharesId other document = true ∨
        ∃ i ∈ indexes, i.unique = true ∧ sharesKey i other document = true := by
  rw [← Bool.not_eq_true, fits_iff]
  simp only [Beside, not_forall, not_and_or, exists_prop, Bool.not_eq_false]

/-- **A text is shared** in an index of its path just by the documents that have it there. -/
theorem sharesKey_text_iff {i : Index} {other : Json} {path key : String}
    (hpaths : i.paths = [path]) (hkey : document.first? path = some (.str key)) :
    sharesKey i other document = true ↔ other.first? path = some (.str key) := by
  have hself : i.keyOf? document = some [.str key] := by
    rw [Index.keyOf?_of_covers fun _ => ⟨path, by simp [hpaths], by simp [hkey]⟩, Index.key, hpaths]
    simp [hkey]
  rw [sharesKey, hself, Index.keyOf?, hpaths]
  cases hother : other.first? path with
  | none =>
    -- no key of a sparse index, and `null` in another one
    cases i.sparse <;> simp [hother, Index.sameKey, Json.sameItems, Json.same]
  | some value =>
    cases value <;> simp [hother, Index.sameKey, Json.sameItems, Json.same]

end Collection

/-! ## Refusals -/

theorem Request.error_of_owner {r : Request} {e : Error} (h : r.owner = .error e) :
    ∃ cause, e = .tenancy cause := by
  unfold owner at h
  split at h
  · exact absurd h (by simp)
  · exact ⟨_, (Except.error.inj h).symm⟩

theorem Request.error_of_check {r : Request} {e : Error} (h : r.check = .error e) :
    ∃ cause, e = .request cause := by
  unfold check at h
  split at h
  · exact ⟨_, (Except.error.inj h).symm⟩
  · split at h
    · exact ⟨_, (Except.error.inj h).symm⟩
    · exact absurd h (by simp)

namespace Repository

variable {α : Type} {repo : Repository α} {r : Request} {s : Store} {record : α}
  {path key : String} {o : Owner}

/-- The document of a record under an owner. -/
def stored (repo : Repository α) (o : Owner) (record : α) : Json :=
  repo.entity.toJson (repo.entity.withOwner o record)

/-- The refusal of a record whose key is taken. -/
def taken (repo : Repository α) : Error :=
  .record (.alreadyExists repo.schema.entityType "idempotency_key")

theorem error_of_admission {e : Error} (h : repo.admission r = .error e) :
    ∃ cause, e = .request cause := by
  unfold admission at h
  split at h <;> exact Request.error_of_check h

/-- **Storing a record** answers with it if it fits. -/
theorem result_create (hlawful : repo.entity.Lawful) (record : α) (s : Store) :
    (repo.create r record).result s =
      (r.owner >>= fun o => repo.admission r >>= fun _ =>
        if Collection.fits (s.indexes repo.collection) (repo.stored o record)
            (s.documents repo.collection) then .ok (repo.entity.withOwner o record)
        else Collection.duplicate repo.collection) := by
  rw [create, StoreM.result_bind, StoreM.result_answer]
  cases r.owner with
  | error e => rfl
  | ok o =>
    have hobject : (repo.stored o record).isObject = true :=
      Json.isObject_of_get? (hlawful.owner o record)
    have hinsert : (Store.insertOne repo.collection (repo.stored o record)).result s =
        ((s.collection repo.collection).insert repo.collection (repo.stored o record)).map
          fun _ => () := by
      rw [Store.insertOne, Store.result_writing, Store.changed_eq]
      cases (s.collection repo.collection).insert repo.collection (repo.stored o record) <;> rfl
    simp only [ok_bind, StoreM.after_answer, StoreM.result_bind, result_call]
    rw [← stored, hinsert, Collection.insert_document hobject, Store.documents, Store.indexes]
    cases repo.admission r with
    | error e => rfl
    | ok _ =>
      rw [ok_bind]
      split <;> rfl

/-- **Looking for a key** answers with the first document of the tenant that has it. -/
theorem result_existing (hleads : Schema.Leads path) (howner : r.owner = .ok o)
    (hlet : repo.admission r = .ok ()) (s : Store) :
    (repo.existing r path key).result s =
      match (s.documents repo.collection).find? (Filter.satisfies · (keyFilter path key o)) with
      | some d => repo.decode d
      | none => .error repo.taken := by
  have htotal : Filter.Total (keyFilter path key o) :=
    Filter.total_of_holds (holds_keyFilter hleads key o)
  obtain ⟨found, hsplit⟩ := Collection.split?_of_total htotal (s.documents repo.collection)
  have hfirst := Collection.head?_filter_of_split? hsplit
  rw [List.head?_filter] at hfirst
  rw [existing, StoreM.result_bind, StoreM.result_answer, howner, ok_bind, StoreM.after_answer,
    StoreM.result_bind, result_findFirst htotal hsplit, hlet, hfirst]
  cases found <;> rfl

/-- **Storing a record once** answers with it if it fits, and else with the first record of
the tenant that has its key. If there is none, the key counts as taken. -/
theorem result_createIdempotent (hlawful : repo.entity.Lawful) (hleads : Schema.Leads path)
    (hpath : repo.schema.idempotencyPath = some path)
    (hkey : repo.entity.idempotencyKey record = some key) (s : Store) :
    (repo.createIdempotent r record).result s =
      (r.owner >>= fun o => repo.admission r >>= fun _ =>
        if Collection.fits (s.indexes repo.collection) (repo.stored o record)
            (s.documents repo.collection) then .ok (.created (repo.entity.withOwner o record))
        else
          match (s.documents repo.collection).find?
              (Filter.satisfies · (keyFilter path key o)) with
          | some d => (repo.decode d).map .alreadyExists
          | none => .error repo.taken) := by
  have hcreate := repo.result_create (r := r) hlawful record s
  unfold createIdempotent
  simp only [hkey, hpath, StoreM.result_tryCatch, StoreM.result_map, StoreM.after_map]
  cases howner : r.owner with
  | error e =>
    obtain ⟨cause, rfl⟩ := Request.error_of_owner howner
    rw [howner] at hcreate
    rw [hcreate]
    rfl
  | ok o =>
    cases hlet : repo.admission r with
    | error e =>
      obtain ⟨cause, rfl⟩ := error_of_admission hlet
      rw [howner, hlet] at hcreate
      rw [hcreate]
      rfl
    | ok _ =>
      rw [howner, hlet, ok_bind, ok_bind] at hcreate
      rw [ok_bind, ok_bind]
      split at hcreate
      · next hfits =>
        rw [hcreate, if_pos hfits]
        rfl
      · next hfits =>
        -- the refused record left the documents as they were
        have hsame := create_refused hcreate repo.collection
        rw [hcreate, if_neg hfits]
        simp only [Collection.duplicate, Except.map, Error.isDuplicateKey, ↓reduceIte,
          StoreM.result_map, result_existing hleads howner hlet, Store.documents, hsame]
        cases (s.collection repo.collection).documents.find?
          (Filter.satisfies · (keyFilter path key o)) <;> rfl

/-! ## Taken keys -/

/-- No document has a key, if none is found by it. -/
theorem find?_keyFilter_eq_none_iff (hleads : Schema.Leads path) {documents : List Json} :
    documents.find? (Filter.satisfies · (keyFilter path key o)) = none ↔
      ∀ d ∈ documents, ¬ HasKey o.tenant path key d := by
  have hsatisfies (d : Json) :
      Filter.satisfies d (keyFilter path key o) = true ↔ HasKey o.tenant path key d := by
    have hholds := holds_keyFilter hleads key o d
    rw [Filter.satisfies_of_holds hholds, ← holds_keyFilter_iff hleads, hholds, Except.ok.injEq]
  simp only [List.find?_eq_none, hsatisfies]

/-- **When a key counts as taken**: the record does not fit, and the tenant has no document
with its key. -/
theorem result_eq_alreadyExists_iff (hlawful : repo.entity.Lawful) (hleads : Schema.Leads path)
    (hpath : repo.schema.idempotencyPath = some path)
    (hkey : repo.entity.idempotencyKey record = some key) :
    (∃ type field, (repo.createIdempotent r record).result s =
        .error (.record (.alreadyExists type field))) ↔
      repo.admission r = .ok () ∧ ∃ o, r.owner = .ok o ∧
        Collection.fits (s.indexes repo.collection) (repo.stored o record)
          (s.documents repo.collection) = false ∧
        ∀ d ∈ s.documents repo.collection, ¬ HasKey o.tenant path key d := by
  rw [result_createIdempotent hlawful hleads hpath hkey]
  constructor
  · rintro ⟨type, field, h⟩
    rcases bind_eq_error.mp h with howner | ⟨o, howner, h⟩
    · obtain ⟨cause, hcause⟩ := Request.error_of_owner howner
      exact absurd hcause (by simp)
    rcases bind_eq_error.mp h with hlet | ⟨⟨⟩, hlet, h⟩
    · obtain ⟨cause, hcause⟩ := error_of_admission hlet
      exact absurd hcause (by simp)
    split at h
    · exact absurd h (by simp)
    · next hfits =>
      split at h
      · -- a document that is found is read, or cannot be read
        unfold decode at h
        split at h <;> exact absurd h (by simp [Except.map])
      · next hnone =>
        exact ⟨hlet, o, howner, Bool.eq_false_iff.mpr hfits,
          (find?_keyFilter_eq_none_iff hleads).mp hnone⟩
  · rintro ⟨hlet, o, howner, hfits, hnone⟩
    refine ⟨repo.schema.entityType, "idempotency_key", ?_⟩
    rw [howner, hlet, ok_bind, ok_bind, if_neg (by simp [hfits]),
      (find?_keyFilter_eq_none_iff hleads).mpr hnone]
    rfl

/-- **A record of another tenant has the key.** -/
def KeyElsewhere (repo : Repository α) (tenant : Uuid) (path key : String) (s : Store) : Prop :=
  ∃ d ∈ s.documents repo.collection, d.first? path = some (.str key) ∧
    ∃ o : Owner, d.IsRecordOf o ∧ o.tenant ≠ tenant

/-- **Something else is taken**: the primary key of a document, or its key in a unique index
that is not of the path. -/
def OtherwiseTaken (repo : Repository α) (path : String) (document : Json) (s : Store) : Prop :=
  ∃ d ∈ s.documents repo.collection, Collection.sharesId d document = true ∨
    ∃ i ∈ s.indexes repo.collection, i.unique = true ∧ i.paths ≠ [path] ∧
      Collection.sharesKey i d document = true

theorem hasKey_of_isRecordOf {d : Json} (hrecord : d.IsRecordOf o)
    (hkey : d.first? path = some (.str key)) : HasKey o.tenant path key d := by
  have hchildren := Json.children_of_get? hrecord.owner (Json.isObject_of_get? hrecord.owner)
  have htenant : d.candidates [Owner.path, OwnerLevel.tenant.key] = [.str o.tenant.text] := by
    simp only [Json.candidates, Json.reach, hchildren]
    rfl
  refine ⟨Filter.equalsAt_text_iff.mpr ⟨_, htenant ▸ List.mem_singleton_self _, .inl rfl⟩,
    key, ?_, .inl rfl⟩
  exact List.mem_flatMap.mpr ⟨.str key, List.mem_of_mem_head? hkey, List.mem_cons_self⟩

/-- **What a refusal as taken means.** In a store that operations have written and where the
index of the keys is in force, a record with a key is refused as there already just if its
tenant has no document with the key, and a record of another tenant has it or something else
of the record is taken. So it is the key that is taken where nothing else is. -/
theorem taken_iff (h : Written s) (hbuilt : repo.schema.IsBuilt) (hlawful : repo.entity.Lawful)
    (hpath : repo.schema.idempotencyPath = some path) (hforce : repo.KeyInForce path s)
    (hkey : repo.entity.idempotencyKey record = some key)
    (hstored : ∀ o, (repo.stored o record).first? path = some (.str key)) :
    (∃ type field, (repo.createIdempotent r record).result s =
        .error (.record (.alreadyExists type field))) ↔
      repo.admission r = .ok () ∧ ∃ o, r.owner = .ok o ∧
        (∀ d ∈ s.documents repo.collection, ¬ HasKey o.tenant path key d) ∧
        (repo.KeyElsewhere o.tenant path key s ∨
          repo.OtherwiseTaken path (repo.stored o record) s) := by
  rw [result_eq_alreadyExists_iff hlawful (hbuilt.sound.2 path hpath) hpath hkey]
  refine and_congr_right fun _ => exists_congr fun o => and_congr_right fun _ => ?_
  rw [and_comm]
  refine and_congr_right fun hnone => ?_
  rw [Collection.fits_eq_false_iff]
  constructor
  · rintro ⟨d, hd, hid | ⟨i, hi, hunique, hshares⟩⟩
    · exact .inr ⟨d, hd, .inl hid⟩
    · by_cases hpaths : i.paths = [path]
      · -- the key itself is taken, and not by the tenant, where it would have been found
        have hfirst := (Collection.sharesKey_text_iff hpaths (hstored o)).mp hshares
        obtain ⟨other, hrecord⟩ := h.records _ d hd
        refine .inl ⟨d, hd, hfirst, other, hrecord, fun heq => hnone d hd ?_⟩
        exact heq ▸ hasKey_of_isRecordOf hrecord hfirst
      · exact .inr ⟨d, hd, .inr ⟨i, hi, hunique, hpaths, hshares⟩⟩
  · rintro (⟨d, hd, hfirst, -⟩ | ⟨d, hd, hid | ⟨i, hi, hunique, -, hshares⟩⟩)
    · obtain ⟨i, hi, hunique, hpaths, -⟩ := hforce
      exact ⟨d, hd, .inr ⟨i, hi, hunique,
        (Collection.sharesKey_text_iff hpaths (hstored o)).mpr hfirst⟩⟩
    · exact ⟨d, hd, .inl hid⟩
    · exact ⟨d, hd, .inr ⟨i, hi, hunique, hshares⟩⟩

/-- A user of another tenant. -/
def strangerRequest : Request := ⟨{ tenant := some ⟨5⟩, user := some ⟨6⟩ }, none, none, false⟩

theorem keyInForce_oneSubmission : submissions.KeyInForce "idempotency_key" oneSubmission :=
  ⟨submissionIndex, by decide, rfl, rfl, rfl⟩

/-- The key of a user is taken for another tenant. -/
theorem taken_for_stranger :
    submissions.KeyElsewhere ⟨5⟩ "idempotency_key" "k" oneSubmission ∧
      ∃ type field, (submissions.createIdempotent strangerRequest (submission ⟨8⟩ "k")).result
        oneSubmission = .error (.record (.alreadyExists type field)) := by
  have hone : oneSubmission.documents submissions.collection =
    [(submissionOf ⟨2⟩ ⟨7⟩ "k").toJson] := rfl
  have helsewhere : submissions.KeyElsewhere ⟨5⟩ "idempotency_key" "k" oneSubmission := by
    refine ⟨(submissionOf ⟨2⟩ ⟨7⟩ "k").toJson, by simp [hone], rfl,
      ⟨⟨1⟩, none, none, some ⟨2⟩⟩, ?_, ?_⟩
    · exact ⟨⟨_, rfl⟩, rfl⟩
    · decide
  have hnone : ∀ d ∈ oneSubmission.documents submissions.collection,
      ¬ HasKey ⟨5⟩ "idempotency_key" "k" d := by
    rw [hone, List.forall_mem_singleton]
    exact fun h => absurd h.1 (by decide)
  refine ⟨helsewhere, (taken_iff written_oneSubmission isBuilt_submissions Record.lawful_entity rfl
    keyInForce_oneSubmission rfl fun _ => rfl).mpr ⟨rfl, ?_⟩⟩
  exact ⟨⟨⟨5⟩, none, none, some ⟨6⟩⟩, rfl, hnone, .inl helsewhere⟩

/-- **A free key may be refused as taken**: a second record of a user has the primary key of
the first one and a key of its own, which no document has. -/
theorem free_key_taken :
    ¬ ∀ (repo : Repository Record) (r : Request) (s : Store) (record : Record)
      (path key : String) (o : Owner), Written s → repo.schema.IsBuilt → repo.entity.Lawful →
      repo.schema.idempotencyPath = some path → repo.KeyInForce path s →
      repo.entity.idempotencyKey record = some key →
      (∀ o, (repo.stored o record).first? path = some (.str key)) → r.owner = .ok o →
      (∃ type field, (repo.createIdempotent r record).result s =
        .error (.record (.alreadyExists type field))) →
      repo.KeyElsewhere o.tenant path key s := by
  intro h
  obtain ⟨d, hd, hfirst, -⟩ := h submissions (userRequest ⟨2⟩) oneSubmission (submission ⟨7⟩ "j")
    "idempotency_key" "j" ⟨⟨1⟩, none, none, some ⟨2⟩⟩ written_oneSubmission isBuilt_submissions
    Record.lawful_entity rfl keyInForce_oneSubmission rfl (fun _ => rfl) rfl ⟨_, _, rfl⟩
  change d ∈ [(submissionOf ⟨2⟩ ⟨7⟩ "k").toJson] at hd
  obtain rfl := List.mem_singleton.mp hd
  have hkey : some (Json.str "k") = some (.str "j") := hfirst
  exact absurd hkey (by simp)

end Repository

end ScopedDocs

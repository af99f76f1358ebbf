import ScopedDocs.Proofs.Enforcement
import ScopedDocs.Proofs.History
import ScopedDocs.Proofs.Idempotency
import ScopedDocs.Proofs.Isolation
import ScopedDocs.Proofs.Rows
/-!
# Answers — whose records a caller is handed

A search and an update hand back records in the caller's scope, and a submission that
is there already is answered with a record of the caller's tenant
(`Written.hands_own`). Whether a record is in scope depends on its owner alone
(`Guard.inScope_of_owner`), and the owner a record is read with is the one its document
is stored under: no projection changes it, and an update keeps it.
-/


namespace ScopedDocs

variable {α : Type}

/-- **The scope looks at owners only.** -/
theorem Guard.inScope_of_owner {document other : Json} {o : Owner} (v : Visibility) (r : Request)
    (h : document.get? Owner.path = some o.toJson) (hother : other.get? Owner.path = some o.toJson) :
    inScope v r document = inScope v r other := by
  obtain ⟨source, audience⟩ := v
  cases hterms : scopeTerms source audience r with
  | error e => simp only [inScope, hterms]
  | ok terms =>
    rw [Bool.eq_iff_iff, inScope_iff_covers hterms h, inScope_iff_covers hterms hother]

namespace Repository

variable {repo : Repository α} {r : Request} {s : Store}

/-! ## Searching -/

/-- **A plan that has passed the guard** starts with a filter that is confined to the
scope, goes on with the projection that the search asks for, and reshapes no rows
behind it. -/
theorem explain_stages {search : Search} {p : Pipeline} (h : repo.explain r search = .ok p) :
    ∃ enforced projection rest,
      p = .filter enforced :: ((projection.map Stage.project).toList ++ rest) ∧
      Filter.Confined enforced (Guard.inScope search.visibility r) ∧
      search.options.projection repo.schema = .ok projection ∧
      ∀ stage ∈ rest, stage.isProjection = false := by
  obtain ⟨_, enforced, fields, keys, limit, -, henforced, hprojection, -, -, rfl⟩ :=
    explain_iff.mp h
  refine ⟨enforced, fields.map .obj, (keys.map fun keys => .sort (.obj keys)).toList ++
    [.skip search.options.skip.toNat, .limit limit.toNat], ?_, Guard.confined_enforce henforced,
    hprojection, fun stage hstage => ?_⟩
  · rw [Pipeline.ofParts, Option.map_map, List.cons_append, List.cons_append, List.append_assoc]
    rfl
  · rcases List.mem_append.mp hstage with hsort | hpage
    · obtain ⟨keys, -, rfl⟩ := Option.map_eq_some_iff.mp (Option.mem_toList.mp hsort)
      rfl
    · rcases (by simpa using hpage : stage = _ ∨ stage = _) with rfl | rfl <;> rfl

/-- **The rows of a search** are made of documents in scope, and have their owners if
they have any. -/
theorem rows_in_scope {search : Search} {p : Pipeline} {rows : List Json}
    (hbuilt : repo.schema.IsBuilt)
    (hkeys : ∀ d ∈ s.documents repo.collection, d.isWellFormed = true)
    (hplan : repo.explain r search = .ok p)
    (hrows : Rows.run (s.documents repo.collection) p.toJson = .ok rows) :
    ∀ row ∈ rows, ∃ d ∈ s.documents repo.collection,
      Guard.inScope search.visibility r d = true ∧
        ∀ value, row.get? Owner.path = some value → d.get? Owner.path = some value := by
  obtain ⟨enforced, projection, rest, rfl, hconfined, hprojection, hrest⟩ := explain_stages hplan
  rw [Rows.run_cons] at hrows
  obtain ⟨selected, hselected, hrows⟩ := bind_eq_ok.mp hrows
  have hscope : ∀ d ∈ selected, d ∈ s.documents repo.collection ∧
      Guard.inScope search.visibility r d = true := by
    intro d hd
    obtain ⟨hmem, hholds⟩ := Rows.mem_of_select hselected hd
    refine ⟨hmem, ?_⟩
    by_contra hout
    rw [hconfined d (by simpa using hout)] at hholds
    exact absurd hholds (by simp)
  intro row hrow
  cases projection with
  | none =>
    obtain ⟨hmem, hseen⟩ := hscope row (Rows.mem_of_run hrows hrest hrow)
    exact ⟨row, hmem, hseen, fun _ h => h⟩
  | some fields =>
    obtain ⟨members, rfl, hleads⟩ := ResultOptions.projection_ok hbuilt.sound.1 hprojection
    -- the projection is made of each document, and then rows are only passed on
    rw [Option.map_some, Option.toList_some, List.cons_append, List.nil_append, Rows.run_cons,
      Rows.applyStage, ok_bind] at hrows
    obtain ⟨d, hd, rfl⟩ := List.mem_map.mp (Rows.mem_of_run hrows hrest hrow)
    obtain ⟨hmem, hseen⟩ := hscope d hd
    exact ⟨d, hmem, hseen, fun _ h => Projection.get?_row hleads (hkeys d hmem) h⟩

/-- **A search hands back records in scope.** -/
theorem search_in_scope {search : Search} {records : List α} (hbuilt : repo.schema.IsBuilt)
    (hreads : repo.entity.ReadsOwner)
    (hrecords : ∀ d ∈ s.documents repo.collection, ∃ o, d.IsRecordOf o)
    (hkeys : ∀ d ∈ s.documents repo.collection, d.isWellFormed = true)
    (h : (repo.search r search).result s = .ok records) :
    ∀ a ∈ records, Guard.inScope search.visibility r (repo.entity.toJson a) = true := by
  rw [result_search] at h
  obtain ⟨p, hplan, h⟩ := bind_eq_ok.mp h
  obtain ⟨⟨⟩, -, h⟩ := bind_eq_ok.mp h
  obtain ⟨rows, hrows, h⟩ := bind_eq_ok.mp h
  intro a ha
  obtain ⟨row, hrow, hdecode⟩ := ok_of_mem_mapM h ha
  obtain ⟨d, hd, hseen, howner⟩ := rows_in_scope hbuilt hkeys hplan hrows row hrow
  have hread : repo.entity.ofJson? row = some a := by
    unfold decode at hdecode
    split at hdecode
    · next hread => rw [hread, Except.ok.inj hdecode]
    · exact absurd hdecode (by simp)
  obtain ⟨value, o, hvalue, hofJson, howned⟩ := hreads row a hread
  obtain ⟨stored, hrecord⟩ := hrecords d hd
  -- the owner that is read is the one the document is stored under
  have hstored := howner value hvalue
  rw [hrecord.owner, Option.some.injEq] at hstored
  rw [← hstored, Owner.ofJson?_toJson, Option.some.injEq] at hofJson
  rw [← hofJson] at howned
  rwa [Guard.inScope_of_owner search.visibility r howned hrecord.owner]

/-! ## Updating -/

/-- **An update answers** the record under the owner of a document the caller may
change. -/
theorem update_ok {now : Instant} {record a : α}
    (h : (repo.update now r record).result s = .ok a) :
    ∃ d ∈ s.documents repo.collection, ∃ o, repo.mayChange r d = true ∧
      repo.storedOwner d = .ok o ∧
      a = repo.entity.touch now (repo.entity.withOwner o record) := by
  rw [update, StoreM.result_bind, StoreM.result_answer] at h
  obtain ⟨condition, hfilter, h⟩ := bind_eq_ok.mp h
  have htotal := total_ownedFilter hfilter
  obtain ⟨found, hsplit⟩ := Collection.split?_of_total htotal (s.documents repo.collection)
  rw [StoreM.after_answer, StoreM.result_bind, result_findFirst htotal hsplit, after_findFirst] at h
  obtain ⟨first, hfirst, h⟩ := bind_eq_ok.mp h
  obtain ⟨-, -, rfl⟩ := map_eq_ok.mp hfirst
  rcases found with _ | ⟨before, d, after⟩
  · exact absurd h (by simp [notFound])
  · obtain ⟨hdocuments, -, hholds⟩ := Collection.split?_eq_some hsplit
    rw [holds_ownedFilter hfilter, Except.ok.injEq, Bool.and_eq_true] at hholds
    rw [Option.map_some, StoreM.result_bind, StoreM.result_answer] at h
    obtain ⟨o, howner, h⟩ := bind_eq_ok.mp h
    rw [StoreM.result_bind] at h
    obtain ⟨written, -, h⟩ := bind_eq_ok.mp h
    refine ⟨d, by simp [hdocuments], o, hholds.2, howner, ?_⟩
    split at h
    · exact absurd h (by simp [notFound])
    · exact (Except.ok.inj h).symm

/-- **An update hands back a record in scope.** -/
theorem update_in_scope {now : Instant} {record a : α} (hlawful : repo.entity.Lawful)
    (hrecords : ∀ d ∈ s.documents repo.collection, ∃ o, d.IsRecordOf o)
    (h : (repo.update now r record).result s = .ok a) :
    repo.mayChange r (repo.entity.toJson a) = true := by
  obtain ⟨d, hd, o, hmay, howner, rfl⟩ := update_ok h
  obtain ⟨stored, hrecord⟩ := hrecords d hd
  obtain rfl := storedOwner_ok hrecord howner
  have howned := (hlawful.touch now (repo.entity.withOwner o record)).trans (hlawful.owner o record)
  rw [mayChange_eq] at hmay ⊢
  rwa [Guard.inScope_of_owner _ r howned hrecord.owner]

end Repository

/-- **What a caller is handed.** In a store that operations have written, a search
returns records in the scope it declares, and an update returns a record in the scope of
the caller at the default audience. A submission that is there already is answered with
a record of the caller's tenant. An object of a stored document has each key once, or a
projection could read another owner than a filter. -/
theorem Written.hands_own {s : Store} (h : Written s) {repo : Repository α}
    (hlawful : repo.entity.Lawful) (hreads : repo.entity.ReadsOwner)
    (hbuilt : repo.schema.IsBuilt)
    (hkeys : ∀ d ∈ s.documents repo.collection, d.isWellFormed = true) (r : Request) :
    (∀ search records, (repo.search r search).result s = .ok records →
      ∀ a ∈ records, Guard.inScope search.visibility r (repo.entity.toJson a) = true) ∧
    (∀ now record a, (repo.update now r record).result s = .ok a →
      repo.mayChange r (repo.entity.toJson a) = true) ∧
    (∀ record a, (repo.createIdempotent r record).result s = .ok (.alreadyExists a) →
      ∃ o : Owner, (repo.entity.toJson a).get? Owner.path = some o.toJson ∧
        usable r.caller.tenant = some o.tenant) := by
  have hrecords := h.records repo.collection
  refine ⟨fun _ _ => Repository.search_in_scope hbuilt hreads hrecords hkeys,
    fun _ _ _ => Repository.update_in_scope hlawful hrecords, fun record a hexists => ?_⟩
  obtain ⟨key, path, o, before, d, after, -, hpath, howner, -, -, hd, hread⟩ :=
    Repository.alreadyExists_found hbuilt hexists
  obtain ⟨value, o', hstored, hvalue, howned⟩ := hreads d a hread
  have hhas := (Repository.holds_keyFilter_iff (hbuilt.sound.2 path hpath)).mp hd
  have htenant := Owner.tenant_of_equalsAt hstored hvalue hhas.1
  exact ⟨o', howned, htenant ▸ Request.tenant_of_owner howner⟩

namespace Repository

/-- A store with one submission of a user. -/
def oneSubmission : Store := submitted ⟨2⟩ [(⟨7⟩, "k")]

theorem written_oneSubmission : Written oneSubmission :=
  .call (.index (.start (s := {}) fun _ => rfl) "submissions" submissionIndex)
    { repo := submissions, lawful := Record.lawful_entity, request := userRequest ⟨2⟩,
      operation := .createIdempotent (submission ⟨7⟩ "k") }

/-- The user finds the record, may update it, and is answered with it. -/
theorem hands_own_submission :
    ∃ records, (submissions.search (userRequest ⟨2⟩)
        (Search.everything (userRequest ⟨2⟩) .user)).result oneSubmission = .ok records ∧
      (∀ a ∈ records, Guard.inScope ⟨(userRequest ⟨2⟩).source, .user⟩ (userRequest ⟨2⟩)
        a.toJson = true) ∧
      records = [submissionOf ⟨2⟩ ⟨7⟩ "k"] := by
  have hown := written_oneSubmission.hands_own Record.lawful_entity Record.readsOwner
    isBuilt_submissions (by decide) (userRequest ⟨2⟩)
  exact ⟨_, rfl, hown.1 (Search.everything (userRequest ⟨2⟩) .user) _ rfl, rfl⟩

/-- **The record of a taken key need not be in scope**: another user of the tenant is
answered with it. -/
theorem alreadyExists_out_of_scope :
    ¬ ∀ (s : Store) (repo : Repository Record) (r : Request) (record a : Record), Written s →
      repo.schema.IsBuilt →
      (repo.createIdempotent r record).result s = .ok (.alreadyExists a) →
      repo.mayChange r (repo.entity.toJson a) = true := by
  intro h
  have hmay : false = true := h oneSubmission submissions (userRequest ⟨3⟩) (submission ⟨8⟩ "k")
    (submissionOf ⟨2⟩ ⟨7⟩ "k") written_oneSubmission isBuilt_submissions rfl
  exact absurd hmay (by simp)

end Repository

end ScopedDocs

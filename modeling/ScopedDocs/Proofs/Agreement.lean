import ScopedDocs.Proofs.Contents
import ScopedDocs.Proofs.Idempotency
import ScopedDocs.Proofs.Lookup
/-!
# Agreement — what is found can be changed

A caller who looks for a record by its primary key at the default audience sees the document
that an update or a deletion of this key would reach: both filters are satisfied by the
documents that have the key and are in scope, though one is planned from a search and the
other is put together by the repository (`Repository.reach_cases`). Where the guard refuses
the caller, all three are refused with its error (`Repository.all_refused`).
-/


namespace ScopedDocs

/-! ## What the guard refuses -/

namespace Guard

variable {e : Error} {caller : Caller} {declared : Owner} {level needed other : OwnerLevel}
  {own id otherId : Option Uuid}

theorem isTenancy_of_refuse {β : Type} {reason : Refusal}
    (h : (refuse level reason : Except Error β) = .error e) : e.isTenancy = true := by
  rw [← Except.error.inj h]
  rfl

theorem isTenancy_of_tenantTerm (h : tenantTerm caller declared = .error e) :
    e.isTenancy = true := by
  unfold tenantTerm at h
  split at h
  · exact isTenancy_of_refuse h
  · split at h
    · exact isTenancy_of_refuse h
    · split at h
      · exact isTenancy_of_refuse h
      · exact absurd h (by simp)

theorem isTenancy_of_clientTerm (h : clientTerm caller declared = .error e) :
    e.isTenancy = true := by
  unfold clientTerm at h
  split at h
  · exact isTenancy_of_refuse h
  · split at h
    · exact isTenancy_of_refuse h
    · split at h
      · exact isTenancy_of_refuse h
      · exact absurd h (by simp)

theorem isTenancy_of_checked (h : checked level own id = .error e) : e.isTenancy = true := by
  unfold checked at h
  split at h
  · exact absurd h (by simp)
  · split at h
    · exact absurd h (by simp)
    · exact isTenancy_of_refuse h

theorem isTenancy_of_memberTerm (h : memberTerm needed other id otherId = .error e) :
    e.isTenancy = true := by
  cases id with
  | none => exact isTenancy_of_refuse h
  | some id => exact absurd h (by simp [memberTerm])

/-- **The guard refuses for tenancy**, and for nothing else. -/
theorem isTenancy_of_scopeTerms {audience : Audience} {r : Request}
    (h : scopeTerms declared audience r = .error e) : e.isTenancy = true := by
  rw [scopeTerms, bind_eq_error] at h
  rcases h with h | ⟨tenant, -, h⟩
  · exact isTenancy_of_tenantTerm h
  · cases audience with
    | client =>
      rcases bind_eq_error.mp h with h | ⟨client, -, h⟩
      · exact isTenancy_of_clientTerm h
      · exact absurd h (by simp)
    | group | user =>
      rcases bind_eq_error.mp h with h | ⟨group, -, h⟩
      · exact isTenancy_of_checked h
      · rcases bind_eq_error.mp h with h | ⟨user, -, h⟩
        · exact isTenancy_of_checked h
        · rcases bind_eq_error.mp h with h | ⟨member, -, h⟩
          · exact isTenancy_of_memberTerm h
          · exact absurd h (by simp)
    | tenant | unknown =>
      rw [← Except.error.inj h]
      rfl

end Guard

namespace Repository

variable {α : Type} {repo : Repository α} {r : Request} {id : Uuid} {condition enforced : Json}
  {s : Store}

/-- **Where the guard refuses the caller** at the default audience, it refuses a lookup, an
update and a deletion, with the same error, and nothing changes. -/
theorem all_refused {e : Error} (hvalid : repo.config.validate = .ok ())
    (hid : repo.schema.RegistersId)
    (h : Guard.enforce condition ⟨r.source, repo.config.defaultAudience⟩ r = .error e)
    (id : Uuid) (s : Store) :
    e.isTenancy = true ∧
    ((repo.search r (Search.byId r id repo.config.defaultAudience)).result s = .error e ∧
      (repo.search r (Search.byId r id repo.config.defaultAudience)).after s = s) ∧
    (∀ now record, repo.entity.id record = id →
      (repo.update now r record).result s = .error e ∧
        (repo.update now r record).after s = s) ∧
    (repo.delete r id).result s = .error e ∧ (repo.delete r id).after s = s := by
  have hterms : Guard.scopeTerms r.source repo.config.defaultAudience r = .error e := by
    cases hterms : Guard.scopeTerms r.source repo.config.defaultAudience r with
    | error e' =>
      simp only [Guard.enforce, hterms, Except.map, Except.error.injEq] at h
      rw [h]
    | ok terms => exact absurd h (by simp [Guard.enforce, hterms, Except.map])
  have hgate (id : Uuid) :
      (repo.ownedFilter r id >>= fun _ => repo.admission r) = .error e := by
    rw [ownedFilter, Guard.ownershipFilter, Guard.enforce, hterms]
    rfl
  refine ⟨Guard.isTenancy_of_scopeTerms hterms, ⟨?_, after_search repo r _ s⟩,
    fun now record _ => update_refused (hgate _), delete_refused (hgate id)⟩
  rw [result_search, explain_byId hvalid hid, Guard.enforce, hterms]
  rfl

/-- The documents a caller may change at the default audience, one with a primary key among
them or not: **what a lookup finds, and what an update and a deletion make of it**. -/
theorem reach_cases (hvalid : repo.config.validate = .ok ()) (hid : repo.schema.RegistersId)
    (h : WrittenFor repo.entity repo.collection s)
    (henforce : Guard.enforce condition ⟨r.source, repo.config.defaultAudience⟩ r = .ok enforced)
    (hlet : repo.admission r = .ok ()) (id : Uuid) :
    ((repo.search r (Search.byId r id repo.config.defaultAudience)).result s = .ok [] ∧
      (repo.delete r id).result s = repo.notFound id ∧
      ∀ now record, repo.entity.id record = id →
        (repo.update now r record).result s = repo.notFound id) ∨
    ∃ before d after a, s.documents repo.collection = before ++ d :: after ∧
      d.get? Schema.idPath = some (.str id.text) ∧ repo.entity.ofJson? d = some a ∧
      (repo.search r (Search.byId r id repo.config.defaultAudience)).result s = .ok [a] ∧
      (repo.delete r id).result s = .ok () ∧
      ((repo.delete r id).after s).documents repo.collection = before ++ after ∧
      (∀ other, other ≠ repo.collection →
        ((repo.delete r id).after s).collection other = s.collection other) ∧
      ∀ now record, repo.entity.id record = id →
        (repo.update now r record).result s ≠ repo.notFound id := by
  obtain ⟨owned, hfilter⟩ : ∃ owned, repo.ownedFilter r id = .ok owned := by
    obtain ⟨terms, hterms, -⟩ := map_eq_ok.mp henforce
    rw [ownedFilter, Guard.ownershipFilter, Guard.enforce, hterms]
    exact ⟨_, rfl⟩
  have hkeyed := h.written.keyed repo.collection
  obtain ⟨found, hsplit⟩ := Collection.split?_of_total (total_ownedFilter hfilter)
    (s.documents repo.collection)
  -- the lookup takes the first of just the documents that the filter of writes is satisfied by
  have hsame : (fun d => Filter.satisfies d (idFilter id) &&
      Guard.inScope ⟨r.source, repo.config.defaultAudience⟩ r d) = (Filter.satisfies · owned) := by
    funext d
    rw [Filter.satisfies_of_holds (holds_ownedFilter hfilter d), mayChange_eq]
  have hlookup := result_search_byId hvalid hid hlet henforce id s
  have hfirst := Collection.head?_filter_of_split? hsplit
  rw [hsame] at hlookup
  rcases found with _ | ⟨before, d, after⟩
  · left
    rw [Option.map_none, List.head?_eq_none_iff] at hfirst
    refine ⟨by rw [hlookup, hfirst]; rfl,
      congrArg Deletion.answer (deletion_none hfilter hlet hsplit), fun now record hrecord => ?_⟩
    subst hrecord
    exact (update_none hfilter hlet hsplit).1
  · right
    obtain ⟨hdocuments, -, hholds⟩ := Collection.split?_eq_some hsplit
    have hd : d ∈ s.documents repo.collection := by simp [hdocuments]
    obtain ⟨a, hread⟩ := h.legible d hd
    obtain ⟨o, hrecord⟩ := h.written.records repo.collection d hd
    obtain ⟨hdeletion, -⟩ := deletion_found hfilter hlet hsplit
    rw [holds_ownedFilter hfilter, Except.ok.injEq, Bool.and_eq_true] at hholds
    obtain ⟨rest, hrest⟩ := List.head?_eq_some_iff.mp hfirst
    refine ⟨before, d, after, a, hdocuments,
      (satisfies_idFilter (hkeyed.hasId d hd) id).mp hholds.1, hread, ?_,
      congrArg Deletion.answer hdeletion, congrArg Deletion.after hdeletion,
      fun other hother => by rw [collection_delete hfilter hlet, if_neg hother],
      fun now record hsame => ?_⟩
    · have hdecode : repo.decode d = .ok a := by
        simp only [decode, hread]
      rw [hlookup, hrest]
      simp only [List.take_succ_cons, List.take_zero, List.mapM_cons, hdecode]
      rfl
    · subst hsame
      rcases update_found now hfilter hlet hsplit (storedOwner_of_isRecordOf hrecord) with
        ⟨hdone, -⟩ | ⟨hshares, -⟩
      · exact fun h => absurd (hdone.symm.trans h) (by simp [notFound])
      · exact fun h => absurd (hshares.symm.trans h) (by simp [notFound, Collection.duplicate])

end Repository

/-- **What is found can be changed.** In a store whose records can be read, a caller looks
for a record by its primary key at the default audience. If the guard refuses the caller
there, the lookup, an update and a deletion of the key are refused for tenancy, and nothing
changes. If not, the lookup finds one record or none; a deletion succeeds just when it finds
one, and takes out its document and leaves the others in their order; and an update finds
nothing just when the lookup finds nothing. -/
theorem WrittenFor.reads_as_writes {α : Type} {repo : Repository α} {s : Store}
    (h : WrittenFor repo.entity repo.collection s) (hvalid : repo.config.validate = .ok ())
    (hid : repo.schema.RegistersId) (r : Request) (id : Uuid) (condition : Json) :
    (∀ e, Guard.enforce condition ⟨r.source, repo.config.defaultAudience⟩ r = .error e →
      e.isTenancy = true ∧
      ((repo.search r (Search.byId r id repo.config.defaultAudience)).result s = .error e ∧
        (repo.search r (Search.byId r id repo.config.defaultAudience)).after s = s) ∧
      (∀ now record, repo.entity.id record = id →
        (repo.update now r record).result s = .error e ∧
          (repo.update now r record).after s = s) ∧
      (repo.delete r id).result s = .error e ∧ (repo.delete r id).after s = s) ∧
    ∀ enforced,
      Guard.enforce condition ⟨r.source, repo.config.defaultAudience⟩ r = .ok enforced →
      repo.admission r = .ok () →
      ∃ records,
        (repo.search r (Search.byId r id repo.config.defaultAudience)).result s = .ok records ∧
        records.length ≤ 1 ∧
        ((repo.delete r id).result s = .ok () ↔ records ≠ []) ∧
        (∀ a ∈ records, ∃ before d after,
          s.documents repo.collection = before ++ d :: after ∧
          d.get? Schema.idPath = some (.str id.text) ∧ repo.entity.ofJson? d = some a ∧
          ((repo.delete r id).after s).documents repo.collection = before ++ after ∧
          ∀ other, other ≠ repo.collection →
            ((repo.delete r id).after s).collection other = s.collection other) ∧
        ∀ now record, repo.entity.id record = id →
          ((repo.update now r record).result s = repo.notFound id ↔ records = []) := by
  refine ⟨fun e hrefused => Repository.all_refused hvalid hid hrefused id s,
    fun enforced henforce hlet => ?_⟩
  rcases Repository.reach_cases hvalid hid h henforce hlet id with
    ⟨hlookup, hdelete, hupdate⟩ |
    ⟨before, d, after, a, hdocuments, hkey, hread, hlookup, hdelete, hafter, hothers, hupdate⟩
  · refine ⟨[], hlookup, by simp, ?_, by simp, fun now record hrecord => ?_⟩
    · rw [hdelete]
      simp [Repository.notFound]
    · exact iff_of_true (hupdate now record hrecord) rfl
  · refine ⟨[a], hlookup, by simp, iff_of_true hdelete (by simp), fun b hb => ?_,
      fun now record hrecord => iff_of_false (hupdate now record hrecord) (by simp)⟩
    obtain rfl := List.mem_singleton.mp hb
    exact ⟨before, d, after, hdocuments, hkey, hread, hafter, hothers⟩

/-- A user sends in a record. -/
def sending : Call where
  repo := Repository.submissions
  lawful := Record.lawful_entity
  request := Repository.userRequest ⟨2⟩
  operation := .create (Repository.submission ⟨7⟩ "k")

/-- A submission is read as it was stored, whoever owns it. -/
theorem Repository.ofJson?_submission (owner : Owner) (id : Uuid) (key : String) :
    Record.entity.ofJson? (Record.entity.toJson (Record.entity.withOwner owner
      (submission id key))) = some (Record.entity.withOwner owner (submission id key)) := by
  have hinstant : Json.Decode.instant? (.str (default : Instant).text) = some default := rfl
  have hkey : "idempotency_key" ∉ RecordBase.keys := by decide
  have hread : Record.entity.ofJson? = Record.ofJson? := rfl
  rw [hread]
  exact Record.ofJson?_toJson (r := (submission id key).withOwner owner) hinstant hinstant
    (List.forall_mem_singleton.mpr hkey)

theorem writtenFor_sending : WrittenFor Record.entity "submissions" (sending.after {}) := by
  refine .call (.start fun _ => rfl) sending fun _ => ⟨Record.keepsId_entity, fun owner a ha => ?_⟩
  obtain rfl := List.mem_singleton.mp ha
  exact ⟨_, Repository.ofJson?_submission owner ⟨7⟩ "k"⟩

theorem Repository.registersId_submissions : submissions.schema.RegistersId := ⟨rfl, rfl⟩

open Repository in
/-- The user finds the record and may delete it; another one does neither. -/
theorem WrittenFor.reads_as_writes_submission :
    WrittenFor Record.entity "submissions" (sending.after {}) ∧
      (submissions.delete (userRequest ⟨2⟩) ⟨7⟩).result (sending.after {}) = .ok () ∧
      ∀ now, (submissions.update now (userRequest ⟨3⟩) (submission ⟨7⟩ "k")).result
        (sending.after {}) = submissions.notFound ⟨7⟩ := by
  have hsent : WrittenFor submissions.entity submissions.collection (sending.after {}) :=
    writtenFor_sending
  have hagree (user : Uuid) := hsent.reads_as_writes rfl registersId_submissions
    (userRequest user) ⟨7⟩ .null
  refine ⟨writtenFor_sending, ?_, fun now => ?_⟩
  · obtain ⟨records, hlookup, -, hdelete, -⟩ := (hagree ⟨2⟩).2 _ rfl rfl
    have hfound : records = [submissionOf ⟨2⟩ ⟨7⟩ "k"] := Except.ok.inj (hlookup.symm.trans rfl)
    exact hdelete.mpr (by simp [hfound])
  · obtain ⟨records, hlookup, -, -, -, hupdate⟩ := (hagree ⟨3⟩).2 _ rfl rfl
    have hnone : records = [] := Except.ok.inj (hlookup.symm.trans rfl)
    exact (hupdate now (submission ⟨7⟩ "k") rfl).mpr hnone

end ScopedDocs

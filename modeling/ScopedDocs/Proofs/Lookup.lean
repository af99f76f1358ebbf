import ScopedDocs.Proofs.Change
import ScopedDocs.Proofs.Isolation
import ScopedDocs.Proofs.Verdict
/-!
# Lookups — records by their primary key

A record is looked up by its primary key in two ways. Asked for directly, it is the first
document with this key (`Repository.result_getById`). Searched for, it is the first one in
scope: the search is planned like any other, on the field of the primary key, and its filter
selects the documents in scope that have the key (`Repository.result_search_byId`). So where
the guard accepts the caller at the default audience, this search looks at the documents that
the filter of writes is satisfied by.
-/


namespace ScopedDocs

/-- **The primary key as schemas start with it**: callers may search by it, and it is stored
where the store looks for it. -/
structure Schema.RegistersId (s : Schema) : Prop where
  /-- It is allowed. -/
  access : s.access.lookup Search.idField = some true
  /-- It is mapped to the primary key of the store. -/
  mapping : s.mapping.lookup Search.idField = some Schema.idPath

theorem Schema.RegistersId.resolveQueryable {s : Schema} (h : s.RegistersId) :
    s.resolveQueryable Search.idField = .ok ⟨idPath, false⟩ := by
  have hstem : Dotted.stem? Search.idField = none := by decide
  have hname : (Search.idField.isEmpty || Search.idField == Dotted.wildcardEnding ||
      trimmed Search.idField != Search.idField) = false := by decide
  have hempty : Search.idField.isEmpty = false := by decide
  have hcheck : s.checkQueryable Search.idField = .ok () := by
    rw [checkQueryable, hempty, if_neg (by simp), hstem]
    simp only [h.access, ↓reduceIte]
  rw [Schema.resolveQueryable, hcheck, ok_bind, resolve, hname, if_neg (by simp), hstem]
  simp only [h.mapping, Option.orElse]

variable {α : Type} {repo : Repository α} {r : Request} {id : Uuid} {audience : Audience}
  {s : Store}

namespace Repository

/-! ## Directly -/

/-- **Asking for a primary key** answers the first document that has it, whoever owns it. -/
theorem result_getById (repo : Repository α) (r : Request) (id : Uuid) (s : Store) :
    (repo.getById r id).result s =
      (repo.admission r >>= fun _ =>
        match ((s.documents repo.collection).filter (Filter.satisfies · (idFilter id))).head? with
        | some document => (repo.decode document).map some
        | none => .ok none) := by
  have htotal : Filter.Total (idFilter id) := Filter.total_of_holds (holds_idFilter id)
  obtain ⟨found, hsplit⟩ := Collection.split?_of_total htotal (s.documents repo.collection)
  rw [getById, StoreM.result_bind, after_findFirst, result_findFirst htotal hsplit,
    Collection.head?_filter_of_split? hsplit]
  cases repo.admission r with
  | error e => rfl
  | ok _ =>
    rcases found with _ | ⟨before, document, after⟩
    · rfl
    · exact StoreM.result_map some (Store.answer (repo.decode document)) s

/-! ## By a search -/

/-- The filter of a search for a primary key. -/
def idMembers (id : Uuid) : Members Json :=
  [("$and", .arr [fieldTerm ⟨Schema.idPath, false⟩ (.obj [("$eq", .str id.text)])])]

/-- It tests what the filter of the primary key tests. -/
theorem holds_idMembers (id : Uuid) (document : Json) :
    Filter.holds document (.obj (idMembers id)) =
      .ok (Filter.satisfies document (idFilter id)) := by
  have htests : Filter.Tests [("$eq", .str id.text)] fun found =>
      Json.equalsSome found (.str id.text) :=
    Filter.tests_single rfl (by decide) fun _ _ _ => rfl
  have hterm : Filter.holds document
      (fieldTerm ⟨Schema.idPath, false⟩ (.obj [("$eq", .str id.text)])) =
        .ok (Filter.satisfies document (idFilter id)) := by
    rw [Filter.holds_fieldTerm_whole ⟨by decide, by decide⟩ htests,
      Filter.satisfies_of_holds (holds_idFilter id document)]
    simp only [Resolved.found, Resolved.whole, Bool.false_eq_true, ↓reduceIte, List.any_cons,
      List.any_nil, Bool.or_false]
    rfl
  rw [idMembers, Filter.holds_and document (by simp), Filter.allHold, hterm, ok_bind]
  cases Filter.satisfies document (idFilter id) <;> rfl

end Repository

/-- A configuration that makes sense leaves room for one aggregation, and for one record. -/
theorem Config.room {c : Config} (h : c.validate = .ok ()) :
    1 ≤ c.maxDepth.toNat ∧ c.effectiveLimit 1 = .ok 1 := by
  unfold validate at h
  split at h
  · exact absurd h (by simp [invalid])
  · next hpage =>
    split at h
    · exact absurd h (by simp [invalid])
    · split at h
      · exact absurd h (by simp [invalid])
      · next hdepth =>
        have hdepth' : c.maxDepth.toNat ≠ 0 := fun h => hdepth (UInt64.toNat_inj.mp h)
        have hpage' : c.maxPageSize.toNat ≠ 0 := fun h => hpage (UInt64.toNat_inj.mp h)
        have hfits : ¬ c.maxPageSize < 1 := by
          rw [UInt64.lt_iff_toNat_lt]
          exact fun h => absurd h (by change ¬ c.maxPageSize.toNat < 1; omega)
        refine ⟨by omega, ?_⟩
        rw [effectiveLimit, if_neg (by decide), if_neg hfits]

namespace Repository

/-- **The plan of a search for a primary key** is there unless the guard refuses the caller. -/
theorem explain_byId (hvalid : repo.config.validate = .ok ()) (hid : repo.schema.RegistersId)
    (r : Request) (id : Uuid) (audience : Audience) :
    repo.explain r (Search.byId r id audience) =
      (Guard.enforce (.obj (idMembers id)) ⟨r.source, audience⟩ r).map fun enforced =>
        .ofParts enforced none none 0 1 := by
  obtain ⟨hdepth, hlimit⟩ := Config.room hvalid
  have hfilter : filterOf repo.config repo.schema (Search.byId r id audience).aggregations =
      .ok (.obj (idMembers id)) := by
    simp only [Search.byId, Search.byAggregations, Aggregation.allOf, TestGroup.ofValues,
      ValueTest.eq, filterOf, aggregationTerms, Aggregation.term, groupTerms, TestGroup.terms,
      Nat.not_lt.mpr hdepth, ↓reduceIte, List.mapM_cons, List.mapM_nil, ValueTest.term,
      hid.resolveQueryable, ok_bind]
    rfl
  simp only [explain, Search.plan, hfilter, ok_bind]
  rw [show (Search.byId r id audience).options.limit = 1 from rfl, hlimit]
  rfl

/-- **A search for a primary key** answers the first document in scope that has it. -/
theorem result_search_byId (hvalid : repo.config.validate = .ok ())
    (hid : repo.schema.RegistersId) (hlet : repo.admission r = .ok ()) {condition enforced : Json}
    (henforce : Guard.enforce condition ⟨r.source, audience⟩ r = .ok enforced) (id : Uuid)
    (s : Store) :
    (repo.search r (Search.byId r id audience)).result s =
      (((s.documents repo.collection).filter fun d =>
        Filter.satisfies d (idFilter id) &&
          Guard.inScope ⟨r.source, audience⟩ r d).take 1).mapM repo.decode := by
  obtain ⟨terms, hterms, -⟩ := map_eq_ok.mp henforce
  have hkey : Guard.enforce (.obj (idMembers id)) ⟨r.source, audience⟩ r =
      .ok (Guard.combine terms (.obj (idMembers id))) := by
    rw [Guard.enforce, hterms]
    rfl
  have hholds (d : Json) : Filter.holds d (Guard.combine terms (.obj (idMembers id))) =
      .ok (Filter.satisfies d (idFilter id) && Guard.inScope ⟨r.source, audience⟩ r d) := by
    rw [Guard.holds_enforce hkey, holds_idMembers]
    cases Guard.inScope ⟨r.source, audience⟩ r d <;> simp
  have hselect := Rows.select_of_total (Filter.total_of_holds hholds) (s.documents repo.collection)
  simp only [Filter.satisfies_of_holds (hholds _)] at hselect
  rw [result_search, explain_byId hvalid hid, hkey, hlet]
  simp only [Except.map, ok_bind, Rows.run_plan, hselect]
  -- a record is returned whole, and the page starts with the first
  simp only [Rows.arranged, Rows.ordered, List.drop_zero]
  exact congrArg (fun rows => (rows.take 1).mapM repo.decode) (List.map_id' _)

end Repository

end ScopedDocs

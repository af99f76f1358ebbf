import ScopedDocs.Proofs.Rows
import ScopedDocs.Proofs.Run
/-!
# Plans — the rows a search is made of

The plan of a search has its stages in a fixed order (`Repository.explain_iff`). The
first ones select documents, shape them and put them in order, and do not depend on the
page (`Rows.arranged`); the last two cut the page out of what the others leave
(`Rows.run_plan`). Counting sees what is selected (`Repository.result_count`).
-/


namespace ScopedDocs

variable {α : Type}

/-! ## The rows before the page -/

/-- The shape a projection gives to a row, if there is one. -/
def Projection.shape (fields : Option (Members Json)) (document : Json) : Json :=
  match fields with
  | none => document
  | some fields => row fields document

namespace Rows

/-- The rows of documents in the order of sort keys, if there are any. -/
def ordered (keys : Option (Members Json)) (documents : List Json) : Except Error (List Json) :=
  match keys with
  | none => .ok documents
  | some keys => sortBy keys documents

/-- **The rows of a search before its page is cut out**: in the shape of its projection,
and then in the order of its sort keys. -/
def arranged (fields keys : Option (Members Json)) (documents : List Json) :
    Except Error (List Json) :=
  ordered keys (documents.map (Projection.shape fields))

/-- No row is left out where rows are arranged. -/
theorem length_of_arranged {fields keys : Option (Members Json)} {documents rows : List Json}
    (h : arranged fields keys documents = .ok rows) : rows.length = documents.length := by
  cases keys with
  | none => rw [← Except.ok.inj h, List.length_map]
  | some keys => rw [(perm_of_sortWith (sortBy_eq_ok.mp h)).length_eq, List.length_map]

/-- Rows are arranged, or sorting gives up. -/
theorem eq_noOrder_of_arranged {fields keys : Option (Members Json)} {documents : List Json}
    {e : Error} (h : arranged fields keys documents = .error e) : e = .noOrder := by
  cases keys with
  | none => exact absurd h (by simp [arranged, ordered])
  | some keys =>
    rw [arranged, ordered, sortBy] at h
    split at h
    · exact absurd h (by simp)
    · exact (Except.error.inj h).symm

/-- A filter that can be tried on every document selects some of them. -/
theorem exists_select {condition : Json} {documents : List Json}
    (h : ∀ d ∈ documents, ∃ v, Filter.holds d condition = .ok v) :
    ∃ found, select condition documents = .ok found := by
  induction documents with
  | nil => exact ⟨[], rfl⟩
  | cons d rest ih =>
    obtain ⟨⟨v, hv⟩, hrest⟩ := List.forall_mem_cons.mp h
    obtain ⟨found, hfound⟩ := ih hrest
    rw [select_cons, hv, hfound]
    exact ⟨_, rfl⟩

end Rows

/-! ## The stages of a plan -/

/-- The stages of a plan, in order. -/
def Pipeline.ofParts (condition : Json) (fields keys : Option (Members Json)) (skip limit : Nat) :
    Pipeline :=
  .filter condition :: (fields.map fun fields => Stage.project (.obj fields)).toList ++
    (keys.map fun keys => Stage.sort (.obj keys)).toList ++ [.skip skip, .limit limit]

namespace Rows

variable {fields keys : Option (Members Json)} {skip limit : Nat} {documents : List Json}
  {rest : Pipeline}

theorem run_projection :
    run documents
        (Pipeline.toJson ((fields.map fun fields => .project (.obj fields)).toList ++ rest)) =
      run (documents.map (Projection.shape fields)) rest.toJson := by
  cases fields with
  | none =>
    have hsame : documents.map (Projection.shape none) = documents := List.map_id' documents
    rw [hsame]
    rfl
  | some fields => exact run_cons documents (.project (.obj fields)) rest

theorem run_sort :
    run documents (Pipeline.toJson ((keys.map fun keys => .sort (.obj keys)).toList ++ rest)) =
      (ordered keys documents >>= fun rows => run rows rest.toJson) := by
  cases keys with
  | none => rfl
  | some keys => exact run_cons documents (.sort (.obj keys)) rest

theorem run_page :
    run documents (Pipeline.toJson [.skip skip, .limit limit]) =
      .ok ((documents.drop skip).take limit) := by
  rw [run_cons, applyStage, ok_bind, run_cons, applyStage]
  rfl

/-- **What a plan makes of documents**: the page of the rows of those it selects. -/
theorem run_plan (condition : Json) (fields keys : Option (Members Json)) (skip limit : Nat)
    (documents : List Json) :
    run documents (Pipeline.ofParts condition fields keys skip limit).toJson =
      (select condition documents >>= arranged fields keys).map fun rows =>
        (rows.drop skip).take limit := by
  rw [Pipeline.ofParts, List.cons_append, List.cons_append, run_cons, applyStage]
  cases select condition documents with
  | error e => rfl
  | ok found =>
    rw [ok_bind, ok_bind, List.append_assoc, run_projection, run_sort, arranged]
    cases ordered keys (found.map (Projection.shape fields)) with
    | error e => rfl
    | ok rows => exact run_page

end Rows

namespace ResultOptions

/-- The projection of a search lists paths with flags. -/
theorem projection_members {o : ResultOptions} {s : Schema} {projection : Option Json}
    (h : o.projection s = .ok projection) :
    ∃ fields : Option (Members Json), projection = fields.map .obj := by
  rcases projection_cases h with ⟨-, -, rfl⟩ | ⟨-, -, paths, -, rfl⟩ | ⟨-, -, paths, -, rfl⟩
  · exact ⟨none, rfl⟩
  · exact ⟨some _, rfl⟩
  · exact ⟨some _, rfl⟩

end ResultOptions

/-- The sort order of a search lists paths with directions. -/
theorem sortOf_members {s : Schema} {keys : List SortKey} {sort : Option Json}
    (h : sortOf s keys = .ok sort) : ∃ keys : Option (Members Json), sort = keys.map .obj := by
  unfold sortOf at h
  split at h
  · exact ⟨none, (Except.ok.inj h).symm⟩
  · obtain ⟨resolved, -, h⟩ := bind_eq_ok.mp h
    exact ⟨some _, (Except.ok.inj h).symm⟩

/-- **The parts of a plan**: its filter, its projection, its sort order and its page. There
is a plan just when each of them passes. -/
theorem Search.plan_eq_ok {c : Config} {s : Schema} {search : Search} {p : Pipeline} :
    search.plan c s = .ok p ↔
      ∃ condition fields keys limit,
        filterOf c s search.aggregations = .ok condition ∧
        search.options.projection s = .ok (fields.map .obj) ∧
        sortOf s search.sort = .ok (keys.map .obj) ∧
        c.effectiveLimit search.options.limit = .ok limit ∧
        p = .ofParts condition fields keys search.options.skip.toNat limit.toNat := by
  simp only [plan, bind_eq_ok, Except.ok.injEq]
  constructor
  · rintro ⟨condition, hcondition, projection, hprojection, sort, hsort, limit, hlimit, rfl⟩
    obtain ⟨fields, rfl⟩ := ResultOptions.projection_members hprojection
    obtain ⟨keys, rfl⟩ := sortOf_members hsort
    refine ⟨condition, fields, keys, limit, hcondition, hprojection, hsort, hlimit, ?_⟩
    simp only [Pipeline.ofParts, Option.map_map, Function.comp_def]
  · rintro ⟨condition, fields, keys, limit, hcondition, hprojection, hsort, hlimit, rfl⟩
    refine ⟨condition, hcondition, _, hprojection, _, hsort, limit, hlimit, ?_⟩
    simp only [Pipeline.ofParts, Option.map_map, Function.comp_def]

/-- Enforcement on a plan changes its filter and nothing else. -/
theorem Guard.enforcePipeline_ofParts (condition : Json) (fields keys : Option (Members Json))
    (skip limit : Nat) (v : Visibility) (r : Request) :
    enforcePipeline (.ofParts condition fields keys skip limit) v r =
      (enforce condition v r).map fun enforced =>
        .ofParts enforced fields keys skip limit := rfl

/-- A plan has one projection and one sort order. -/
theorem Pipeline.ofParts_inj {condition other : Json}
    {fields fields' keys keys' : Option (Members Json)} {skip skip' limit limit' : Nat}
    (h : ofParts condition fields keys skip limit = ofParts other fields' keys' skip' limit') :
    fields = fields' ∧ keys = keys' := by
  cases fields <;> cases fields' <;> cases keys <;> cases keys' <;> simp_all [ofParts]

/-- The projection and the sort order of a plan are those of its search. -/
theorem Search.parts_of_plan {c : Config} {s : Schema} {search : Search} {condition : Json}
    {fields keys : Option (Members Json)} {skip limit : Nat}
    (h : search.plan c s = .ok (.ofParts condition fields keys skip limit)) :
    search.options.projection s = .ok (fields.map .obj) ∧
      sortOf s search.sort = .ok (keys.map .obj) := by
  obtain ⟨_, fields', keys', _, -, hfields, hkeys, -, hparts⟩ := plan_eq_ok.mp h
  obtain ⟨rfl, rfl⟩ := Pipeline.ofParts_inj hparts
  exact ⟨hfields, hkeys⟩

namespace Repository

variable {repo : Repository α} {r : Request} {search : Search} {s : Store} {p : Pipeline}

/-- **A search has a pipeline** just when each of its parts passes, and then these are
its stages. -/
theorem explain_iff :
    repo.explain r search = .ok p ↔
      ∃ condition enforced fields keys limit,
        filterOf repo.config repo.schema search.aggregations = .ok condition ∧
        Guard.enforce condition search.visibility r = .ok enforced ∧
        search.options.projection repo.schema = .ok (fields.map .obj) ∧
        sortOf repo.schema search.sort = .ok (keys.map .obj) ∧
        repo.config.effectiveLimit search.options.limit = .ok limit ∧
        p = .ofParts enforced fields keys search.options.skip.toNat limit.toNat := by
  simp only [explain, bind_eq_ok, Search.plan_eq_ok]
  constructor
  · rintro ⟨_, ⟨condition, fields, keys, limit, hcondition, hfields, hkeys, hlimit, rfl⟩, h⟩
    rw [Guard.enforcePipeline_ofParts] at h
    obtain ⟨enforced, henforced, rfl⟩ := map_eq_ok.mp h
    exact ⟨condition, enforced, fields, keys, limit, hcondition, henforced, hfields, hkeys, hlimit,
      rfl⟩
  · rintro ⟨condition, enforced, fields, keys, limit, hcondition, henforced, hfields, hkeys, hlimit,
      rfl⟩
    refine ⟨_, ⟨condition, fields, keys, limit, hcondition, hfields, hkeys, hlimit, rfl⟩, ?_⟩
    rw [Guard.enforcePipeline_ofParts]
    exact map_eq_ok.mpr ⟨enforced, henforced, rfl⟩

/-- **Counting** answers how many documents the filter selects. -/
theorem result_count {condition enforced : Json}
    (hcondition : filterOf repo.config repo.schema search.aggregations = .ok condition)
    (henforced : Guard.enforce condition search.visibility r = .ok enforced) :
    (repo.count r search).result s =
      (repo.admission r >>= fun _ =>
        (Rows.select enforced (s.documents repo.collection)).map List.length) := by
  simp only [count, StoreM.result_bind, StoreM.result_answer, StoreM.after_answer, result_query,
    Store.count, hcondition, henforced, ok_bind, Collection.count_eq_select]
  rfl

end Repository

end ScopedDocs

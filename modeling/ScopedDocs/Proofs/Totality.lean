import ScopedDocs.Proofs.Deletion
import ScopedDocs.Proofs.Pages
import ScopedDocs.Proofs.Verdict
/-!
# Totality — what is planned can be run

No term that a search is made of is ever refused: its key is a path or a connective over
some terms, and its condition is one that can be tried on every document
(`filterOf_total`), if the patterns of the texts that are asked for fit. That the guard
puts its own terms in front changes nothing of this (`Guard.total_enforce`). So the filter
of a search that has a pipeline counts and deletes in every collection, and the pipeline
answers from every list of documents that can be sorted as it asks
(`Repository.plan_runs`), also where what is nested too deep has been left out. From a
list that cannot be sorted so it may not (`Repository.plan_ends`).
-/


namespace ScopedDocs

/-! ## Terms -/

section

variable {c : Config} {s : Schema} {depth : Nat} {term : Json}

/-- The term of a test against values can be tried on every document, if its pattern
fits. -/
theorem ValueTest.term_total (hsound : s.Sound) {t : ValueTest} (hfits : t.Fits)
    (h : t.term s = .ok term) : Filter.Total term :=
  Filter.total_of_holds fun d => ValueTest.term_holds d hsound hfits h

/-- And so can that of a range. -/
theorem rangeTerm_total (hsound : s.Sound) {field : String} {min max : Option Json}
    {answer : Option Json}
    (h : (do
      let r ← s.resolveQueryable field
      Except.ok ((boundsCondition? min max).map (fieldTerm r))) = .ok answer)
    (hterm : answer = some term) : Filter.Total term := by
  obtain ⟨r, hresolve, h⟩ := bind_eq_ok.mp h
  obtain rfl := Except.ok.inj h
  rcases boundsCondition?_ok min max with ⟨hnone, -⟩ | ⟨-, members, hsome, htests⟩
  · exact absurd hterm (by simp [hnone])
  · rw [hsome, Option.map_some, Option.some.injEq] at hterm
    rw [← hterm]
    exact Filter.total_of_holds
      (Filter.holds_fieldTerm_whole (hsound.resolveQueryable hresolve) htests)

/-- A clause of total terms is total. -/
theorem Clause.total (clause : Clause) {terms : List Json} (hne : terms ≠ [])
    (h : ∀ t ∈ terms, Filter.Total t) :
    Filter.Total (.obj [(clause.connective, .arr terms)]) := by
  cases clause with
  | all => exact Filter.total_of_holds (Filter.holds_and_of_total hne h)
  | any => exact Filter.total_of_holds (Filter.holds_or_of_total hne h)

mutual

/-- **The term of an aggregation is total**, if it has one. -/
theorem Aggregation.term_total (hsound : s.Sound) {depth : Nat} {answer : Option Json} :
    (a : Aggregation) → (∀ t ∈ a.valueTests, t.Fits) → a.term c s depth = .ok answer →
    ∀ t ∈ answer, Filter.Total t
  | .combine clause groups, hfits, h, t, ht => by
    rw [Aggregation.term] at h
    split at h
    · -- nested too deep: it is refused, or left out and no term at all
      split at h
      · exact absurd h (by simp)
      · rw [← Except.ok.inj h] at ht
        exact absurd ht (by simp)
    · obtain ⟨terms, hterms, h⟩ := bind_eq_ok.mp h
      rw [← Except.ok.inj h] at ht
      split at ht
      · exact absurd ht (by simp)
      · next hne =>
        obtain rfl := Option.some.inj (Option.mem_def.mp ht)
        exact clause.total (by simpa using hne) (groupTerms_total hsound groups hfits hterms)

theorem groupTerms_total (hsound : s.Sound) {depth : Nat} {terms : List Json} :
    (groups : List TestGroup) → (∀ t ∈ groupValueTests groups, t.Fits) →
    groupTerms c s depth groups = .ok terms → ∀ t ∈ terms, Filter.Total t
  | [], _, h => by
    rw [← Except.ok.inj h]
    exact fun t ht => absurd ht List.not_mem_nil
  | group :: groups, hfits, h => by
    obtain ⟨first, hfirst, h⟩ := bind_eq_ok.mp h
    obtain ⟨rest, hrest, h⟩ := bind_eq_ok.mp h
    obtain ⟨hgroup, hgroups⟩ := List.forall_mem_append.mp hfits
    rw [← Except.ok.inj h, List.forall_mem_append]
    exact ⟨TestGroup.terms_total hsound group hgroup hfirst,
      groupTerms_total hsound groups hgroups hrest⟩

/-- The terms of a group are total: of values, of dates, of spans, and nested ones. -/
theorem TestGroup.terms_total (hsound : s.Sound) {depth : Nat} {terms : List Json} :
    (group : TestGroup) → (∀ t ∈ group.valueTests, t.Fits) → group.terms c s depth = .ok terms →
    ∀ t ∈ terms, Filter.Total t
  | .tests values dates spans nested, hfits, h => by
    obtain ⟨valueTerms, hvalues, h⟩ := bind_eq_ok.mp h
    obtain ⟨dateTerms, hdates, h⟩ := bind_eq_ok.mp h
    obtain ⟨spanTerms, hspans, h⟩ := bind_eq_ok.mp h
    obtain ⟨nestedTerms, hnested, h⟩ := bind_eq_ok.mp h
    obtain ⟨hown, hinner⟩ := List.forall_mem_append.mp hfits
    rw [← Except.ok.inj h]
    intro t ht
    simp only [List.mem_append, List.mem_filterMap, id] at ht
    rcases ht with ((ht | ⟨answer, hanswer, ht⟩) | ⟨answer, hanswer, ht⟩) | ht
    · obtain ⟨test, htest, hterm⟩ := ok_of_mem_mapM hvalues ht
      exact ValueTest.term_total hsound (hown test htest) hterm
    · obtain ⟨range, -, hterm⟩ := ok_of_mem_mapM hdates hanswer
      exact rangeTerm_total hsound hterm ht
    · obtain ⟨range, -, hterm⟩ := ok_of_mem_mapM hspans hanswer
      exact rangeTerm_total hsound hterm ht
    · exact aggregationTerms_total hsound nested hinner hnested t ht

theorem aggregationTerms_total (hsound : s.Sound) {depth : Nat} {terms : List Json} :
    (aggregations : List Aggregation) → (∀ t ∈ aggregationValueTests aggregations, t.Fits) →
    aggregationTerms c s depth aggregations = .ok terms → ∀ t ∈ terms, Filter.Total t
  | [], _, h => by
    rw [← Except.ok.inj h]
    exact fun t ht => absurd ht List.not_mem_nil
  | a :: rest, hfits, h => by
    obtain ⟨first, hfirst, h⟩ := bind_eq_ok.mp h
    obtain ⟨others, hothers, h⟩ := bind_eq_ok.mp h
    obtain ⟨hown, hrest⟩ := List.forall_mem_append.mp hfits
    rw [← Except.ok.inj h, List.forall_mem_append]
    refine ⟨fun t ht => ?_, aggregationTerms_total hsound rest hrest hothers⟩
    exact Aggregation.term_total hsound a hown hfirst t (Option.mem_toList.mp ht)

end

/-- **The filter of a search is total** if all patterns fit, whether nesting too deep is
refused or left out. -/
theorem filterOf_total (hsound : s.Sound) {aggregations : List Aggregation} {condition : Json}
    (hfits : ∀ t ∈ aggregationValueTests aggregations, t.Fits)
    (h : filterOf c s aggregations = .ok condition) : Filter.Total condition := by
  obtain ⟨terms, hterms, h⟩ := bind_eq_ok.mp h
  have htotal := aggregationTerms_total hsound aggregations hfits hterms
  split at h
  · -- nothing is asked for, and every document satisfies that
    rw [← Except.ok.inj h]
    exact Filter.total_of_holds fun _ => rfl
  · rw [← Except.ok.inj h]
    exact htotal _ (List.mem_singleton_self _)
  · next hne _ =>
    rw [← Except.ok.inj h]
    exact Clause.total .all hne htotal

end

/-! ## The guard -/

/-- **Enforcement keeps a filter total.** -/
theorem Guard.total_enforce {condition enforced : Json} {v : Visibility} {r : Request}
    (htotal : Filter.Total condition) (h : enforce condition v r = .ok enforced) :
    Filter.Total enforced := by
  obtain ⟨terms, hterms, rfl⟩ := map_eq_ok.mp h
  obtain ⟨hne, hscope⟩ := scopeTerms_total hterms
  unfold combine
  split
  · exact Clause.total .all hne hscope
  · refine Clause.total .all (by simp) ?_
    rw [List.forall_mem_append, List.forall_mem_singleton]
    exact ⟨hscope, htotal⟩

/-! ## Running -/

namespace Store

variable {condition : Json}

/-- A total filter counts the documents that satisfy it. -/
theorem count_of_total (h : Filter.Total condition) (s : Store) (name : String) :
    s.count name condition =
      .ok ((s.documents name).filter (Filter.satisfies · condition)).length := by
  rw [count, Collection.count_eq_select, Rows.select_of_total h]
  rfl

/-- A total filter deletes without an error, from every collection. -/
theorem deleteOne_of_total (h : Filter.Total condition) (s : Store) (name : String) :
    ∃ n, (deleteOne name condition).result s = .ok n := by
  obtain ⟨found, hsplit⟩ := Collection.split?_of_total h (s.documents name)
  rw [result_deleteOne]
  rcases found with _ | ⟨before, d, after⟩
  · rw [Collection.delete_none hsplit]
    exact ⟨_, rfl⟩
  · rw [Collection.delete_found hsplit]
    exact ⟨_, rfl⟩

end Store

namespace Repository

variable {α : Type} {repo : Repository α} {r : Request} {search : Search} {p : Pipeline}

/-- **What is planned can be run.** If a search has a plan, passes the guard and all its
patterns fit, its pipeline answers on every list of documents, or sorting them gives up; and
it does not give up where what it sorts is sortable. Its filter, which is the one that
counting uses, counts the documents of every collection and deletes from each. -/
theorem plan_runs (hbuilt : repo.schema.IsBuilt) (hplan : repo.explain r search = .ok p)
    (hfits : ∀ t ∈ aggregationValueTests search.aggregations, t.Fits) :
    (∀ documents, ((∃ rows, Rows.run documents p.toJson = .ok rows) ∨
        Rows.run documents p.toJson = .error .noOrder) ∧
      (p.Sortable documents → ∃ rows, Rows.run documents p.toJson = .ok rows)) ∧
    ∃ condition enforced,
      filterOf repo.config repo.schema search.aggregations = .ok condition ∧
      Guard.enforce condition search.visibility r = .ok enforced ∧ p.filter? = some enforced ∧
      ∀ (s : Store) (name : String), (∃ n, s.count name enforced = .ok n) ∧
        ∃ n, (Store.deleteOne name enforced).result s = .ok n := by
  obtain ⟨condition, enforced, fields, keys, limit, hcondition, henforced, -, -, -, rfl⟩ :=
    explain_iff.mp hplan
  have htotal : Filter.Total enforced :=
    Guard.total_enforce (filterOf_total hbuilt.sound.1 hfits hcondition) henforced
  refine ⟨fun documents => ?_, condition, enforced, hcondition, henforced, rfl, fun s name =>
    ⟨⟨_, s.count_of_total htotal name⟩, s.deleteOne_of_total htotal name⟩⟩
  have hfound := Rows.select_of_total htotal documents
  rw [Rows.run_plan, hfound, ok_bind]
  refine ⟨?_, fun hsortable => ?_⟩
  · cases hrows : Rows.arranged fields keys _ with
    | ok rows => exact .inl ⟨_, rfl⟩
    | error e =>
      obtain rfl := Rows.eq_noOrder_of_arranged hrows
      exact .inr rfl
  · obtain ⟨rows, hrows⟩ :=
      Rows.exists_arranged (Pipeline.sortable_ofParts.mp hsortable _ hfound)
    exact ⟨_, by rw [hrows]; rfl⟩

/-- A repository of clips that leaves out what is nested deeper than one level. -/
def clips : Repository Record :=
  ⟨clipSchema, { maxDepth := 1, depthOverflow := .drop }, Record.entity⟩

/-- A title that ends in a text with marks of patterns, or something of a field that there is
not, which is nested too deep to be looked at. -/
def markedSearch : Search :=
  { aggregations := [.anyOf [.tests [⟨"Title", .endsWith, [.str "(a|b)*["]⟩,
      ⟨"Length.*", .notIn, []⟩] [] [⟨"Length", none, none⟩]
      [.allOf [.ofValues [.eq "Nothing" .null]]]]],
    sort := [⟨"Title", .descending⟩], visibility := ⟨Guard.memberRequest.source, .user⟩ }

/-- It is answered from all documents that can be sorted by their titles. -/
theorem plan_runs_marked :
    clips.schema.IsBuilt ∧ (∀ t ∈ aggregationValueTests markedSearch.aggregations, t.Fits) ∧
      ∃ p, clips.explain Guard.memberRequest markedSearch = .ok p ∧
        ∀ documents, p.Sortable documents → ∃ rows, Rows.run documents p.toJson = .ok rows := by
  have hfits : ∀ t ∈ aggregationValueTests markedSearch.aggregations, t.Fits := by
    decide +kernel
  obtain ⟨p, hplan⟩ : ∃ p, clips.explain Guard.memberRequest markedSearch = .ok p := ⟨_, rfl⟩
  exact ⟨isBuilt_clipSchema, hfits, p, hplan, fun documents =>
    ((plan_runs isBuilt_clipSchema hplan hfits).1 documents).2⟩

/-- **Sorting may end a plan**: among the times of some notes, each comes before another
one, and the sort of a plan gives up on them. -/
theorem plan_ends :
    ¬ ∀ (repo : Repository Record) (r : Request) (search : Search) (p : Pipeline),
      repo.schema.IsBuilt → repo.explain r search = .ok p →
      (∀ t ∈ aggregationValueTests search.aggregations, t.Fits) →
      ∀ documents, ∃ rows, Rows.run documents p.toJson = .ok rows := by
  intro h
  obtain ⟨condition, howned, hplan⟩ :
      ∃ condition, Guard.ownershipFilter Guard.memberRequest .user = .ok condition ∧
        dated.explain Guard.memberRequest byTime =
          .ok (.ofParts condition none (some [("at", .ofInt 1)]) 0 50) := ⟨_, rfl, rfl⟩
  have hnone : aggregationValueTests byTime.aggregations = [] := rfl
  obtain ⟨rows, hrows⟩ := h dated Guard.memberRequest byTime _ isBuilt_datedSchema hplan
    (by simp [hnone]) (roundNotes.map Record.toJson)
  rw [Rows.run_plan, select_roundNotes howned, ok_bind, arranged_roundNotes] at hrows
  exact absurd hrows (by simp [Except.map])

end Repository

end ScopedDocs

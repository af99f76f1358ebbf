import ScopedDocs.Proofs.Declarations
import ScopedDocs.Proofs.Mentions
import ScopedDocs.Search.Plan
/-!
# Whitelist — what a search may test

Every path that the filter of a search reads is where a field is stored that the search
tests, at any depth and in conditions on elements too (`filterOf_reads`), and the whitelist
has let that field through (`Schema.checkQueryable_iff`). It is asked about the field by its
name alone, not about what lies above or below: so a field that is denied is not read
through names that neither touch it nor lead to the same place (`Search.tested_apart`),
but it is read through a wildcard over it and an allowed sibling
(`Search.tested_by_wildcard`).
-/


namespace ScopedDocs

/-! ## The whitelist -/

namespace Schema

variable {s : Schema} {name entry : String}

/-- **A name the whitelist lets through.** A plain name is allowed itself. Of a wildcard,
neither it nor its stem is denied, and it, its stem or a name below the stem is allowed. -/
def Admits (s : Schema) (name : String) : Prop :=
  match Dotted.stem? name with
  | none => s.access.lookup name = some true
  | some stem =>
    s.access.lookup stem ≠ some false ∧ s.access.lookup name ≠ some false ∧
      ∃ entry, (entry, true) ∈ s.access ∧
        (entry = stem ∨ entry = name ∨ Dotted.isBelow stem entry = true)

/-- An entry below which, or at which, a wildcard finds something allowed. -/
theorem any_allowed_iff {stem : String} :
    (s.access.any fun (entry, allowed) =>
      allowed && (entry == stem || entry == name || Dotted.isBelow stem entry)) = true ↔
      ∃ entry, (entry, true) ∈ s.access ∧
        (entry = stem ∨ entry = name ∨ Dotted.isBelow stem entry = true) := by
  rw [List.any_eq_true]
  constructor
  · rintro ⟨⟨entry, allowed⟩, hentry, h⟩
    simp only [Bool.and_eq_true, Bool.or_eq_true, beq_iff_eq, or_assoc] at h
    obtain ⟨rfl, h⟩ := h
    exact ⟨entry, hentry, h⟩
  · rintro ⟨entry, hentry, h⟩
    exact ⟨(entry, true), hentry, by simpa [or_assoc] using h⟩

/-- **The whitelist** lets a name through just when it is one and is admitted. -/
theorem checkQueryable_iff : s.checkQueryable name = .ok () ↔ name ≠ "" ∧ s.Admits name := by
  rw [checkQueryable, Admits]
  split
  · next hempty => exact iff_of_false (by simp) fun h => h.1 (String.isEmpty_iff.mp hempty)
  · next hempty =>
    rw [String.isEmpty_iff] at hempty
    rw [and_iff_right hempty]
    cases Dotted.stem? name with
    | none =>
      simp only
      split <;> simp_all
    | some stem =>
      simp only [List.any_cons, List.any_nil, Bool.or_false]
      rw [← any_allowed_iff]
      split
      · next hrefused =>
        refine iff_of_false (by simp) fun ⟨hstem, hname, hallowed⟩ => ?_
        rw [hallowed] at hrefused
        simp_all
      · next hpasses =>
        simp only [Bool.or_eq_true, beq_iff_eq, Bool.not_eq_true', not_or, Bool.not_eq_false]
          at hpasses
        exact iff_of_true rfl ⟨hpasses.1.1, hpasses.1.2, hpasses.2⟩

/-- **What is denied is not admitted** under its own name, nor as a wildcard of the field. -/
theorem Admits.ne (h : s.Admits name) (hentry : s.access.lookup entry = some false) :
    name ≠ entry ∧ Dotted.stem? name ≠ some (Dotted.stem entry) := by
  unfold Admits at h
  cases hstem : Dotted.stem? name with
  | none =>
    simp only [hstem] at h
    refine ⟨?_, by simp⟩
    rintro rfl
    exact absurd (h.symm.trans hentry) (by simp)
  | some stem =>
    simp only [hstem] at h
    obtain ⟨hfree, hname, -⟩ := h
    have hne : name ≠ entry := by
      rintro rfl
      exact hname hentry
    refine ⟨hne, fun heq => ?_⟩
    obtain rfl := Option.some.inj heq
    -- the entry is the field itself or the wildcard of it, which is the name
    cases hentry' : Dotted.stem? entry with
    | none => exact hfree (by rwa [Dotted.stem_of_none hentry'])
    | some st =>
      rw [Dotted.stem, hentry', Option.getD_some] at hstem
      exact hne ((Dotted.stem?_eq_some.mp hstem).trans (Dotted.stem?_eq_some.mp hentry').symm)

end Schema

/-! ## Tested fields -/

mutual

/-- The fields that an aggregation tests. -/
def Aggregation.fields : Aggregation → List String
  | .combine _ groups => groupFields groups

/-- The fields that groups test. -/
def groupFields : List TestGroup → List String
  | [] => []
  | group :: groups => group.fields ++ groupFields groups

/-- The fields that a group tests. -/
def TestGroup.fields : TestGroup → List String
  | .tests values dates spans nested =>
    values.map ValueTest.field ++ dates.map DateRange.field ++ spans.map SpanRange.field ++
      aggregationFields nested

/-- The fields that aggregations test. -/
def aggregationFields : List Aggregation → List String
  | [] => []
  | aggregation :: aggregations => aggregation.fields ++ aggregationFields aggregations

end

/-- A path where one of some fields is stored, which callers may search by. -/
def Schema.Searches (s : Schema) (fields : List String) (path : String) : Prop :=
  ∃ name ∈ fields, ∃ r, s.resolveQueryable name = .ok r ∧ r.path = path

theorem Schema.Searches.mono {s : Schema} {fields others : List String} {path : String}
    (h : s.Searches fields path) (hsub : fields ⊆ others) : s.Searches others path := by
  obtain ⟨name, hname, r, hr, heq⟩ := h
  exact ⟨name, hsub hname, r, hr, heq⟩

/-! ## Conditions -/

namespace Filter

/-- **A plain condition**: its members are operators, and none of them tests elements. -/
structure IsPlain (members : Members Json) : Prop where
  /-- All of the members are operators. -/
  areOperators : areOperators members = true
  /-- None of them tests the items of an array. -/
  names : ∀ m ∈ members, Operator.ofName? m.1 ≠ some .elemMatch

variable {members : Members Json} {key name : String}

theorem operandPaths_of_ne (h : Operator.ofName? name ≠ some .elemMatch) (operand : Json) :
    operandPaths key name operand = [] := by
  cases operand with
  | obj members =>
    unfold operandPaths
    split
    · next heq => exact absurd heq h
    · rfl
  | _ => rfl

/-- A plain condition reads nothing below its path. -/
theorem IsPlain.operatorPaths (h : IsPlain members) (key : String) :
    operatorPaths key members = [] := by
  have hnames := h.names
  clear h
  induction members with
  | nil => rfl
  | cons m rest ih =>
    obtain ⟨hm, hrest⟩ := List.forall_mem_cons.mp hnames
    rw [Filter.operatorPaths, operandPaths_of_ne hm, ih hrest, List.append_nil]

/-- **The term of a field** reads where the field is stored, if it reads anything. -/
theorem eq_of_mem_fieldTerm {r : Resolved} {condition : Json} {path : String}
    (h : IsPlain members)
    (hcondition : condition = .obj members ∨ condition = .obj [("$elemMatch", .obj members)])
    (hpath : path ∈ paths (fieldTerm r condition)) : path = r.path := by
  have helement : operatorPaths r.path [("$elemMatch", .obj members)] = [] := by
    have hname : Operator.ofName? "$elemMatch" = some .elemMatch := rfl
    simp only [Filter.operatorPaths, operandPaths, hname, h.areOperators, ↓reduceIte,
      h.operatorPaths, List.append_nil]
  have hkey : path ∈ keyPaths r.path condition := by
    simpa [fieldTerm, paths, memberPaths] using hpath
  rcases hcondition with rfl | rfl <;> unfold keyPaths at hkey <;> split at hkey
  · simpa [h.operatorPaths] using hkey
  · exact absurd hkey List.not_mem_nil
  · simpa [helement] using hkey
  · exact absurd hkey List.not_mem_nil

end Filter

/-- The condition of a test against values is plain. -/
theorem ValueTest.isPlain {t : ValueTest} {condition : Json} (h : t.condition = .ok condition) :
    ∃ members, condition = .obj members ∧ Filter.IsPlain members := by
  unfold ValueTest.condition at h
  cases hoperator : t.operator <;> simp only [hoperator] at h
  case isIn | notIn =>
    obtain rfl := Except.ok.inj h
    exact ⟨_, rfl, rfl, by simp; decide⟩
  all_goals
    obtain ⟨value, -, rfl⟩ := map_eq_ok.mp h
    exact ⟨_, rfl, rfl, by simp; decide⟩

/-- The condition of bounds is plain. -/
theorem boundsCondition?_isPlain {min max : Option Json} {condition : Json}
    (h : boundsCondition? min max = some condition) :
    ∃ members, condition = .obj members ∧ Filter.IsPlain members := by
  unfold boundsCondition? at h
  split at h
  · exact absurd h (by simp)
  all_goals
    obtain rfl := Option.some.inj h
    exact ⟨_, rfl, rfl, by simp; decide⟩

/-! ## Trees -/

section

variable {c : Config} {s : Schema} {path : String}

/-- What one of several tests reads is where a field of theirs is stored. -/
theorem searches_of_mapM {α β : Type} {read : α → Except Error β} {field : α → String}
    {tests : List α} {terms : List β} {b : β} (h : tests.mapM read = .ok terms) (hb : b ∈ terms)
    (hread : ∀ a, read a = .ok b → s.Searches [field a] path) :
    s.Searches (tests.map field) path := by
  obtain ⟨a, ha, hterm⟩ := ok_of_mem_mapM h hb
  refine (hread a hterm).mono fun name hname => ?_
  rw [List.mem_singleton.mp hname]
  exact List.mem_map_of_mem ha

/-- **The term of a test against values** reads where its field is stored. -/
theorem ValueTest.term_reads {t : ValueTest} {term : Json} (h : t.term s = .ok term)
    (hpath : path ∈ Filter.paths term) : s.Searches [t.field] path := by
  obtain ⟨r, hresolve, h⟩ := bind_eq_ok.mp h
  obtain ⟨condition, hcondition, h⟩ := bind_eq_ok.mp h
  obtain ⟨members, rfl, hplain⟩ := ValueTest.isPlain hcondition
  rw [← Except.ok.inj h] at hpath
  refine ⟨t.field, List.mem_singleton_self _, r, hresolve, ?_⟩
  refine (Filter.eq_of_mem_fieldTerm hplain ?_ hpath).symm
  split
  · exact .inr rfl
  · exact .inl rfl

/-- **The term of a range** reads where its field is stored. -/
theorem rangeTerm_reads {field : String} {min max : Option Json} {term : Option Json}
    (h : (do
      let r ← s.resolveQueryable field
      Except.ok ((boundsCondition? min max).map (fieldTerm r))) = .ok term)
    {found : Json} (hfound : found ∈ term) (hpath : path ∈ Filter.paths found) :
    s.Searches [field] path := by
  obtain ⟨r, hresolve, h⟩ := bind_eq_ok.mp h
  obtain rfl := Except.ok.inj h
  obtain ⟨condition, hcondition, rfl⟩ := Option.map_eq_some_iff.mp (Option.mem_def.mp hfound)
  obtain ⟨members, rfl, hplain⟩ := boundsCondition?_isPlain hcondition
  exact ⟨field, List.mem_singleton_self _, r, hresolve,
    (Filter.eq_of_mem_fieldTerm hplain (.inl rfl) hpath).symm⟩

mutual

/-- **The term of an aggregation** reads where the fields it tests are stored. -/
theorem Aggregation.term_reads {depth : Nat} {term : Option Json} : (a : Aggregation) →
    a.term c s depth = .ok term → ∀ found ∈ term, path ∈ Filter.paths found →
    s.Searches a.fields path
  | .combine clause groups, h, found, hfound, hpath => by
    rw [Aggregation.term] at h
    split at h
    · -- nested too deep: it is refused, or dropped and reads nothing
      split at h
      · exact absurd h (by simp)
      · rw [← Except.ok.inj h] at hfound
        exact absurd hfound (by simp)
    · obtain ⟨terms, hterms, h⟩ := bind_eq_ok.mp h
      rw [← Except.ok.inj h] at hfound
      split at hfound
      · exact absurd hfound (by simp)
      · obtain rfl := Option.some.inj (Option.mem_def.mp hfound)
        have hkey : ∃ how, Filter.Key.of clause.connective = .connective how := by
          cases clause <;> exact ⟨_, rfl⟩
        obtain ⟨how, hkey⟩ := hkey
        rw [Filter.paths_connective hkey] at hpath
        exact groupTerms_read groups hterms (Filter.mem_clausePaths.mp hpath)

theorem groupTerms_read {depth : Nat} {terms : List Json} : (groups : List TestGroup) →
    groupTerms c s depth groups = .ok terms → (∃ term ∈ terms, path ∈ Filter.paths term) →
    s.Searches (groupFields groups) path
  | [], h, ⟨term, hterm, _⟩ => by
    rw [← Except.ok.inj h] at hterm
    exact absurd hterm List.not_mem_nil
  | group :: groups, h, ⟨term, hterm, hpath⟩ => by
    obtain ⟨first, hfirst, h⟩ := bind_eq_ok.mp h
    obtain ⟨rest, hrest, h⟩ := bind_eq_ok.mp h
    rw [← Except.ok.inj h] at hterm
    rcases List.mem_append.mp hterm with hterm | hterm
    · exact (TestGroup.terms_read group hfirst ⟨term, hterm, hpath⟩).mono
        (List.subset_append_left _ _)
    · exact (groupTerms_read groups hrest ⟨term, hterm, hpath⟩).mono (List.subset_append_right _ _)

/-- The terms of a group read where the fields it tests are stored. -/
theorem TestGroup.terms_read {depth : Nat} {terms : List Json} : (group : TestGroup) →
    group.terms c s depth = .ok terms → (∃ term ∈ terms, path ∈ Filter.paths term) →
    s.Searches group.fields path
  | .tests values dates spans nested, h, ⟨term, hterm, hpath⟩ => by
    obtain ⟨valueTerms, hvalues, h⟩ := bind_eq_ok.mp h
    obtain ⟨dateTerms, hdates, h⟩ := bind_eq_ok.mp h
    obtain ⟨spanTerms, hspans, h⟩ := bind_eq_ok.mp h
    obtain ⟨nestedTerms, hnested, h⟩ := bind_eq_ok.mp h
    rw [← Except.ok.inj h] at hterm
    simp only [List.mem_append, List.mem_filterMap, id] at hterm
    rcases hterm with ((hterm | ⟨date, hdate, hterm⟩) | ⟨span, hspan, hterm⟩) | hterm
    · have hreads := searches_of_mapM hvalues hterm fun t ht => t.term_reads ht hpath
      refine hreads.mono fun _ hname => ?_
      simp only [TestGroup.fields, List.mem_append, hname, true_or]
    · have hreads := searches_of_mapM hdates hdate fun t ht => rangeTerm_reads ht hterm hpath
      refine hreads.mono fun _ hname => ?_
      simp only [TestGroup.fields, List.mem_append, hname, true_or, or_true]
    · have hreads := searches_of_mapM hspans hspan fun t ht => rangeTerm_reads ht hterm hpath
      refine hreads.mono fun _ hname => ?_
      simp only [TestGroup.fields, List.mem_append, hname, true_or, or_true]
    · exact (aggregationTerms_read nested hnested ⟨term, hterm, hpath⟩).mono
        (List.subset_append_right _ _)

theorem aggregationTerms_read {depth : Nat} {terms : List Json} :
    (aggregations : List Aggregation) → aggregationTerms c s depth aggregations = .ok terms →
    (∃ term ∈ terms, path ∈ Filter.paths term) → s.Searches (aggregationFields aggregations) path
  | [], h, ⟨term, hterm, _⟩ => by
    rw [← Except.ok.inj h] at hterm
    exact absurd hterm List.not_mem_nil
  | a :: rest, h, ⟨term, hterm, hpath⟩ => by
    obtain ⟨first, hfirst, h⟩ := bind_eq_ok.mp h
    obtain ⟨others, hothers, h⟩ := bind_eq_ok.mp h
    rw [← Except.ok.inj h] at hterm
    rcases List.mem_append.mp hterm with hterm | hterm
    · exact (Aggregation.term_reads a hfirst term (Option.mem_toList.mp hterm) hpath).mono
        (List.subset_append_left _ _)
    · exact (aggregationTerms_read rest hothers ⟨term, hterm, hpath⟩).mono
        (List.subset_append_right _ _)

end

/-- **The filter of a search** reads where the fields it tests are stored. -/
theorem filterOf_reads {aggregations : List Aggregation} {condition : Json}
    (h : filterOf c s aggregations = .ok condition) (hpath : path ∈ Filter.paths condition) :
    s.Searches (aggregationFields aggregations) path := by
  obtain ⟨terms, hterms, h⟩ := bind_eq_ok.mp h
  refine aggregationTerms_read aggregations hterms ?_
  split at h
  · rw [← Except.ok.inj h] at hpath
    exact absurd hpath List.not_mem_nil
  · rw [← Except.ok.inj h] at hpath
    exact ⟨_, List.mem_singleton_self _, hpath⟩
  · rw [← Except.ok.inj h] at hpath
    rwa [Filter.paths_connective rfl, Filter.mem_clausePaths] at hpath

end

/-! ## What is denied -/

namespace Search

variable {c : Config} {s : Schema} {search : Search} {p : Pipeline} {condition : Json}
  {path entry : String}

/-- The filter of a plan is that of the aggregations. -/
theorem filter_of_plan (hplan : search.plan c s = .ok p) (hfilter : Stage.filter condition ∈ p) :
    filterOf c s search.aggregations = .ok condition := by
  simp only [plan, bind_eq_ok, Except.ok.injEq] at hplan
  obtain ⟨filter, hfilterOf, projection, -, sort, -, limit, -, rfl⟩ := hplan
  obtain rfl : condition = filter := by simpa using hfilter
  exact hfilterOf

/-- **What a search tests has been let through.** A path that its filter reads is where a
field is stored that the search tests, and the whitelist admits this field by its name: the
name is no denied entry and no wildcard of a denied field. So the path does not touch where
a denied field without aliases is stored, unless the name touches that field. This leaves
out fields that are tested by a wildcard of a wildcard. -/
theorem tested_apart {denied : Resolved} (hentry : s.access.lookup entry = some false)
    (hdenied : s.resolve (Dotted.stem entry) = .ok denied) (hplan : search.plan c s = .ok p)
    (hfilter : Stage.filter condition ∈ p) (hpath : path ∈ Filter.paths condition) :
    ∃ name ∈ aggregationFields search.aggregations,
      (∃ r, s.resolve name = .ok r ∧ r.path = path) ∧
      s.Admits name ∧ name ≠ entry ∧ Dotted.stem? name ≠ some (Dotted.stem entry) ∧
      (s.Unaliased (Dotted.stem entry) → Dotted.stem? (Dotted.stem name) = none →
        ¬ Dotted.Touches (Dotted.stem name) (Dotted.stem entry) →
        ¬ Dotted.Touches path denied.path) := by
  obtain ⟨name, hname, r, hr, rfl⟩ := filterOf_reads (filter_of_plan hplan hfilter) hpath
  obtain ⟨⟨⟩, hcheck, hr⟩ := bind_eq_ok.mp hr
  have hadmits := (Schema.checkQueryable_iff.mp hcheck).2
  obtain ⟨hne, hstem⟩ := hadmits.ne hentry
  refine ⟨name, hname, ⟨r, hr, rfl⟩, hadmits, hne, hstem, fun halone hplain hapart htouches => ?_⟩
  exact hapart (halone.touches hdenied hr hplain htouches)

/-- A schema with a header, of which one field is allowed and the other denied. -/
def headerSchema : Schema :=
  { entityType := "match", collection := "matches",
    access := [("Header.Filestamp", true), ("Header.Server", false), ("ID", true)],
    mapping := [("Header", "header"), ("Header.Filestamp", "header.filestamp"),
      ("Header.Server", "header.server"), ("ID", "_id")], fields := [] }

theorem isBuilt_headerSchema : headerSchema.IsBuilt :=
  ⟨(((((Schema.Draft.start "match" "matches").map "Header" "header").map "Header.Filestamp"
    "header.filestamp").map "Header.Server" "header.server").queryable
      ["Header.Filestamp"]).deny ["Header.Server"], rfl⟩

/-- An element of the file stamp, or else a record by its key. -/
def stampSearch : Search :=
  { aggregations := [.anyOf [.tests [⟨"Header.Filestamp.*", .greater, [.ofInt 5]⟩] [] []
      [.allOf [.ofValues [.eq "ID" (.str "r1")]]]]] }

/-- The file stamp is not where the server is. -/
theorem tested_apart_stamp :
    ∃ p condition, stampSearch.plan {} headerSchema = .ok p ∧ Stage.filter condition ∈ p ∧
      "header.filestamp" ∈ Filter.paths condition ∧
      headerSchema.access.lookup "Header.Server" = some false ∧
      headerSchema.resolve (Dotted.stem "Header.Server") = .ok ⟨"header.server", false⟩ ∧
      ¬ Dotted.Touches "header.filestamp" "header.server" := by
  obtain ⟨p, condition, hplan, hfilter, hpath⟩ : ∃ p condition,
      stampSearch.plan {} headerSchema = .ok p ∧ Stage.filter condition ∈ p ∧
      "header.filestamp" ∈ Filter.paths condition :=
    ⟨_, _, rfl, List.mem_cons_self, by decide⟩
  have hentry : headerSchema.access.lookup "Header.Server" = some false := by decide
  have halone : headerSchema.Unaliased (Dotted.stem "Header.Server") := by decide
  obtain ⟨name, hname, -, -, -, -, hapart⟩ := tested_apart hentry rfl hplan hfilter hpath
  have hnames : ∀ name ∈ aggregationFields stampSearch.aggregations,
      Dotted.stem? (Dotted.stem name) = none ∧
        ¬ Dotted.Touches (Dotted.stem name) (Dotted.stem "Header.Server") := by decide
  obtain ⟨hplain, haway⟩ := hnames name hname
  exact ⟨p, condition, hplan, hfilter, hpath, hentry, rfl, hapart halone hplain haway⟩

/-- A test of all that is below the header. -/
def headerSearch : Search :=
  { aggregations := [.allOf [.ofValues [.eq "Header.*" (.ofInt 1)]]] }

/-- **What is denied can be tested by a wildcard over it.** -/
theorem tested_by_wildcard :
    ¬ ∀ (c : Config) (s : Schema) (search : Search) (p : Pipeline) (condition : Json)
      (path entry : String) (denied : Resolved), s.IsBuilt → s.access.lookup entry = some false →
      s.resolve (Dotted.stem entry) = .ok denied → search.plan c s = .ok p →
      Stage.filter condition ∈ p → path ∈ Filter.paths condition →
      ¬ Dotted.Touches path denied.path := by
  intro h
  have hheader : ¬ Dotted.Touches "header" "header.server" :=
    h {} headerSchema headerSearch _ _ "header" "Header.Server" ⟨"header.server", false⟩
      isBuilt_headerSchema (by decide) rfl rfl List.mem_cons_self (by decide)
  exact hheader (by decide)

end Search

end ScopedDocs
